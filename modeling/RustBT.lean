import RustBT.Bencode.Basic
import RustBT.Bencode.Decimal
import RustBT.Bencode.Encode
import RustBT.Bencode.Decode
import RustBT.Bencode.Sound
import RustBT.Bencode.Complete
import RustBT.Bencode.Lax
import RustBT.Bencode.Macros
import RustBT.Metainfo.Parse
import RustBT.Metainfo.Pieces
import RustBT.Metainfo.MetainfoFile
import RustBT.Metainfo.Properties
import RustBT.Metainfo.InfoHash
import RustBT.Metainfo.Params
import RustBT.Metainfo.Rejections
import RustBT.Metainfo.Validate
