import RustBT.Metainfo.MetainfoFile

/-!
# Building a torrent as `validate_parse_from_params` does, and reading it back

The test helper `validate_parse_from_params` builds a root dictionary from optional parameters
with `BTreeMap::insert`, encodes it and parses it with `MetainfoFile::from_bytes`. This module
translates the builder and proves, for every well-formed description and not only the twelve
records of the tests, that the parse succeeds and gives the description back.

* `insertOpt`, `fileDictOf`, `Params.baseInfo`, `Params.infoDict`, `Params.rootDict` — the
  builder, insert by insert into a `BTreeMap` (`SortedDict`), so every dictionary it builds has
  sorted keys by construction; `Params.infoDict` is `none` where the helper panics (`files[0]`
  of an empty list, `p[0]` of an empty path).
* `decode_rootDict` — whatever the parameters, the helper's buffer decodes to the dictionary
  it was built from: every value it inserts is well-formed, and the root is at most five
  deep.
* `TorrentDesc`, `TorrentDesc.Valid`, `TorrentDesc.toParams` — a torrent description, what
  makes it well-formed, and the helper's arguments for it.
* `fromBytes_toParams` — `from_bytes` accepts the buffer built from a valid description and
  reproduces it: the advisory fields, the directory, the piece length, the private flag, the
  pieces split into 20-byte hashes in order, the files in order, and the info hash;
* `fromBytes_singleFile_unchecked` — the single-file branch needs no condition on the name:
  whatever string names the one file, it parses and becomes the file's whole path.
-/

namespace RustBT

open Bencode (WellFormed)

/-! ## The builder -/

/-- `ben_bytes!(s)`: a string as a byte-string value.
Source: `metainfo.rs` lines 296-300 (`ben_bytes!`)
Kind: D -/
def benBytes (s : Str) : Bencode := .bytes s.bytes

/-- `opt.map(|x| dict.insert(key, x))`: insert when the parameter is present.
Source: `metainfo.rs` lines 296-306
Kind: D -/
def insertOpt (k : List UInt8) : Option Bencode → SortedDict Bencode → SortedDict Bencode
  | none, d => d
  | some v, d => d.insert k v

/-- One element of the `files` parameter, `(Option<i64>, Option<&[u8]>, Option<Vec<String>>)`:
length, md5sum and path.
Source: `metainfo.rs` line 293
Kind: D -/
abbrev FileParam := Option I64 × Option (List UInt8) × Option (List Str)

/-- The file dictionary the helper builds for one element of `files`.
Source: `metainfo.rs` lines 313-325
Kind: D -/
def fileDictOf : FileParam → Bencode
  | (optLen, optMd5, optPaths) =>
    .dict (SortedDict.empty
      |> insertOpt pathKey (optPaths.map fun p => .list (p.map benBytes))
      |> insertOpt lengthKey (optLen.map .int)
      |> insertOpt md5sumKey (optMd5.map .bytes)).entries

/-- The parameters of `validate_parse_from_params`, in its order (`private` is `priv`).
Source: `metainfo.rs` lines 291-293
Kind: D -/
structure Params where
  tracker : Option Str
  createDate : Option I64
  comment : Option Str
  createBy : Option Str
  encoding : Option Str
  pieceLength : Option I64
  pieces : Option (List UInt8)
  priv : Option I64
  directory : Option Str
  files : Option (List FileParam)

/-- The first three inserts into `info_dict`: piece length, pieces, private.
Source: `metainfo.rs` lines 302-306
Kind: D -/
def Params.baseInfo (p : Params) : SortedDict Bencode :=
  SortedDict.empty
    |> insertOpt pieceLengthKey (p.pieceLength.map .int)
    |> insertOpt piecesKey (p.pieces.map .bytes)
    |> insertOpt privateKey (p.priv.map .int)

/-- `opt_path.as_ref().map(|p| info_dict.insert(NAME_KEY, ben_bytes!(&p[0])))`: the first path
component as the name; `none` where `p[0]` panics on an empty path.
Source: `metainfo.rs` line 335
Kind: D -/
def insertName (info : SortedDict Bencode) : Option (List Str) → Option (SortedDict Bencode)
  | none => some info
  | some [] => none
  | some (name :: _) => some (info.insert nameKey (benBytes name))

/-- The entries of the `info` dictionary: with a directory, its name and the list of file
dictionaries; without one, the name, length and md5sum of the first file. `none` where the
helper panics.
Source: `metainfo.rs` lines 308-343
Kind: D -/
def Params.infoDict (p : Params) : Option Dictionary :=
  match p.directory, p.files with
  | some d, files =>
    some (p.baseInfo.insert nameKey (benBytes d)
      |> insertOpt filesKey (files.map fun fs => .list (fs.map fileDictOf))).entries
  | none, none => some p.baseInfo.entries
  | none, some [] => none
  | none, some ((optLen, optMd5, optPath) :: _) =>
    (insertName p.baseInfo optPath).map fun info =>
      (info |> insertOpt lengthKey (optLen.map .int)
        |> insertOpt md5sumKey (optMd5.map .bytes)).entries

/-- The entries of the root dictionary around a built `info` dictionary.
Source: `metainfo.rs` lines 294-300 and 344-347
Kind: D -/
def Params.rootDict (p : Params) (info : Dictionary) : Dictionary :=
  (SortedDict.empty
    |> insertOpt announceUrlKey (p.tracker.map benBytes)
    |> insertOpt creationDateKey (p.createDate.map .int)
    |> insertOpt commentKey (p.comment.map benBytes)
    |> insertOpt createdByKey (p.createBy.map benBytes)
    |> insertOpt encodingKey (p.encoding.map benBytes)
    |>.insert infoKey (.dict info)).entries

/-! ## Lookups in a built dictionary -/

/-- A lookup after an optional insertion.
Source: none: infrastructure
Kind: L -/
theorem lookup_insertOpt (k k₀ : List UInt8) (o : Option Bencode) (d : SortedDict Bencode) :
    (insertOpt k o d).entries.lookup k₀ =
      if k₀ = k then o.or (d.entries.lookup k₀) else d.entries.lookup k₀ := by
  cases o <;> simp [insertOpt, lookup_dictInsert]

/-- A string written with `ben_bytes!` reads back as itself.
Source: none: infrastructure
Kind: L -/
@[simp] theorem bind_benBytes (o : Option Str) : (o.map benBytes).bind Bencode.str? = o := by
  cases o <;> simp [benBytes]

/-! ## Every built value decodes -/

/-- A property of every entry survives an optional insertion of an entry that has it.
Source: none: infrastructure
Kind: L -/
theorem forall_mem_insertOpt {P : List UInt8 × Bencode → Prop} {k : List UInt8}
    {o : Option Bencode} {d : SortedDict Bencode} (hv : ∀ v ∈ o, P (k, v))
    (hd : ∀ p ∈ d.entries, P p) : ∀ p ∈ (insertOpt k o d).entries, P p := by
  cases o with
  | none => exact hd
  | some v => exact forall_mem_dictInsert (hv v rfl) hd

/-- A file dictionary is two levels deep: the dictionary and its `path` list.
Source: `metainfo.rs` lines 313-325
Kind: L -/
theorem wellFormed_fileDictOf (fp : FileParam) : WellFormed 2 (fileDictOf fp) := by
  obtain ⟨optLen, optMd5, optPaths⟩ := fp
  refine wellFormed_sortedDict.mpr (forall_mem_insertOpt ?_ (forall_mem_insertOpt ?_
    (forall_mem_insertOpt ?_ (by simp))))
  all_goals simp only [Option.forall_mem_map]
  · exact fun _ _ => wellFormed_bytes _
  · exact fun _ _ => wellFormed_int _
  · exact fun p _ => wellFormed_list.mpr (by simp [benBytes, wellFormed_bytes])

/-- The first three inserts are leaves. Source: `metainfo.rs` lines 302-306. Kind: L -/
theorem wellFormed_baseInfo (p : Params) : ∀ e ∈ p.baseInfo.entries, WellFormed 3 e.2 := by
  refine forall_mem_insertOpt ?_ (forall_mem_insertOpt ?_ (forall_mem_insertOpt ?_ (by simp))) <;>
    simp [wellFormed_int, wellFormed_bytes]

/-- Every `info` dictionary the helper builds is at most four deep.
Source: `metainfo.rs` lines 302-343
Kind: L -/
theorem wellFormed_infoDict {p : Params} {info : Dictionary} (h : p.infoDict = some info) :
    WellFormed 4 (.dict info) := by
  have hb := wellFormed_baseInfo p
  unfold Params.infoDict at h
  split at h
  · cases h
    refine wellFormed_sortedDict.mpr (forall_mem_insertOpt ?_
      (forall_mem_dictInsert (wellFormed_bytes _) hb))
    simp only [Option.forall_mem_map]
    exact fun fs _ => wellFormed_list.mpr fun x hx => by
      obtain ⟨fp, -, rfl⟩ := List.mem_map.mp hx; exact wellFormed_fileDictOf fp
  · cases h; exact wellFormed_sortedDict.mpr hb
  · cases h
  · obtain ⟨info', hinfo', rfl⟩ := Option.map_eq_some'.mp h
    have hwf : ∀ e ∈ info'.entries, WellFormed 3 e.2 := by
      unfold insertName at hinfo'
      split at hinfo' <;> cases hinfo'
      exacts [hb, forall_mem_dictInsert (wellFormed_bytes _) hb]
    refine wellFormed_sortedDict.mpr (forall_mem_insertOpt ?_ (forall_mem_insertOpt ?_ hwf)) <;>
      simp [wellFormed_int, wellFormed_bytes]

/-- **The helper's buffer always decodes.** Whatever the parameters, when the helper builds an
`info` dictionary (it does not panic), the encoded root decodes, under the default options, to
the dictionary it was built from.
Source: `metainfo.rs` lines 291-347; spec §4.2
Kind: L -/
theorem decode_rootDict {p : Params} {info : Dictionary} (h : p.infoDict = some info) :
    decode (Bencode.dict (p.rootDict info)).encode {} = .ok (.dict (p.rootDict info)) := by
  have hroot : WellFormed 5 (.dict (p.rootDict info)) := by
    refine wellFormed_sortedDict.mpr (forall_mem_dictInsert (wellFormed_infoDict h)
      (forall_mem_insertOpt ?_ (forall_mem_insertOpt ?_ (forall_mem_insertOpt ?_
      (forall_mem_insertOpt ?_ (forall_mem_insertOpt ?_ (by simp))))))) <;>
      simp [benBytes, wellFormed_int, wellFormed_bytes]
  exact decode_encode {} (hroot.mono (by decide))

/-- The root's fields read back as the parameters, and `info` as the built dictionary.
Source: `metainfo.rs` lines 294-300 and 344-347
Kind: L -/
theorem rootDict_fields (p : Params) (info : Dictionary) :
    (p.rootDict info).lookup infoKey = some (.dict info) ∧
      (p.rootDict info).lookup announceUrlKey = p.tracker.map benBytes ∧
      parseComment (p.rootDict info) = p.comment ∧
      parseCreatedBy (p.rootDict info) = p.createBy ∧
      parseEncoding (p.rootDict info) = p.encoding ∧
      parseCreationDate (p.rootDict info) = p.createDate := by
  simp +decide [Params.rootDict, parseComment, parseCreatedBy, parseEncoding, parseCreationDate,
    optional, lookup_insertOpt, lookup_dictInsert]

/-! ## Torrent descriptions -/

/-- A torrent description: the announce URL, the advisory fields, the piece length and hashes,
the private flag, and the files, under a directory or (with no directory) a single file whose
path is its name.
Source: `metainfo.rs` lines 291-293 (the helper's parameters, made total)
Kind: D -/
structure TorrentDesc where
  announce : Str
  comment : Option Str
  createdBy : Option Str
  encoding : Option Str
  creationDate : Option I64
  pieceLength : I64
  pieces : List UInt8
  priv : Option I64
  directory : Option Str
  files : List File

/-- A description a torrent can have: the announce URL parses, the piece length is positive,
the pieces are whole 20-byte hashes, every file has a non-negative length and a non-empty path
of safe components, and a description without a directory has one file named by one component.
Source: spec §3 "Metainfo" field constraints
Kind: D -/
structure TorrentDesc.Valid {Url : Type} (parseUrl : Str → Option Url) (P : TorrentDesc) :
    Prop where
  announce_parses : (parseUrl P.announce).isSome
  pieceLength_pos : 0 < P.pieceLength.val
  pieces_whole : P.pieces.length % shaHashLen = 0
  files_valid : ∀ f ∈ P.files,
    0 ≤ f.len.val ∧ f.path ≠ [] ∧ ∀ c ∈ f.path, isSafeComponent c = true
  single_file : P.directory = none → ∃ f, P.files = [f] ∧ f.path.length = 1

/-- The helper's arguments for a description: every parameter present, the files as
`(Some(length), md5sum, Some(path))`.
Source: `metainfo.rs` lines 291-293
Kind: D -/
def TorrentDesc.toParams (P : TorrentDesc) : Params where
  tracker := some P.announce
  createDate := P.creationDate
  comment := P.comment
  createBy := P.createdBy
  encoding := P.encoding
  pieceLength := some P.pieceLength
  pieces := some P.pieces
  priv := P.priv
  directory := P.directory
  files := some (P.files.map fun f => (some f.len, f.md5sum, some f.path))

/-- The later inserts into `info_dict` leave its first three entries alone.
Source: `metainfo.rs` lines 302-343
Kind: L -/
theorem lookup_infoDict_base {p : Params} {info : Dictionary} (h : p.infoDict = some info)
    {k : List UInt8} (hk : k = pieceLengthKey ∨ k = piecesKey ∨ k = privateKey) :
    info.lookup k = p.baseInfo.entries.lookup k := by
  have hk' : k ≠ nameKey ∧ k ≠ filesKey ∧ k ≠ lengthKey ∧ k ≠ md5sumKey := by
    rcases hk with rfl | rfl | rfl <;> decide
  unfold Params.infoDict at h
  split at h
  · cases h; simp [lookup_insertOpt, lookup_dictInsert, hk']
  · cases h; rfl
  · cases h
  · obtain ⟨info', hinfo', rfl⟩ := Option.map_eq_some'.mp h
    unfold insertName at hinfo'
    split at hinfo' <;> cases hinfo' <;> simp [lookup_insertOpt, lookup_dictInsert, hk']

/-- The piece length, pieces and private flag of a description read back from its `info`
dictionary.
Source: `metainfo.rs` lines 164-169 and 302-306
Kind: L -/
theorem baseInfo_fields {P : TorrentDesc} (hpos : 0 < P.pieceLength.val) {info : Dictionary}
    (h : P.toParams.infoDict = some info) :
    parsePieceLength info = .ok P.pieceLength ∧ parsePieces info = .ok P.pieces ∧
      parsePrivate info = (P.priv.map I64.val == some 1) := by
  have h1 := lookup_infoDict_base h (.inl rfl)
  have h2 := lookup_infoDict_base h (.inr (.inl rfl))
  have h3 := lookup_infoDict_base h (.inr (.inr rfl))
  refine ⟨parsePieceLength_eq_ok.mpr ⟨?_, hpos⟩, required_eq_ok.mpr ?_, ?_⟩
  all_goals simp +decide [parsePrivate, optional, h1, h2, h3, Params.baseInfo,
    TorrentDesc.toParams, lookup_insertOpt]

/-- One file of a valid description, built as a file dictionary, parses back to itself.
Source: `metainfo.rs` lines 239-254 and 313-325
Kind: L -/
theorem parseMultiFile_fileDictOf {f : File}
    (hf : 0 ≤ f.len.val ∧ f.path ≠ [] ∧ ∀ c ∈ f.path, isSafeComponent c = true) :
    parseMultiFile (fileDictOf (some f.len, f.md5sum, some f.path)) = .ok f := by
  obtain ⟨hlen, hne, hsafe⟩ := hf
  simp only [parseMultiFile, fileDictOf, parseFileDict, Bencode.dict?_dict, ok_bind]
  refine File.asMultiFile_eq_ok.mpr ⟨f.len, f.path.map benBytes,
    parseLength_eq_ok.mpr ⟨?_, hlen⟩, parsePathList_eq_ok.mpr ⟨required_eq_ok.mpr ?_, ?_⟩,
    List.forall₂_map_left_iff.mpr (List.forall₂_same.mpr fun c hc => parsePathStr_bytes
      (hsafe c hc)), rfl, ?_⟩
  all_goals simp +decide [parseMd5sum, optional, lookup_insertOpt, hne]

section Reproduce

variable {Url InfoHash : Type} (sha1 : List UInt8 → InfoHash) (parseUrl : Str → Option Url)

/-- With a directory, the `info` dictionary built for a description whose files are valid
parses as a multi-file dictionary, with the description's files in order.
Source: `metainfo.rs` lines 163-191 and 308-329
Kind: L -/
theorem parseFromInfoDictionary_toParams_multi {P : TorrentDesc} {dir : Str}
    (hdir : P.directory = some dir) (hpos : 0 < P.pieceLength.val)
    (hvalid : ∀ f ∈ P.files, 0 ≤ f.len.val ∧ f.path ≠ [] ∧ ∀ c ∈ f.path, isSafeComponent c = true)
    {bufs : List ShaHash} (hbufs : allocatePieces P.pieces = .ok bufs) :
    ∃ info, P.toParams.infoDict = some info ∧ parseFromInfoDictionary info =
      .ok ⟨P.files, bufs, P.pieceLength, P.priv.map I64.val == some 1, some dir⟩ := by
  set info := (insertOpt filesKey
    (some (.list ((P.files.map fun f => (some f.len, f.md5sum, some f.path)).map fileDictOf)))
    (P.toParams.baseInfo.insert nameKey (benBytes dir))).entries with hdef
  have hinfo : P.toParams.infoDict = some info := by
    simp [Params.infoDict, TorrentDesc.toParams, hdir, hdef]
  obtain ⟨hpl, hp, hpriv⟩ := baseInfo_fields hpos hinfo
  have hm : isMultiFileTorrent info = true := by
    simp +decide [hdef, isMultiFileTorrent, parseLength, required, lookup_insertOpt,
      lookup_dictInsert, Params.baseInfo]
  have hfiles : List.Forall₂ (fun fb f => parseMultiFile fb = .ok f)
      ((P.files.map fun f => (some f.len, f.md5sum, some f.path)).map fileDictOf) P.files := by
    rw [List.map_map]
    exact List.forall₂_map_left_iff.mpr (List.forall₂_same.mpr fun f hf =>
      parseMultiFile_fileDictOf (hvalid f hf))
  refine ⟨_, hinfo, hpriv ▸ parseFromInfoDictionary_of_multi hpl hp hbufs hm
    (required_eq_ok.mpr ?_) (required_eq_ok.mpr ?_) hfiles⟩ <;>
    simp +decide [hdef, lookup_insertOpt, lookup_dictInsert, benBytes]

/-- Without a directory, the `info` dictionary built for a description of one file named by one
component parses as a single-file dictionary with that file.
Source: `metainfo.rs` lines 163-191 and 330-341
Kind: L -/
theorem parseFromInfoDictionary_toParams_single {P : TorrentDesc} {f : File} {name : Str}
    (hdir : P.directory = none) (hfs : P.files = [f]) (hname : f.path = [name])
    (hpos : 0 < P.pieceLength.val) (hlen : 0 ≤ f.len.val)
    {bufs : List ShaHash} (hbufs : allocatePieces P.pieces = .ok bufs) :
    ∃ info, P.toParams.infoDict = some info ∧ parseFromInfoDictionary info =
      .ok ⟨[f], bufs, P.pieceLength, P.priv.map I64.val == some 1, none⟩ := by
  set info := (insertOpt md5sumKey (f.md5sum.map .bytes) (insertOpt lengthKey (some (.int f.len))
    (P.toParams.baseInfo.insert nameKey (benBytes name)))).entries with hdef
  have hinfo : P.toParams.infoDict = some info := by
    simp [Params.infoDict, TorrentDesc.toParams, hdir, hfs, hname, insertName, hdef]
  obtain ⟨hpl, hp, hpriv⟩ := baseInfo_fields hpos hinfo
  have hl : parseLength info = .ok f.len :=
    parseLength_eq_ok.mpr ⟨by simp +decide [hdef, lookup_insertOpt, lookup_dictInsert], hlen⟩
  have hmd5 : parseMd5sum info = f.md5sum := by
    simp +decide [hdef, parseMd5sum, optional, lookup_insertOpt, lookup_dictInsert,
      Params.baseInfo]
  have hf : File.asSingleFile info = .ok f := File.asSingleFile_eq_ok.mpr ⟨f.len, name, hl,
    required_eq_ok.mpr (by simp +decide [hdef, lookup_insertOpt, lookup_dictInsert, benBytes]),
    by rw [hmd5, ← hname]⟩
  exact ⟨_, hinfo, hpriv ▸ parseFromInfoDictionary_of_single hpl hp hbufs
    (isMultiFileTorrent_eq_false.mpr ⟨f.len, parseLength_eq_ok.mp hl⟩) hf⟩

/-- The `info` dictionary built for a valid description parses, with the description's files,
piece length, private flag and directory, and the given split of its pieces.
Source: `metainfo.rs` lines 163-191 and 302-343
Kind: L -/
theorem parseFromInfoDictionary_toParams {P : TorrentDesc} (hP : P.Valid parseUrl)
    {bufs : List ShaHash} (hbufs : allocatePieces P.pieces = .ok bufs) :
    ∃ info, P.toParams.infoDict = some info ∧ parseFromInfoDictionary info =
      .ok ⟨P.files, bufs, P.pieceLength, P.priv.map I64.val == some 1, P.directory⟩ := by
  cases hdir : P.directory with
  | some dir =>
    exact parseFromInfoDictionary_toParams_multi hdir hP.pieceLength_pos hP.files_valid hbufs
  | none =>
    obtain ⟨f, hfs, hlen1⟩ := hP.single_file hdir
    obtain ⟨name, hname⟩ := List.length_eq_one.mp hlen1
    rw [hfs]
    exact parseFromInfoDictionary_toParams_single hdir hfs hname hP.pieceLength_pos
      (hP.files_valid f (by simp [hfs])).1 hbufs

/-- What it means for a parsed torrent to give a description back.
Source: `metainfo.rs` lines 349-380 (the helper's assertions)
Kind: D -/
structure TorrentDesc.Reproduced (P : TorrentDesc) (m : MetainfoFile Url InfoHash) : Prop where
  announce : parseUrl P.announce = some m.announce
  comment : m.comment = P.comment
  createdBy : m.createdBy = P.createdBy
  encoding : m.encoding = P.encoding
  creationDate : m.creationDate = P.creationDate
  directory : m.info.directory = P.directory
  pieceLength : m.info.pieceLength = P.pieceLength
  isPrivate : m.info.isPrivate = (P.priv.map I64.val == some 1)
  pieces : PiecesSplit P.pieces m.info.pieces
  files : m.info.files = P.files

/-- Once the built `info` dictionary parses to the description's fields, the whole buffer parses
and reproduces the description, with SHA-1 of the encoded `info` dictionary as its info hash.
Source: `metainfo.rs` lines 85-104 and 294-347
Kind: L -/
theorem fromBytes_toParams_of_info {P : TorrentDesc} (hann : (parseUrl P.announce).isSome)
    (hpieces : P.pieces.length % shaHashLen = 0)
    (hinfo : ∀ bufs, allocatePieces P.pieces = .ok bufs → ∃ info,
      P.toParams.infoDict = some info ∧ parseFromInfoDictionary info =
        .ok ⟨P.files, bufs, P.pieceLength, P.priv.map I64.val == some 1, P.directory⟩) :
    ∃ info m, P.toParams.infoDict = some info ∧
      MetainfoFile.fromBytes sha1 parseUrl (Bencode.dict (P.toParams.rootDict info)).encode =
        .ok m ∧
      P.Reproduced parseUrl m ∧ m.infoHash = sha1 (Bencode.dict info).encode := by
  obtain ⟨url, hurl⟩ := Option.isSome_iff_exists.mp hann
  obtain ⟨bufs, hbufs, hsplit, -⟩ := allocatePieces_ok_split hpieces
  obtain ⟨info, hinfo, hI⟩ := hinfo bufs hbufs
  obtain ⟨hinfoKey, hann, hcomment, hcreatedBy, hencoding, hdate⟩ :=
    rootDict_fields P.toParams info
  have hannounce : parseAnnounceUrl parseUrl (P.toParams.rootDict info) = .ok url :=
    required_eq_ok.mpr (by rw [hann]; simp [TorrentDesc.toParams, benBytes, hurl])
  refine ⟨info, _, hinfo, fromBytes_of_decode sha1 parseUrl (decode_rootDict hinfo) hinfoKey
    hannounce hI, ⟨hurl, hcomment, hcreatedBy, hencoding, hdate, rfl, rfl, rfl, hsplit, rfl⟩, rfl⟩

/-- **A built torrent reads back as its description.** For every valid description, the helper
builds an `info` dictionary without panicking, `from_bytes` accepts the encoded root, and the
result reproduces the description: the advisory fields, the directory (`None` for a single file),
the piece length, the private flag as `private == 1`, the pieces as the consecutive 20-byte
hashes in order, the files in order, and the info hash as SHA-1 of the encoded `info`
dictionary.
Source: `metainfo.rs` lines 85-104, 163-191 and 291-381
Kind: P -/
theorem fromBytes_toParams (P : TorrentDesc) (hP : P.Valid parseUrl) :
    ∃ info m, P.toParams.infoDict = some info ∧
      MetainfoFile.fromBytes sha1 parseUrl (Bencode.dict (P.toParams.rootDict info)).encode =
        .ok m ∧
      P.Reproduced parseUrl m ∧ m.infoHash = sha1 (Bencode.dict info).encode :=
  fromBytes_toParams_of_info sha1 parseUrl hP.announce_parses hP.pieces_whole fun _ hbufs =>
    parseFromInfoDictionary_toParams parseUrl hP hbufs

/-- **The single-file name is not checked.** For every description without a directory and
with one file whose path is one component `name`, whatever string `name` is (empty, `.`, `..`,
or containing `/`), the torrent the helper builds parses, and its one file's path is `[name]`.
Source: `metainfo.rs` lines 230-237
Kind: P -/
theorem fromBytes_singleFile_unchecked (P : TorrentDesc) {f : File} {name : Str}
    (hdir : P.directory = none) (hfs : P.files = [f]) (hname : f.path = [name])
    (hann : (parseUrl P.announce).isSome) (hpos : 0 < P.pieceLength.val)
    (hpieces : P.pieces.length % shaHashLen = 0) (hlen : 0 ≤ f.len.val) :
    ∃ info m, P.toParams.infoDict = some info ∧
      MetainfoFile.fromBytes sha1 parseUrl (Bencode.dict (P.toParams.rootDict info)).encode =
        .ok m ∧
      m.info.files = [⟨f.len, [name], f.md5sum⟩] := by
  obtain ⟨info, m, hinfo, hm, hrep, -⟩ := fromBytes_toParams_of_info sha1 parseUrl hann hpieces
    fun _ hbufs => by
      rw [hdir, hfs]
      exact parseFromInfoDictionary_toParams_single hdir hfs hname hpos hlen hbufs
  exact ⟨info, m, hinfo, hm, by rw [hrep.files, hfs, ← hname]⟩

end Reproduce

/-- A three-file torrent under a directory, with two distinct piece hashes and `private` set.
Source: `metainfo.rs` lines 291-293 (a parameter record)
Kind: D -/
def threeFileDesc : TorrentDesc where
  announce := ⟨ascii "udp://x:8989", by decide⟩
  comment := some ⟨ascii "c", by decide⟩
  createdBy := none
  encoding := some ⟨ascii "UTF-8", by decide⟩
  creationDate := some ⟨1000, by decide, by decide⟩
  pieceLength := ⟨1024, by decide, by decide⟩
  pieces := List.replicate 20 1 ++ List.replicate 20 2
  priv := some ⟨1, by decide, by decide⟩
  directory := some ⟨ascii "d", by decide⟩
  files :=
    [⟨⟨5, by decide, by decide⟩, [⟨ascii "a", by decide⟩], none⟩,
     ⟨⟨0, by decide, by decide⟩, [⟨ascii "s", by decide⟩, ⟨ascii "b", by decide⟩], some [7]⟩,
     ⟨⟨9, by decide, by decide⟩, [⟨ascii "c", by decide⟩], none⟩]

/-- The three-file description is valid and reads back. Source: `metainfo.rs` lines 291-381.
Kind: L -/
theorem fromBytes_toParams_threeFiles :
    threeFileDesc.Valid (fun s => some s) ∧
      ∃ info m, threeFileDesc.toParams.infoDict = some info ∧
        MetainfoFile.fromBytes (fun b => b) (fun s => some s)
          (Bencode.dict (threeFileDesc.toParams.rootDict info)).encode = .ok m ∧
        threeFileDesc.Reproduced (fun s => some s) m ∧ m.infoHash = (Bencode.dict info).encode :=
  have hv : threeFileDesc.Valid (fun s => some s) :=
    ⟨rfl, by decide, by decide, by decide, fun h => by cases h⟩
  ⟨hv, fromBytes_toParams (fun b => b) (fun s => some s) threeFileDesc hv⟩

/-- A single file named `..`.
Source: `metainfo.rs` lines 291-293 (a parameter record)
Kind: D -/
def dotDotDesc : TorrentDesc where
  announce := ⟨ascii "udp://x:8989", by decide⟩
  comment := none
  createdBy := none
  encoding := none
  creationDate := none
  pieceLength := ⟨1, by decide, by decide⟩
  pieces := []
  priv := none
  directory := none
  files := [⟨⟨0, by decide, by decide⟩, [⟨ascii "..", by decide⟩], none⟩]

/-- The single file named `..` is built, parsed and kept as `[".."]`.
Source: `metainfo.rs` lines 230-237
Kind: L -/
theorem fromBytes_singleFile_unchecked_dotDot :
    ∃ info m, dotDotDesc.toParams.infoDict = some info ∧
      MetainfoFile.fromBytes (fun b => b) (fun s => some s)
        (Bencode.dict (dotDotDesc.toParams.rootDict info)).encode = .ok m ∧
      m.info.files = [⟨⟨0, by decide, by decide⟩, [⟨ascii "..", by decide⟩], none⟩] :=
  fromBytes_singleFile_unchecked (fun b => b) (fun s => some s) dotDotDesc rfl rfl rfl rfl
    (by decide) (by decide) (by decide)

end RustBT
