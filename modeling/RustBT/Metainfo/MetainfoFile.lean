import RustBT.Metainfo.Pieces

/-!
# `MetainfoFile`, `InfoDictionary` and `File`

The translation of `metainfo.rs`: the three records, their accessors, and the parsing
pipeline `MetainfoFile::from_bytes` → `parse_from_bytes` → `InfoDictionary::new` →
`parse_from_info_dictionary` → `File::as_single_file` / `File::as_multi_file`. URL parsing and
SHA-1 are the spec's external collaborators (§1) and enter as the parameters `parseUrl` and
`sha1`.

Each `for ... { let y = try!(...); v.push(y) }` loop of the source is `forPush`, whose one
lemma `forPush_eq_ok` says a run succeeds exactly when every element does, the results kept in
order. Each parsing function then gets one inversion lemma stating everything a successful
call implies, so that the properties in `Properties.lean` never unfold the pipeline:

* `File.asSingleFile_eq_ok`, `File.asMultiFile_eq_ok`;
* `parseFromInfoDictionary_eq_ok` — the fields, and the shape chosen by `isMultiFileTorrent`;
* `fromBytes_eq_ok` — the decoded root dictionary, its `info` dictionary, the info hash and the
  advisory fields.

The converses `parseFromInfoDictionary_of_multi`, `parseFromInfoDictionary_of_single` and
`fromBytes_of_decode` assemble a successful parse from its parts. On the error side,
`forPush_error` and one lemma per parser carry `MetainfoError` up to `fromBytes_error`: every
rejection is `CorruptData` or `MissingData` with one of the parser's own messages.
-/

namespace RustBT

/-! ## Records -/

/-- `File`: one file of the torrent.
Source: `metainfo.rs` lines 221-227
Kind: D -/
structure File where
  /-- `len: i64`. -/
  len : I64
  /-- `path: Vec<String>`; the last component is the file name. -/
  path : List Str
  /-- `md5sum: Option<Vec<u8>>`. -/
  md5sum : Option (List UInt8)
  deriving DecidableEq

/-- `File::length`.
Source: `metainfo.rs` lines 256-259
Kind: D -/
def File.length (f : File) : I64 := f.len

/-- `File::paths`: the path components, in order.
Source: `metainfo.rs` lines 268-273
Kind: D -/
def File.paths (f : File) : List Str := f.path

/-- `InfoDictionary`: the files and pieces of the torrent.
Source: `metainfo.rs` lines 108-117
Kind: D -/
structure InfoDictionary where
  /-- `files: Vec<File>`. -/
  files : List File
  /-- `pieces: Vec<[u8; SHA_HASH_LEN]>`. -/
  pieces : List ShaHash
  /-- `piece_len: i64`. -/
  pieceLen : I64
  /-- `is_private: bool`. -/
  isPrivate : Bool
  /-- `file_directory: Option<String>`, present only for multi-file torrents. -/
  fileDirectory : Option Str

/-- `InfoDictionary::directory`.
Source: `metainfo.rs` lines 125-132
Kind: D -/
def InfoDictionary.directory (d : InfoDictionary) : Option Str := d.fileDirectory

/-- `InfoDictionary::piece_length`.
Source: `metainfo.rs` lines 134-137
Kind: D -/
def InfoDictionary.pieceLength (d : InfoDictionary) : I64 := d.pieceLen

/-- `MetainfoFile`: the torrent, with the `Url` and `InfoHash` types of its collaborators.
Source: `metainfo.rs` lines 16-26
Kind: D -/
structure MetainfoFile (Url InfoHash : Type) where
  /-- `comment: Option<String>`. -/
  comment : Option Str
  /-- `announce: Url`. -/
  announce : Url
  /-- `encoding: Option<String>`. -/
  encoding : Option Str
  /-- `info_hash: InfoHash`. -/
  infoHash : InfoHash
  /-- `created_by: Option<String>`. -/
  createdBy : Option Str
  /-- `creation_date: Option<i64>`. -/
  creationDate : Option I64
  /-- `info_dictionary: InfoDictionary`. -/
  infoDictionary : InfoDictionary

/-- `MetainfoFile::info`.
Source: `metainfo.rs` lines 79-82
Kind: D -/
def MetainfoFile.info {Url InfoHash : Type} (m : MetainfoFile Url InfoHash) : InfoDictionary :=
  m.infoDictionary

/-! ## The push loop -/

section ForPush

variable {α β : Type}

/-- `for x in xs { let y = try!(f(x)); out.push(y); }`: the loop returns at the first error.
Source: `metainfo.rs` lines 176-181 and 247-251
Kind: D -/
def forPush (f : α → ParseResult β) : List α → List β → ParseResult (List β)
  | [], out => .ok out
  | x :: xs, out => do
    let y ← f x
    forPush f xs (out ++ [y])

/-- A push loop succeeds exactly when every element does; the results follow the elements in
order, one each.
Source: `metainfo.rs` lines 176-181 and 247-251
Kind: L -/
theorem forPush_eq_ok {f : α → ParseResult β} :
    ∀ {xs : List α} {out ys : List β},
      forPush f xs out = .ok ys ↔ ∃ zs, List.Forall₂ (fun x z => f x = .ok z) xs zs ∧ ys = out ++ zs
  | [], out, ys => by simp [forPush, eq_comm]
  | x :: xs, out, ys => by
    rw [forPush, bind_eq_ok]
    constructor
    · rintro ⟨y, hy, h⟩
      obtain ⟨zs, hzs, rfl⟩ := forPush_eq_ok.mp h
      exact ⟨y :: zs, .cons hy hzs, by simp⟩
    · rintro ⟨_, hxs, rfl⟩
      cases hxs with
      | cons hz hzs => exact ⟨_, hz, forPush_eq_ok.mpr ⟨_, hzs, by simp⟩⟩

/-- Every result of a successful push loop comes from one of the elements.
Source: none: infrastructure
Kind: L -/
theorem exists_of_forall₂_mem {R : α → β → Prop} :
    ∀ {xs : List α} {ys : List β}, List.Forall₂ R xs ys → ∀ y ∈ ys, ∃ x ∈ xs, R x y
  | _, _, .nil, _, hy => absurd hy (List.not_mem_nil _)
  | x :: _, _ :: _, .cons hxy hrest, y, hy => by
    rcases List.mem_cons.mp hy with rfl | hy
    · exact ⟨x, List.mem_cons_self _ _, hxy⟩
    · obtain ⟨x', hx', h⟩ := exists_of_forall₂_mem hrest y hy
      exact ⟨x', List.mem_cons_of_mem _ hx', h⟩

/-- Every error of a push loop is an error of its body.
Source: `metainfo.rs` lines 176-181 and 247-251
Kind: L -/
theorem forPush_error {f : α → ParseResult β} {P : ParseError → Prop}
    (hf : ∀ x e, f x = .error e → P e) :
    ∀ {xs : List α} {out : List β} {e : ParseError}, forPush f xs out = .error e → P e
  | [], _, _, h => by cases h
  | x :: _, _, _, h => bind_error h (hf x) fun _ _ h => forPush_error hf h

/-- A push loop fails exactly at its first failing element: the error is that element's, and
every element before it succeeds.
Source: `metainfo.rs` lines 176-181 and 247-251 (`try!` returns at the first error)
Kind: L -/
theorem forPush_eq_error {f : α → ParseResult β} :
    ∀ {xs : List α} {out : List β} {e : ParseError},
      forPush f xs out = .error e ↔
        ∃ pre x post, xs = pre ++ x :: post ∧ (∀ y ∈ pre, ∃ b, f y = .ok b) ∧ f x = .error e
  | [], _, _ => by simp [forPush]
  | x :: xs, out, e => by
    rw [forPush]
    cases hx : f x with
    | error e' =>
      simp only [error_bind, Except.error.injEq]
      constructor
      · rintro rfl; exact ⟨[], x, xs, rfl, by simp, hx⟩
      · rintro ⟨_ | ⟨y, pre⟩, x', post, hxs, hpre, hx'⟩
        · obtain ⟨rfl, -⟩ := List.cons.inj hxs; rw [hx] at hx'; exact Except.error.inj hx'
        · obtain ⟨rfl, -⟩ := List.cons.inj hxs; obtain ⟨b, hb⟩ := hpre _ (.head _)
          rw [hx] at hb; cases hb
    | ok b =>
      rw [ok_bind, forPush_eq_error]
      constructor
      · rintro ⟨pre, x', post, rfl, hpre, hx'⟩
        exact ⟨x :: pre, x', post, rfl, by simpa [hx] using hpre, hx'⟩
      · rintro ⟨_ | ⟨y, pre⟩, x', post, hxs, hpre, hx'⟩
        · obtain ⟨rfl, -⟩ := List.cons.inj hxs; rw [hx] at hx'; cases hx'
        · obtain ⟨rfl, rfl⟩ := List.cons.inj hxs
          exact ⟨pre, x', post, rfl, fun z hz => hpre z (.tail _ hz), hx'⟩

end ForPush

/-! ## Files -/

/-- `File::as_single_file`: the one file of a single-file torrent, named by `name`.
Source: `metainfo.rs` lines 230-237
Kind: D -/
def File.asSingleFile (infoDict : Dictionary) : ParseResult File := do
  let length ← parseLength infoDict
  let md5sum := parseMd5sum infoDict
  let name ← parseName infoDict
  pure ⟨length, [name], md5sum⟩

/-- `File::as_multi_file`: one entry of `files`, with its path components in order.
Source: `metainfo.rs` lines 239-254
Kind: D -/
def File.asMultiFile (fileDict : Dictionary) : ParseResult File := do
  let length ← parseLength fileDict
  let md5sum := parseMd5sum fileDict
  let pathListBencode ← parsePathList fileDict
  let pathList ← forPush parsePathStr pathListBencode []
  pure ⟨length, pathList, md5sum⟩

/-- A single file parses exactly when its length and name do. Source: `metainfo.rs` lines 230-237.
Kind: L -/
theorem File.asSingleFile_eq_ok {d : Dictionary} {f : File} :
    File.asSingleFile d = .ok f ↔
      ∃ len name, parseLength d = .ok len ∧ parseName d = .ok name ∧
        f = ⟨len, [name], parseMd5sum d⟩ := by
  simp only [File.asSingleFile, bind_eq_ok, pure_eq_ok, Except.ok.injEq]
  constructor
  · rintro ⟨len, hl, name, hn, rfl⟩; exact ⟨len, name, hl, hn, rfl⟩
  · rintro ⟨len, name, hl, hn, rfl⟩; exact ⟨len, hl, name, hn, rfl⟩

/-- A file entry parses exactly when its length, path list and every path component do, the
components kept in order.
Source: `metainfo.rs` lines 239-254
Kind: L -/
theorem File.asMultiFile_eq_ok {d : Dictionary} {f : File} :
    File.asMultiFile d = .ok f ↔
      ∃ len ps, parseLength d = .ok len ∧ parsePathList d = .ok ps ∧
        List.Forall₂ (fun p c => parsePathStr p = .ok c) ps f.path ∧ f.len = len ∧
          f.md5sum = parseMd5sum d := by
  simp only [File.asMultiFile, bind_eq_ok, forPush_eq_ok, List.nil_append, pure_eq_ok,
    Except.ok.injEq]
  constructor
  · rintro ⟨len, hl, ps, hp, _, ⟨cs, hcs, rfl⟩, rfl⟩; exact ⟨len, ps, hl, hp, hcs, rfl, rfl⟩
  · rintro ⟨len, ps, hl, hp, hcs, hlen, hmd5⟩
    exact ⟨len, hl, ps, hp, f.path, ⟨f.path, hcs, rfl⟩, by rw [← hlen, ← hmd5]⟩

/-! ## The info dictionary -/

/-- `is_multi_file_torrent`: a torrent is multi-file exactly when `parse_length` fails on its
info dictionary.
Source: `metainfo.rs` lines 193-196
Kind: D -/
def isMultiFileTorrent (infoDict : Dictionary) : Bool :=
  match parseLength infoDict with
  | .ok _ => false
  | .error _ => true

/-- A torrent is single-file exactly when its `length` is a non-negative integer.
Source: `metainfo.rs` lines 193-196
Kind: L -/
theorem isMultiFileTorrent_eq_false {d : Dictionary} :
    isMultiFileTorrent d = false ↔ ∃ n : I64, d.lookup lengthKey = some (.int n) ∧ 0 ≤ n.val := by
  unfold isMultiFileTorrent
  split <;> rename_i h
  · exact ⟨fun _ => ⟨_, parseLength_eq_ok.mp h⟩, fun _ => rfl⟩
  · simp only [Bool.true_eq_false, false_iff, not_exists, not_and]
    intro n hn hpos
    rw [parseLength_eq_ok.mpr ⟨hn, hpos⟩] at h; cases h

/-- The body of the `files` loop: one element as a file dictionary, then as a file.
Source: `metainfo.rs` lines 177-178
Kind: D -/
def parseMultiFile (fileBencode : Bencode) : ParseResult File := do
  let fileDict ← parseFileDict fileBencode
  File.asMultiFile fileDict

/-- `parse_from_info_dictionary`.
Source: `metainfo.rs` lines 163-191
Kind: D -/
def parseFromInfoDictionary (infoDict : Dictionary) : ParseResult InfoDictionary := do
  let pieceLen ← parsePieceLength infoDict
  let isPrivate := parsePrivate infoDict
  let pieces ← parsePieces infoDict
  let pieceBuffers ← allocatePieces pieces
  if isMultiFileTorrent infoDict then
    let fileDirectory ← parseName infoDict
    let filesBencode ← parseFilesList infoDict
    let filesList ← forPush parseMultiFile filesBencode []
    pure ⟨filesList, pieceBuffers, pieceLen, isPrivate, some fileDirectory⟩
  else
    let file ← File.asSingleFile infoDict
    pure ⟨[file], pieceBuffers, pieceLen, isPrivate, none⟩

/-- `InfoDictionary::new`.
Source: `metainfo.rs` lines 120-123
Kind: D -/
def InfoDictionary.new (infoDict : Dictionary) : ParseResult InfoDictionary :=
  parseFromInfoDictionary infoDict

/-- Everything a successful `parse_from_info_dictionary` implies: the common fields, and
either the multi-file shape (one file per element of `files`, in order) or the single-file
shape.
Source: `metainfo.rs` lines 163-191
Kind: L -/
theorem parseFromInfoDictionary_eq_ok {d : Dictionary} {info : InfoDictionary}
    (h : parseFromInfoDictionary d = .ok info) :
    parsePieceLength d = .ok info.pieceLen ∧ info.isPrivate = parsePrivate d ∧
      (∃ p, parsePieces d = .ok p ∧ allocatePieces p = .ok info.pieces) ∧
      (isMultiFileTorrent d = true →
        ∃ dir fs, parseName d = .ok dir ∧ info.fileDirectory = some dir ∧
          parseFilesList d = .ok fs ∧
          List.Forall₂ (fun fb f => parseMultiFile fb = .ok f) fs info.files) ∧
      (isMultiFileTorrent d = false →
        info.fileDirectory = none ∧ ∃ f, File.asSingleFile d = .ok f ∧ info.files = [f]) := by
  simp only [parseFromInfoDictionary, bind_eq_ok] at h
  obtain ⟨pieceLen, hlen, p, hp, bufs, hbufs, h⟩ := h
  split at h
  · rename_i hm
    simp only [bind_eq_ok, pure_eq_ok, Except.ok.injEq] at h
    obtain ⟨dir, hdir, fs, hfs, files, hfiles, rfl⟩ := h
    obtain ⟨zs, hzs, rfl⟩ := forPush_eq_ok.mp hfiles
    exact ⟨hlen, rfl, ⟨p, hp, hbufs⟩, fun _ => ⟨dir, fs, hdir, rfl, hfs, by simpa using hzs⟩,
      fun h' => absurd hm (by simp [h'])⟩
  · rename_i hm
    simp only [bind_eq_ok, pure_eq_ok, Except.ok.injEq] at h
    obtain ⟨f, hf, rfl⟩ := h
    exact ⟨hlen, rfl, ⟨p, hp, hbufs⟩, fun h' => absurd h' hm, fun _ => ⟨rfl, f, hf, rfl⟩⟩

/-- A multi-file dictionary whose fields and file entries all parse is accepted, with the files
in the order of `files`.
Source: `metainfo.rs` lines 163-191
Kind: L -/
theorem parseFromInfoDictionary_of_multi {d : Dictionary} {pieceLen : I64} {p : List UInt8}
    {bufs : List ShaHash} {dir : Str} {fs : List Bencode} {files : List File}
    (hlen : parsePieceLength d = .ok pieceLen) (hp : parsePieces d = .ok p)
    (hbufs : allocatePieces p = .ok bufs) (hm : isMultiFileTorrent d = true)
    (hdir : parseName d = .ok dir) (hfs : parseFilesList d = .ok fs)
    (hfiles : List.Forall₂ (fun fb f => parseMultiFile fb = .ok f) fs files) :
    parseFromInfoDictionary d = .ok ⟨files, bufs, pieceLen, parsePrivate d, some dir⟩ := by
  have hloop : forPush parseMultiFile fs [] = .ok files := forPush_eq_ok.mpr ⟨files, hfiles, rfl⟩
  simp only [parseFromInfoDictionary, hlen, hp, hbufs, hm, hdir, hfs, hloop, ok_bind,
    ↓reduceIte]
  rfl

/-- A single-file dictionary whose fields parse is accepted, with its one file.
Source: `metainfo.rs` lines 163-191
Kind: L -/
theorem parseFromInfoDictionary_of_single {d : Dictionary} {pieceLen : I64} {p : List UInt8}
    {bufs : List ShaHash} {f : File}
    (hlen : parsePieceLength d = .ok pieceLen) (hp : parsePieces d = .ok p)
    (hbufs : allocatePieces p = .ok bufs) (hm : isMultiFileTorrent d = false)
    (hf : File.asSingleFile d = .ok f) :
    parseFromInfoDictionary d = .ok ⟨[f], bufs, pieceLen, parsePrivate d, none⟩ := by
  simp only [parseFromInfoDictionary, hlen, hp, hbufs, hm, hf, ok_bind, Bool.false_eq_true,
    ↓reduceIte]
  rfl

/-! ## Errors -/

/-- The errors of a single file: its length or its name.
Source: `metainfo.rs` lines 230-237; spec §7
Kind: L -/
theorem File.asSingleFile_error {d : Dictionary} {e : ParseError}
    (h : File.asSingleFile d = .error e) : MetainfoError e :=
  bind_error h (fun _ h => required_metainfoError (by decide) h) fun _ _ h =>
    bind_error h (fun _ h => required_metainfoError (by decide) h) fun _ _ h => by cases h

/-- The errors of a file entry. Source: `metainfo.rs` lines 239-254. Kind: L -/
theorem File.asMultiFile_error {d : Dictionary} {e : ParseError}
    (h : File.asMultiFile d = .error e) : MetainfoError e :=
  bind_error h (fun _ h => required_metainfoError (by decide) h) fun _ _ h =>
    bind_error h (fun _ h => parsePathList_error h) fun _ _ h =>
      bind_error h (fun _ h => forPush_error (fun _ _ h => parsePathStr_error h) h) fun _ _ h => by
        cases h

/-- The errors of one element of `files`. Source: `metainfo.rs` lines 177-178. Kind: L -/
theorem parseMultiFile_error {fb : Bencode} {e : ParseError} (h : parseMultiFile fb = .error e) :
    MetainfoError e :=
  bind_error h (fun _ h => parseFileDict_error h) fun _ _ h => File.asMultiFile_error h

/-- The errors of `parse_from_info_dictionary`. Source: `metainfo.rs` lines 163-191. Kind: L -/
theorem parseFromInfoDictionary_error {d : Dictionary} {e : ParseError}
    (h : parseFromInfoDictionary d = .error e) : MetainfoError e := by
  unfold parseFromInfoDictionary at h
  refine bind_error h (fun _ h => required_metainfoError (by decide) h) fun _ _ h => ?_
  refine bind_error h (fun _ h => required_metainfoError (by decide) h) fun _ _ h => ?_
  refine bind_error h (fun _ h => allocatePieces_error h) fun _ _ h => ?_
  split at h
  · refine bind_error h (fun _ h => required_metainfoError (by decide) h) fun _ _ h => ?_
    refine bind_error h (fun _ h => required_metainfoError (by decide) h) fun _ _ h => ?_
    exact bind_error h (fun _ h => forPush_error (fun _ _ h => parseMultiFile_error h) h)
      fun _ _ h => by cases h
  · exact bind_error h (fun _ h => File.asSingleFile_error h) fun _ _ h => by cases h

/-! ## The metainfo file -/

section FromBytes

variable {Url InfoHash : Type} (sha1 : List UInt8 → InfoHash) (parseUrl : Str → Option Url)

/-- `parse_from_bytes`: decode with the default options, then read the root dictionary.
Source: `metainfo.rs` lines 85-104
Kind: D -/
def parseFromBytes (bytes : List UInt8) : ParseResult (MetainfoFile Url InfoHash) := do
  let rootBencode ← (decode bytes {}).mapError fun _ =>
    (⟨.corruptData, "Specified File Is Not Valid Bencode"⟩ : ParseError)
  let rootDict ← parseRootDict rootBencode
  let announce ← parseAnnounceUrl parseUrl rootDict
  let optComment := parseComment rootDict
  let optEncoding := parseEncoding rootDict
  let optCreatedBy := parseCreatedBy rootDict
  let optCreationDate := parseCreationDate rootDict
  let infoHash ← parseInfoHash sha1 rootDict
  let infoDict ← parseInfoDict rootDict
  let infoDictionary ← InfoDictionary.new infoDict
  pure ⟨optComment, announce, optEncoding, infoHash, optCreatedBy, optCreationDate,
    infoDictionary⟩

/-- `MetainfoFile::from_bytes`.
Source: `metainfo.rs` lines 29-35
Kind: D -/
def MetainfoFile.fromBytes (bytes : List UInt8) : ParseResult (MetainfoFile Url InfoHash) :=
  parseFromBytes sha1 parseUrl bytes

/-- Everything a successful `from_bytes` implies: the buffer decodes to a root dictionary whose
`info` entry is a dictionary; the info hash is SHA-1 of that dictionary re-encoded; the fields
are read from the root and `info` dictionaries.
Source: `metainfo.rs` lines 85-104
Kind: L -/
theorem fromBytes_eq_ok {bytes : List UInt8} {m : MetainfoFile Url InfoHash}
    (h : MetainfoFile.fromBytes sha1 parseUrl bytes = .ok m) :
    ∃ rootDict infoDict, decode bytes {} = .ok (.dict rootDict) ∧
      rootDict.lookup infoKey = some (.dict infoDict) ∧
      m.infoHash = sha1 (Bencode.dict infoDict).encode ∧
      parseFromInfoDictionary infoDict = .ok m.info ∧
      parseAnnounceUrl parseUrl rootDict = .ok m.announce ∧
      m.comment = parseComment rootDict ∧ m.encoding = parseEncoding rootDict ∧
      m.createdBy = parseCreatedBy rootDict ∧ m.creationDate = parseCreationDate rootDict := by
  simp only [MetainfoFile.fromBytes, parseFromBytes, bind_eq_ok, pure_eq_ok, Except.ok.injEq,
    mapError_eq_ok, parseRootDict_eq_ok, parseInfoHash_eq_ok, parseInfoDict_eq_ok] at h
  obtain ⟨_, hdec, rootDict, rfl, announce, hann, _, ⟨I, hI, rfl⟩, infoDict, hid, info, hinfo,
    rfl⟩ := h
  rw [hI, Option.some.injEq, Bencode.dict.injEq] at hid
  subst hid
  exact ⟨rootDict, I, hdec, hI, rfl, hinfo, hann, rfl, rfl, rfl, rfl⟩

/-- The converse of `fromBytes_eq_ok`: a buffer that decodes to a root dictionary with a
parseable announce URL and `info` dictionary is accepted, the advisory fields read from the
root.
Source: `metainfo.rs` lines 85-104
Kind: L -/
theorem fromBytes_of_decode {bytes : List UInt8} {rootDict infoDict : Dictionary} {url : Url}
    {info : InfoDictionary} (hdec : decode bytes {} = .ok (.dict rootDict))
    (hinfo : rootDict.lookup infoKey = some (.dict infoDict))
    (hann : parseAnnounceUrl parseUrl rootDict = .ok url)
    (hI : parseFromInfoDictionary infoDict = .ok info) :
    MetainfoFile.fromBytes sha1 parseUrl bytes = .ok ⟨parseComment rootDict, url,
      parseEncoding rootDict, sha1 (Bencode.dict infoDict).encode, parseCreatedBy rootDict,
      parseCreationDate rootDict, info⟩ := by
  have hih : parseInfoHash sha1 rootDict = .ok (sha1 (Bencode.dict infoDict).encode) :=
    required_eq_ok.mpr (by simp [hinfo])
  have hid : parseInfoDict rootDict = .ok infoDict := required_eq_ok.mpr (by simp [hinfo])
  simp only [MetainfoFile.fromBytes, parseFromBytes, hdec, Except.mapError, parseRootDict,
    Bencode.dict?_dict, ok_bind, hann, hih, hid, InfoDictionary.new, hI]
  rfl

/-- **Every rejection is a metainfo error.** `from_bytes` fails only with `CorruptData` for a
buffer that is not bencode or a path that is empty or unsafe, `MissingData` naming a required
field, or the pieces-length message: it never passes a decoder failure or its offset through.
Source: `metainfo.rs` lines 85-104; spec §7 "maps underlying decode failures into
`CorruptData(context)` and validation failures into `MissingData(field)`"
Kind: L -/
theorem fromBytes_error {bytes : List UInt8} {e : ParseError}
    (h : (MetainfoFile.fromBytes sha1 parseUrl bytes : ParseResult (MetainfoFile Url InfoHash)) =
      .error e) : MetainfoError e := by
  unfold MetainfoFile.fromBytes parseFromBytes at h
  refine bind_error h (fun e h => ?_) fun _ _ h => ?_
  · cases hd : decode bytes {} <;> simp only [hd, Except.mapError, reduceCtorEq,
      Except.error.injEq] at h
    exact h ▸ .notBencode
  refine bind_error h (fun _ h => parseRootDict_error h) fun _ _ h => ?_
  refine bind_error h (fun _ h => required_metainfoError (by decide) h) fun _ _ h => ?_
  refine bind_error h (fun _ h => required_metainfoError (by decide) h) fun _ _ h => ?_
  refine bind_error h (fun _ h => required_metainfoError (by decide) h) fun _ _ h => ?_
  exact bind_error h (fun _ h => parseFromInfoDictionary_error h) fun _ _ h => by cases h

end FromBytes

/-- `negative_parse_from_empty_bytes`: the empty buffer is not bencode. -/
example : (MetainfoFile.fromBytes (fun b => b) (fun s => some s) [] :
    ParseResult (MetainfoFile Str (List UInt8))) =
      .error ⟨.corruptData, "Specified File Is Not Valid Bencode"⟩ := rfl

/-- Scenarios S9 and S10 of the spec: a torrent without `announce`, and one whose pieces string
has 21 bytes. -/
example : (MetainfoFile.fromBytes (fun b => b) (fun s => some s)
    (ascii "d4:infod6:lengthi0e4:name1:f12:piece lengthi1e6:pieces0:ee") :
      ParseResult (MetainfoFile Str (List UInt8))) = .error ⟨.missingData, "announce"⟩ := rfl

example : (MetainfoFile.fromBytes (fun b => b) (fun s => some s)
    (ascii "d8:announce12:udp://x:89894:infod6:lengthi0e4:name1:f12:piece lengthi1e6:" ++
      ascii "pieces21:" ++ List.replicate 21 0 ++ ascii "ee") :
      ParseResult (MetainfoFile Str (List UInt8))) =
    .error ⟨.missingData, "Piece Hash Length Of 21 Is Invalid"⟩ := rfl

end RustBT
