import RustBT.Bencode.Complete

/-!
# The metainfo `parse` module

`metainfo.rs` reads every field through `bip_metainfo`'s `parse` module (`parse::parse_*`, the
`*_KEY` constants) and the error module (`ParseError`, `ParseErrorKind`); neither file is at
hand, so both are modelled from the spec (§4.6 pipeline, §6 keys, §7 error policy, §3 field
invariants). Strings are Rust `String`s: byte strings that are valid UTF-8 (`Str`).

The helpers form three families, one definition each, and every member is that definition at
its own key, field name and reader:

* `required` — a required field: missing or of the wrong type is `MissingData(field)`
  (`parseAnnounceUrl`, `parseInfoDict`, `parsePieceLength`, `parsePieces`, `parseName`,
  `parseFilesList`, `parseLength`);
* `optional` — an advisory field: missing or of the wrong type is `None` (`parseComment`,
  `parseEncoding`, `parseCreatedBy`, `parseCreationDate`, `parseMd5sum`);
* the path helpers `parsePathList` (an empty list is `CorruptData`) and `parsePathStr` (an
  unsafe component is `CorruptData`), which the other families do not share.

`required_error` states the family's error contract once: the only error of a required field
is `MissingData` naming that field. `MetainfoError` lists every error of the parser (spec §7),
and `required_metainfoError`, `parseRootDict_error`, `parseFileDict_error`,
`parsePathList_error` and `parsePathStr_error` place each helper's errors in it.
-/

namespace RustBT

/-! ## UTF-8 strings -/

/-- A byte `lo ≤ b ≤ hi`.
Source: none: infrastructure
Kind: D -/
def between (lo hi b : UInt8) : Bool := lo ≤ b && b ≤ hi

/-- `core::str::from_utf8`'s check: the well-formed UTF-8 byte sequences of the Unicode
standard (Table 3-7), which excludes overlong forms, surrogates and code points past U+10FFFF.
Source: spec §9 "Path components MUST be valid UTF-8"
Kind: D -/
def utf8Valid : List UInt8 → Bool
  | [] => true
  | b :: bs =>
    if b ≤ 0x7F then utf8Valid bs else
    match bs with
    | [] => false
    | c₁ :: bs =>
      if between 0xC2 0xDF b then between 0x80 0xBF c₁ && utf8Valid bs else
      match bs with
      | [] => false
      | c₂ :: bs =>
        if (b = 0xE0 && between 0xA0 0xBF c₁) ||
            ((between 0xE1 0xEC b || between 0xEE 0xEF b) && between 0x80 0xBF c₁) ||
            (b = 0xED && between 0x80 0x9F c₁) then
          between 0x80 0xBF c₂ && utf8Valid bs
        else
        match bs with
        | [] => false
        | c₃ :: bs =>
          ((b = 0xF0 && between 0x90 0xBF c₁) || (between 0xF1 0xF3 b && between 0x80 0xBF c₁) ||
              (b = 0xF4 && between 0x80 0x8F c₁)) &&
            between 0x80 0xBF c₂ && between 0x80 0xBF c₃ && utf8Valid bs

/-- A Rust `String` (or `&str`): bytes that are valid UTF-8.
Source: `metainfo.rs` `String` fields
Kind: D -/
structure Str where
  /-- The UTF-8 bytes. -/
  bytes : List UInt8
  /-- The bytes are well-formed UTF-8. -/
  valid : utf8Valid bytes = true
  deriving DecidableEq

/-- `str::from_utf8`: the bytes as a string, when they are valid UTF-8.
Source: spec §4.6 "as UTF-8 strings"
Kind: D -/
def fromUtf8 (b : List UInt8) : Option Str := if h : utf8Valid b then some ⟨b, h⟩ else none

/-- The bytes of a string are valid UTF-8 and convert back to it. Source: none: infrastructure.
Kind: L -/
@[simp] theorem fromUtf8_bytes (s : Str) : fromUtf8 s.bytes = some s := by
  simp [fromUtf8, s.valid]

/-- A converted string has the bytes it was converted from. Source: none: infrastructure. Kind: L -/
theorem bytes_of_fromUtf8 {b : List UInt8} {s : Str} (h : fromUtf8 b = some s) : s.bytes = b := by
  unfold fromUtf8 at h; split_ifs at h; cases h; rfl

/-- An ASCII literal as bytes.
Source: none: infrastructure
Kind: D -/
def ascii (s : String) : List UInt8 := s.toList.map fun c => c.toNat.toUInt8

/-! ## Errors -/

/-- Modelled from the spec: `ParseErrorKind`, the metainfo failures (spec §7: decode failures
become `CorruptData`, validation failures `MissingData`).
Source: spec §4.7, §7
Kind: D -/
inductive ParseErrorKind where
  | corruptData
  | missingData
  deriving DecidableEq, Repr

/-- Modelled from the spec: `ParseError::new(kind, msg)`.
Source: spec §4.7; `metainfo.rs` lines 88, 202
Kind: D -/
structure ParseError where
  /-- What went wrong. -/
  kind : ParseErrorKind
  /-- The message: the field concerned, or a description. -/
  msg : String
  deriving DecidableEq, Repr

/-- The fields whose absence the parser reports, each as `MissingData` naming it.
Source: spec §4.6; §7 "validation failures into `MissingData(field)`"
Kind: D -/
def requiredFields : List String :=
  ["root", "announce", "info", "piece length", "pieces", "name", "files", "length", "path"]

/-- The errors of the metainfo parser: a buffer that is not bencode, a required field that is
missing or of the wrong type, an empty or unsafe path, and a pieces string that is not whole
hashes.
Source: spec §4.7, §7; `metainfo.rs` lines 88 and 202
Kind: D -/
inductive MetainfoError : ParseError → Prop
  | notBencode : MetainfoError ⟨.corruptData, "Specified File Is Not Valid Bencode"⟩
  | missing {field : String} : field ∈ requiredFields → MetainfoError ⟨.missingData, field⟩
  | corruptPath : MetainfoError ⟨.corruptData, "path"⟩
  | piecesLength (n : Nat) :
      MetainfoError ⟨.missingData, "Piece Hash Length Of " ++ toString n ++ " Is Invalid"⟩

/-- `ParseResult<T>`.
Source: `metainfo.rs` line 13
Kind: D -/
abbrev ParseResult (α : Type) := Except ParseError α

/-! ## Reading decoded values -/

/-- A decoded dictionary, `Dictionary<'a, Bencode<'a>>`.
Source: `metainfo.rs` line 7
Kind: D -/
abbrev Dictionary := List (List UInt8 × Bencode)

namespace Bencode

/-- `Bencode::int()`.
Source: spec §4.5 "returning `None` when the variant does not match"
Kind: D -/
def int? : Bencode → Option I64
  | .int n => some n
  | _ => none

/-- `Bencode::bytes()`.
Source: spec §4.5
Kind: D -/
def bytes? : Bencode → Option (List UInt8)
  | .bytes b => some b
  | _ => none

/-- `Bencode::str()`: a byte string that is valid UTF-8.
Source: spec §4.5; §4.6 "as UTF-8"
Kind: D -/
def str? (t : Bencode) : Option Str := t.bytes?.bind fromUtf8

/-- `Bencode::list()`.
Source: spec §4.5
Kind: D -/
def list? : Bencode → Option (List Bencode)
  | .list xs => some xs
  | _ => none

/-- `Bencode::dict()`.
Source: spec §4.5
Kind: D -/
def dict? : Bencode → Option Dictionary
  | .dict es => some es
  | _ => none

/-- `int` reads an integer. Source: none: infrastructure. Kind: L -/
@[simp] theorem int?_int (n : I64) : (Bencode.int n).int? = some n := rfl
/-- `bytes` reads a byte string. Source: none: infrastructure. Kind: L -/
@[simp] theorem bytes?_bytes (b : List UInt8) : (Bencode.bytes b).bytes? = some b := rfl
/-- `str` reads the bytes of a string. Source: none: infrastructure. Kind: L -/
@[simp] theorem str?_bytes (s : Str) : (Bencode.bytes s.bytes).str? = some s := by simp [str?]
/-- `list` reads a list. Source: none: infrastructure. Kind: L -/
@[simp] theorem list?_list (xs : List Bencode) : (Bencode.list xs).list? = some xs := rfl
/-- `dict` reads a dictionary. Source: none: infrastructure. Kind: L -/
@[simp] theorem dict?_dict (es : Dictionary) : (Bencode.dict es).dict? = some es := rfl

/-- An optional integer reads back. Source: none: infrastructure. Kind: L -/
@[simp] theorem bind_int? (o : Option I64) : (o.map Bencode.int).bind Bencode.int? = o := by
  cases o <;> rfl
/-- An optional byte string reads back. Source: none: infrastructure. Kind: L -/
@[simp] theorem bind_bytes? (o : Option (List UInt8)) :
    (o.map Bencode.bytes).bind Bencode.bytes? = o := by
  cases o <;> rfl

/-- A value read as a dictionary is that dictionary. Source: none: infrastructure. Kind: L -/
theorem eq_of_dict? {t : Bencode} {d : Dictionary} (h : t.dict? = some d) : t = .dict d := by
  cases t <;> simp [dict?] at h; rw [h]

/-- A value read as an integer is that integer. Source: none: infrastructure. Kind: L -/
theorem eq_of_int? {t : Bencode} {n : I64} (h : t.int? = some n) : t = .int n := by
  cases t <;> simp [int?] at h; rw [h]

end Bencode

/-! ## The keys -/

/-- Modelled from the spec: `ANNOUNCE_URL_KEY`. Source: spec §6. Kind: D -/
def announceUrlKey : List UInt8 := ascii "announce"
/-- Modelled from the spec: `INFO_KEY`. Source: spec §6. Kind: D -/
def infoKey : List UInt8 := ascii "info"
/-- Modelled from the spec: `COMMENT_KEY`. Source: spec §6. Kind: D -/
def commentKey : List UInt8 := ascii "comment"
/-- Modelled from the spec: `CREATED_BY_KEY`. Source: spec §6. Kind: D -/
def createdByKey : List UInt8 := ascii "created by"
/-- Modelled from the spec: `CREATION_DATE_KEY`. Source: spec §6. Kind: D -/
def creationDateKey : List UInt8 := ascii "creation date"
/-- Modelled from the spec: `ENCODING_KEY`. Source: spec §6. Kind: D -/
def encodingKey : List UInt8 := ascii "encoding"
/-- Modelled from the spec: `PIECE_LENGTH_KEY`. Source: spec §6. Kind: D -/
def pieceLengthKey : List UInt8 := ascii "piece length"
/-- Modelled from the spec: `PIECES_KEY`. Source: spec §6. Kind: D -/
def piecesKey : List UInt8 := ascii "pieces"
/-- Modelled from the spec: `PRIVATE_KEY`. Source: spec §6. Kind: D -/
def privateKey : List UInt8 := ascii "private"
/-- Modelled from the spec: `NAME_KEY`. Source: spec §6. Kind: D -/
def nameKey : List UInt8 := ascii "name"
/-- Modelled from the spec: `FILES_KEY`. Source: spec §6. Kind: D -/
def filesKey : List UInt8 := ascii "files"
/-- Modelled from the spec: `LENGTH_KEY`. Source: spec §6. Kind: D -/
def lengthKey : List UInt8 := ascii "length"
/-- Modelled from the spec: `MD5SUM_KEY`. Source: spec §6. Kind: D -/
def md5sumKey : List UInt8 := ascii "md5sum"
/-- Modelled from the spec: `PATH_KEY`. Source: spec §6. Kind: D -/
def pathKey : List UInt8 := ascii "path"

/-! ## The three families -/

section Families

variable {α : Type}

/-- A required field: the value at `key`, read by `read`; a missing key or a value `read`
refuses is `MissingData(field)`.
Source: spec §4.6 step 3, §7 "required fields propagate failure"
Kind: D -/
def required (read : Bencode → Option α) (key : List UInt8) (field : String) (d : Dictionary) :
    ParseResult α :=
  match (d.lookup key).bind read with
  | some a => .ok a
  | none => .error ⟨.missingData, field⟩

/-- An advisory field: the value at `key` read by `read`, `None` when missing or refused.
Source: spec §7 "Optional fields ... are absorbed into `None`/defaults when absent or of the
wrong type"
Kind: D -/
def optional (read : Bencode → Option α) (key : List UInt8) (d : Dictionary) : Option α :=
  (d.lookup key).bind read

/-- A required field is read exactly when its key holds a value the reader accepts.
Source: none: infrastructure
Kind: L -/
theorem required_eq_ok {read : Bencode → Option α} {key : List UInt8} {field : String}
    {d : Dictionary} {a : α} :
    required read key field d = .ok a ↔ (d.lookup key).bind read = some a := by
  unfold required
  split <;> rename_i h <;> rw [h] <;> simp

/-- The only error of a required field is `MissingData` naming that field.
Source: spec §7 "validation failures into `MissingData(field)`"
Kind: L -/
theorem required_error {read : Bencode → Option α} {key : List UInt8} {field : String}
    {d : Dictionary} {e : ParseError} (h : required read key field d = .error e) :
    e = ⟨.missingData, field⟩ := by
  unfold required at h; split at h <;> simp_all

/-- A required field fails exactly when its key is missing or holds a value `read` refuses.
Source: spec §7 "required fields propagate failure"
Kind: L -/
theorem required_eq_error {read : Bencode → Option α} {key : List UInt8} {field : String}
    {d : Dictionary} :
    required read key field d = .error ⟨.missingData, field⟩ ↔ (d.lookup key).bind read = none := by
  unfold required
  split <;> rename_i h <;> rw [h] <;> simp

/-- The error of a required field is a metainfo error.
Source: spec §7
Kind: L -/
theorem required_metainfoError {read : Bencode → Option α} {key : List UInt8} {field : String}
    {d : Dictionary} {e : ParseError} (hf : field ∈ requiredFields)
    (h : required read key field d = .error e) : MetainfoError e :=
  required_error h ▸ .missing hf

end Families

/-! ## The members -/

variable {Url : Type}

/-- Modelled from the spec: `parse_root_dict`, the root must be a dictionary.
Source: spec §4.6 step 2
Kind: D -/
def parseRootDict (root : Bencode) : ParseResult Dictionary :=
  match root.dict? with
  | some d => .ok d
  | none => .error ⟨.missingData, "root"⟩

/-- Modelled from the spec: `parse_announce_url`, the `announce` bytes as a URL (`Url::parse`,
an external collaborator passed as `parseUrl`).
Source: spec §4.6 step 3 "fail ⇒ `MissingData("announce")`"
Kind: D -/
def parseAnnounceUrl (parseUrl : Str → Option Url) (d : Dictionary) : ParseResult Url :=
  required (fun t => t.str?.bind parseUrl) announceUrlKey "announce" d

/-- Modelled from the spec: `parse_comment`. Source: spec §4.6 step 3. Kind: D -/
def parseComment (d : Dictionary) : Option Str := optional Bencode.str? commentKey d
/-- Modelled from the spec: `parse_encoding`. Source: spec §4.6 step 3. Kind: D -/
def parseEncoding (d : Dictionary) : Option Str := optional Bencode.str? encodingKey d
/-- Modelled from the spec: `parse_created_by`. Source: spec §4.6 step 3. Kind: D -/
def parseCreatedBy (d : Dictionary) : Option Str := optional Bencode.str? createdByKey d
/-- Modelled from the spec: `parse_creation_date`. Source: spec §4.6 step 3. Kind: D -/
def parseCreationDate (d : Dictionary) : Option I64 := optional Bencode.int? creationDateKey d

/-- Modelled from the spec: `parse_info_dict`, the required `info` dictionary.
Source: spec §4.6 step 3 "Required sub-dictionary `info`"
Kind: D -/
def parseInfoDict (d : Dictionary) : ParseResult Dictionary :=
  required Bencode.dict? infoKey "info" d

/-- Modelled from the spec: `parse_info_hash`, the SHA-1 (passed as `sha1`) of the re-encoded
`info` dictionary.
Source: spec §4.6 step 4 "`info_hash = sha1(encode(info))`"
Kind: D -/
def parseInfoHash {InfoHash : Type} (sha1 : List UInt8 → InfoHash) (d : Dictionary) :
    ParseResult InfoHash :=
  required (fun t => t.dict?.map fun _ => sha1 t.encode) infoKey "info" d

/-- Modelled from the spec: `parse_piece_length`, a required positive `i64`. The sign filter is
the data model's (§3); the parse steps of §4.6 say only that the field is required.
Source: spec §3 "`piece_length`: positive `i64` (required)"; §4.6 step 5
Kind: D -/
def parsePieceLength (d : Dictionary) : ParseResult I64 :=
  required (fun t => t.int?.filter fun n => 0 < n.val) pieceLengthKey "piece length" d

/-- Modelled from the spec: `parse_private`, true exactly when `private` is the integer `1`.
Source: spec §3 "derived as `private == 1`"; §4.6 step 5
Kind: D -/
def parsePrivate (d : Dictionary) : Bool :=
  (optional Bencode.int? privateKey d).map I64.val == some 1

/-- Modelled from the spec: `parse_pieces`, the required `pieces` byte string.
Source: spec §4.6 step 5
Kind: D -/
def parsePieces (d : Dictionary) : ParseResult (List UInt8) :=
  required Bencode.bytes? piecesKey "pieces" d

/-- Modelled from the spec: `parse_name`, the required `name` as UTF-8.
Source: spec §4.6 step 5 "read `name` (required) as UTF-8"
Kind: D -/
def parseName (d : Dictionary) : ParseResult Str := required Bencode.str? nameKey "name" d

/-- Modelled from the spec: `parse_files_list`, the required `files` list.
Source: spec §4.6 step 5 "read `files` as a list of file dicts"
Kind: D -/
def parseFilesList (d : Dictionary) : ParseResult (List Bencode) :=
  required Bencode.list? filesKey "files" d

/-- Modelled from the spec: `parse_file_dict`, one element of `files` must be a dictionary.
Source: spec §4.6 step 5
Kind: D -/
def parseFileDict (t : Bencode) : ParseResult Dictionary :=
  match t.dict? with
  | some d => .ok d
  | none => .error ⟨.missingData, "files"⟩

/-- Modelled from the spec: `parse_length`, a required non-negative `i64`. The sign filter is
the data model's (§3); the parse steps of §4.6 say only to read the field.
Source: spec §3 "`length`: non-negative `i64` (required)"
Kind: D -/
def parseLength (d : Dictionary) : ParseResult I64 :=
  required (fun t => t.int?.filter fun n => 0 ≤ n.val) lengthKey "length" d

/-- Modelled from the spec: `parse_md5sum`, the optional opaque `md5sum` bytes.
Source: spec §3 "`md5sum`: optional byte string (opaque, not validated)"
Kind: D -/
def parseMd5sum (d : Dictionary) : Option (List UInt8) := optional Bencode.bytes? md5sumKey d

/-- Modelled from the spec: `parse_path_list`, the required `path` list, which must not be
empty.
Source: spec §4.6 "An empty `path` list is rejected"
Kind: D -/
def parsePathList (d : Dictionary) : ParseResult (List Bencode) :=
  match required Bencode.list? pathKey "path" d with
  | .ok [] => .error ⟨.corruptData, "path"⟩
  | r => r

/-- The platform path separator, `std::path::MAIN_SEPARATOR` (`/`).
Source: spec §4.6 "the platform path separator"
Kind: D -/
def mainSeparator : UInt8 := 47

/-- A path component that stays where it is put: not empty, not `.` or `..`, and without a path
separator.
Source: spec §3 "components MUST NOT be `.`, `..`, or contain path separators"; §4.6
Kind: D -/
def isSafeComponent (s : Str) : Bool :=
  s.bytes ≠ [] && s.bytes ≠ ascii "." && s.bytes ≠ ascii ".." && !s.bytes.contains mainSeparator

/-- Modelled from the spec: `parse_path_str`, one path component as UTF-8; an unsafe component
is `CorruptData`.
Source: spec §4.6 "Path validation ... MUST be rejected as `CorruptData`"
Kind: D -/
def parsePathStr (t : Bencode) : ParseResult Str :=
  match t.str? with
  | none => .error ⟨.missingData, "path"⟩
  | some s => if isSafeComponent s then .ok s else .error ⟨.corruptData, "path"⟩

/-- `parse_root_dict` succeeds exactly on a dictionary. Source: spec §4.6 step 2. Kind: L -/
theorem parseRootDict_eq_ok {t : Bencode} {d : Dictionary} :
    parseRootDict t = .ok d ↔ t = .dict d := by
  unfold parseRootDict
  cases t <;> simp [Bencode.dict?]

/-- `parse_info_dict` succeeds exactly when `info` is a dictionary. Source: spec §4.6 step 3.
Kind: L -/
theorem parseInfoDict_eq_ok {d I : Dictionary} :
    parseInfoDict d = .ok I ↔ d.lookup infoKey = some (.dict I) := by
  simp only [parseInfoDict, required_eq_ok, Option.bind_eq_some]
  constructor
  · rintro ⟨t, ht, hI⟩; rw [ht, Bencode.eq_of_dict? hI]
  · exact fun h => ⟨_, h, rfl⟩

/-- `parse_info_hash` succeeds exactly when `info` is a dictionary, with SHA-1 of its encoding.
Source: spec §4.6 step 4
Kind: L -/
theorem parseInfoHash_eq_ok {InfoHash : Type} {sha1 : List UInt8 → InfoHash} {d : Dictionary}
    {h : InfoHash} :
    parseInfoHash sha1 d = .ok h ↔
      ∃ I, d.lookup infoKey = some (.dict I) ∧ h = sha1 (Bencode.dict I).encode := by
  simp only [parseInfoHash, required_eq_ok, Option.bind_eq_some, Option.map_eq_some']
  constructor
  · rintro ⟨t, ht, I, hI, rfl⟩
    rw [Bencode.eq_of_dict? hI] at ht ⊢
    exact ⟨I, ht, rfl⟩
  · rintro ⟨I, hI, rfl⟩
    exact ⟨_, hI, I, rfl, rfl⟩

/-- `parse_piece_length` succeeds exactly on a positive integer.
Source: spec §3 "`piece_length`: positive `i64` (required)"
Kind: L -/
theorem parsePieceLength_eq_ok {d : Dictionary} {n : I64} :
    parsePieceLength d = .ok n ↔ d.lookup pieceLengthKey = some (.int n) ∧ 0 < n.val := by
  simp only [parsePieceLength, required_eq_ok, Option.bind_eq_some, Option.filter_eq_some,
    Option.mem_def, decide_eq_true_eq]
  constructor
  · rintro ⟨t, ht, hn, hpos⟩; exact ⟨by rw [ht, Bencode.eq_of_int? hn], hpos⟩
  · rintro ⟨ht, hpos⟩; exact ⟨_, ht, rfl, hpos⟩

/-- `parse_length` succeeds exactly on a non-negative integer.
Source: spec §3 "`length`: non-negative `i64` (required)"
Kind: L -/
theorem parseLength_eq_ok {d : Dictionary} {n : I64} :
    parseLength d = .ok n ↔ d.lookup lengthKey = some (.int n) ∧ 0 ≤ n.val := by
  simp only [parseLength, required_eq_ok, Option.bind_eq_some, Option.filter_eq_some,
    Option.mem_def, decide_eq_true_eq]
  constructor
  · rintro ⟨t, ht, hn, hpos⟩; exact ⟨by rw [ht, Bencode.eq_of_int? hn], hpos⟩
  · rintro ⟨ht, hpos⟩; exact ⟨_, ht, rfl, hpos⟩

/-- `parse_path_list` succeeds exactly on a non-empty list.
Source: spec §4.6 "An empty `path` list is rejected"
Kind: L -/
theorem parsePathList_eq_ok {d : Dictionary} {ps : List Bencode} :
    parsePathList d = .ok ps ↔ required Bencode.list? pathKey "path" d = .ok ps ∧ ps ≠ [] := by
  unfold parsePathList
  cases required Bencode.list? pathKey "path" d with
  | error e => simp
  | ok qs => cases qs <;> simp [eq_comm]; rintro rfl; simp

/-- A path list that parses is not empty.
Source: none: infrastructure
Kind: L -/
theorem parsePathList_ne_nil {d : Dictionary} {ps : List Bencode} (h : parsePathList d = .ok ps) :
    ps ≠ [] :=
  (parsePathList_eq_ok.mp h).2

/-- A component that parses is safe.
Source: none: infrastructure
Kind: L -/
theorem isSafeComponent_of_parsePathStr {t : Bencode} {s : Str} (h : parsePathStr t = .ok s) :
    isSafeComponent s = true := by
  unfold parsePathStr at h
  split at h
  · cases h
  · split_ifs at h with hs; cases h; exact hs

/-- The error of `parse_root_dict`. Source: spec §4.6 step 2, §7. Kind: L -/
theorem parseRootDict_error {t : Bencode} {e : ParseError} (h : parseRootDict t = .error e) :
    MetainfoError e := by
  unfold parseRootDict at h; split at h <;> cases h; exact .missing (by decide)

/-- The error of `parse_file_dict`. Source: spec §4.6. Kind: L -/
theorem parseFileDict_error {t : Bencode} {e : ParseError} (h : parseFileDict t = .error e) :
    MetainfoError e := by
  unfold parseFileDict at h; split at h <;> cases h; exact .missing (by decide)

/-- The errors of `parse_path_list`. Source: spec §4.6. Kind: L -/
theorem parsePathList_error {d : Dictionary} {e : ParseError} (h : parsePathList d = .error e) :
    MetainfoError e := by
  unfold parsePathList at h
  split at h
  · cases h; exact .corruptPath
  · exact required_metainfoError (by decide) h

/-- The errors of `parse_path_str`. Source: spec §4.6. Kind: L -/
theorem parsePathStr_error {t : Bencode} {e : ParseError} (h : parsePathStr t = .error e) :
    MetainfoError e := by
  unfold parsePathStr at h
  split at h
  · cases h; exact .missing (by decide)
  · split_ifs at h; cases h; exact .corruptPath

/-- A safe component written as a byte string parses back.
Source: spec §4.6 "each component is a non-empty UTF-8 string"
Kind: L -/
theorem parsePathStr_bytes {s : Str} (h : isSafeComponent s = true) :
    parsePathStr (.bytes s.bytes) = .ok s := by
  simp [parsePathStr, h]

end RustBT
