import RustBT.Metainfo.Params

/-!
# What `from_bytes` rejects, and with which error

`parse_from_bytes` and `parse_from_info_dictionary` read the fields in a fixed order and every
`try!` returns at the first failure, so an error names the first field, in that order, that is
missing or malformed.

* `parseFromInfoDictionary_files_error` — a multi-file dictionary whose common fields parse
  fails exactly at its first bad `files` entry: the error is that entry's, and every entry
  before it parses.
* `fromBytes_rootDict` — on a buffer built by `validate_parse_from_params`, `from_bytes` is the
  announce URL, then the `info` dictionary: the one equation the rejections below start from.
* The `#[should_panic]` tests of `metainfo.rs`, for every parameter record and not only the
  tests' own: without a tracker the error is `MissingData("announce")` whatever the `info`
  dictionary holds (`fromBytes_rootDict_noTracker`); without a positive piece length it is
  `"piece length"` (`fromBytes_rootDict_badPieceLength`); without pieces, `"pieces"`
  (`fromBytes_rootDict_noPieces`); a single file without a length is read as a multi-file
  torrent and fails on the missing `"files"` (`fromBytes_rootDict_singleNoLength`); a single
  file without a name fails on `"name"`, whatever its length (`fromBytes_rootDict_singleNoName`).
-/

namespace RustBT

/-! ## The files loop -/

/-- **The files loop stops at the first bad entry.** When the piece length, the pieces, their
allocation, the directory name and the `files` list of a multi-file dictionary all parse,
`parse_from_info_dictionary` fails with `e` exactly when some entry of `files` fails with `e`
and every entry before it parses.
Source: `metainfo.rs` lines 163-191
Kind: P -/
theorem parseFromInfoDictionary_files_error {d : Dictionary} {pieceLen : I64} {p : List UInt8}
    {bufs : List ShaHash} {dir : Str} {fs : List Bencode} {e : ParseError}
    (hlen : parsePieceLength d = .ok pieceLen) (hp : parsePieces d = .ok p)
    (hbufs : allocatePieces p = .ok bufs) (hm : isMultiFileTorrent d = true)
    (hdir : parseName d = .ok dir) (hfs : parseFilesList d = .ok fs) :
    parseFromInfoDictionary d = .error e ↔
      ∃ pre fb post, fs = pre ++ fb :: post ∧ (∀ x ∈ pre, ∃ f, parseMultiFile x = .ok f) ∧
        parseMultiFile fb = .error e := by
  rw [← forPush_eq_error]
  simp only [parseFromInfoDictionary, hlen, hp, hbufs, hm, hdir, hfs, ok_bind, ↓reduceIte]
  cases forPush parseMultiFile fs [] <;> simp

/-- An `info` dictionary under the directory `d` whose second file is named `..`.
Source: `metainfo.rs` lines 163-191 (an input)
Kind: D -/
def dotDotSecondInfo : Dictionary :=
  [(filesKey, .list
      [.dict [(lengthKey, .int ⟨1, by decide, by decide⟩), (pathKey, .list [.bytes (ascii "a")])],
       .dict [(lengthKey, .int ⟨2, by decide, by decide⟩), (pathKey, .list [.bytes (ascii "..")])],
       .dict [(pathKey, .list [.bytes (ascii "c")])]]),
   (nameKey, .bytes (ascii "d")), (pieceLengthKey, .int ⟨1, by decide, by decide⟩),
   (piecesKey, .bytes [])]

/-- The dictionary fails on its second file, the first one parsing; the third, which has no
length, is never read.
Source: `metainfo.rs` lines 163-191
Kind: L -/
theorem parseFromInfoDictionary_files_error_dotDot :
    ∃ fs, parseFilesList dotDotSecondInfo = .ok fs ∧
      ∃ pre fb post, fs = pre ++ fb :: post ∧ (∀ x ∈ pre, ∃ f, parseMultiFile x = .ok f) ∧
        parseMultiFile fb = .error ⟨.corruptData, "path"⟩ :=
  have hfs : parseFilesList dotDotSecondInfo = .ok _ := rfl
  ⟨_, hfs, (@parseFromInfoDictionary_files_error dotDotSecondInfo _ _ _ _ _ _ rfl rfl rfl rfl rfl
    hfs).mp rfl⟩

/-! ## The helper's buffers -/

section Rejections

variable {Url InfoHash : Type} (sha1 : List UInt8 → InfoHash) (parseUrl : Str → Option Url)

/-- The tracker of the tests, `udp://dummy_domain.com:8989`.
Source: `metainfo.rs` lines 567, 582, 595, 608
Kind: D -/
def dummyTracker : Str := ⟨ascii "udp://dummy_domain.com:8989", by decide⟩

/-- The one file of the tests, `(Some(0), None, Some(vec!["dummy_file_name"]))`.
Source: `metainfo.rs` lines 557-561
Kind: D -/
def dummyFile : FileParam := (some ⟨0, by decide, by decide⟩, none,
  some [⟨ascii "dummy_file_name", by decide⟩])

/-- The tests' piece length, 1024.
Source: `metainfo.rs` line 554
Kind: D -/
def dummyPieceLength : I64 := ⟨1024, by decide, by decide⟩

/-- The announce entry of a built root reads as the tracker parameter through `parseUrl`.
Source: `metainfo.rs` line 296
Kind: L -/
theorem bind_announce_rootDict (p : Params) (info : Dictionary) :
    ((p.rootDict info).lookup announceUrlKey).bind (fun t => t.str?.bind parseUrl) =
      p.tracker.bind parseUrl := by
  rw [(rootDict_fields p info).2.1, ← Option.bind_assoc, bind_benBytes]

/-- On a buffer the helper built, `from_bytes` reads the announce URL, then the `info`
dictionary; the root's other fields cannot fail.
Source: `metainfo.rs` lines 85-104 and 291-347
Kind: L -/
theorem fromBytes_rootDict {p : Params} {info : Dictionary} (h : p.infoDict = some info) :
    MetainfoFile.fromBytes sha1 parseUrl (Bencode.dict (p.rootDict info)).encode =
      (parseAnnounceUrl parseUrl (p.rootDict info) >>= fun url =>
        parseFromInfoDictionary info >>= fun i =>
          pure (⟨parseComment (p.rootDict info), url, parseEncoding (p.rootDict info),
            sha1 (Bencode.dict info).encode, parseCreatedBy (p.rootDict info),
            parseCreationDate (p.rootDict info), i⟩ : MetainfoFile Url InfoHash)) := by
  have hinfo := (rootDict_fields p info).1
  have hih : parseInfoHash sha1 (p.rootDict info) = .ok (sha1 (Bencode.dict info).encode) :=
    required_eq_ok.mpr (by simp [hinfo])
  have hid : parseInfoDict (p.rootDict info) = .ok info := required_eq_ok.mpr (by simp [hinfo])
  simp only [MetainfoFile.fromBytes, parseFromBytes, decode_rootDict h, Except.mapError,
    parseRootDict, Bencode.dict?_dict, ok_bind, hih, hid, InfoDictionary.new]

/-- With a parseable tracker, a built buffer fails exactly as its `info` dictionary does.
Source: `metainfo.rs` lines 85-104
Kind: L -/
theorem fromBytes_rootDict_of_info_error {p : Params} {info : Dictionary} {e : ParseError}
    (h : p.infoDict = some info) (ht : (p.tracker.bind parseUrl).isSome)
    (hI : parseFromInfoDictionary info = .error e) :
    MetainfoFile.fromBytes sha1 parseUrl (Bencode.dict (p.rootDict info)).encode = .error e := by
  obtain ⟨url, hurl⟩ := Option.isSome_iff_exists.mp ht
  have ha : parseAnnounceUrl parseUrl (p.rootDict info) = .ok url :=
    required_eq_ok.mpr ((bind_announce_rootDict parseUrl p info).trans hurl)
  rw [fromBytes_rootDict sha1 parseUrl h, ha, ok_bind, hI]
  rfl

/-- The piece length and pieces of a built `info` dictionary are the parameters.
Source: `metainfo.rs` lines 302-306
Kind: L -/
theorem lookup_infoDict_pieces {p : Params} {info : Dictionary} (h : p.infoDict = some info) :
    info.lookup pieceLengthKey = p.pieceLength.map .int ∧ info.lookup piecesKey = p.pieces.map .bytes := by
  rw [lookup_infoDict_base h (.inl rfl), lookup_infoDict_base h (.inr (.inl rfl))]
  simp +decide [Params.baseInfo, lookup_insertOpt]

/-- **No tracker: `"announce"`.** For every parameter record without a tracker, or with one
`parseUrl` refuses, the buffer the helper builds is rejected with `MissingData("announce")`,
whatever its `info` dictionary holds: the announce URL is read before anything else.
Source: `metainfo.rs` lines 85-104 and 551-562 (`negative_parse_with_no_tracker`)
Kind: P -/
theorem fromBytes_rootDict_noTracker {p : Params} {info : Dictionary} (h : p.infoDict = some info)
    (ht : p.tracker.bind parseUrl = none) :
    MetainfoFile.fromBytes sha1 parseUrl (Bencode.dict (p.rootDict info)).encode =
      .error ⟨.missingData, "announce"⟩ := by
  have ha : parseAnnounceUrl parseUrl (p.rootDict info) = .error ⟨.missingData, "announce"⟩ :=
    required_eq_error.mpr ((bind_announce_rootDict parseUrl p info).trans ht)
  rw [fromBytes_rootDict sha1 parseUrl h, ha]
  rfl

/-- The record of `negative_parse_with_no_tracker`.
Source: `metainfo.rs` lines 551-562
Kind: D -/
def noTrackerRecord : Params :=
  ⟨none, none, none, none, none, some dummyPieceLength, some (List.replicate 20 0), none, none,
    some [dummyFile]⟩

/-- `negative_parse_with_no_tracker` fails with `MissingData("announce")`.
Source: `metainfo.rs` lines 551-562
Kind: L -/
theorem negativeParseWithNoTracker : ∃ info, noTrackerRecord.infoDict = some info ∧
    (MetainfoFile.fromBytes (fun b => b) (fun s => some s)
      (Bencode.dict (noTrackerRecord.rootDict info)).encode :
        ParseResult (MetainfoFile Str (List UInt8))) = .error ⟨.missingData, "announce"⟩ :=
  have h : noTrackerRecord.infoDict = some _ := rfl
  ⟨_, h, fromBytes_rootDict_noTracker (fun b => b) (fun s => some s) h rfl⟩

/-- **No positive piece length: `"piece length"`.** For every parameter record with a tracker
`parseUrl` accepts and a piece length that is missing or not positive, the helper's buffer is
rejected with `MissingData("piece length")`, whatever the pieces and files.
Source: `metainfo.rs` lines 163-191 and 564-577 (`negative_parse_with_no_piece_length`)
Kind: P -/
theorem fromBytes_rootDict_badPieceLength {p : Params} {info : Dictionary}
    (h : p.infoDict = some info) (ht : (p.tracker.bind parseUrl).isSome)
    (hpl : ∀ n ∈ p.pieceLength, n.val ≤ 0) :
    MetainfoFile.fromBytes sha1 parseUrl (Bencode.dict (p.rootDict info)).encode =
      .error ⟨.missingData, "piece length"⟩ := by
  refine fromBytes_rootDict_of_info_error sha1 parseUrl h ht ?_
  have hl : parsePieceLength info = .error ⟨.missingData, "piece length"⟩ := by
    refine required_eq_error.mpr ?_
    rw [(lookup_infoDict_pieces h).1]
    cases hn : p.pieceLength with
    | none => rfl
    | some n => simpa using hpl n hn
  simp only [parseFromInfoDictionary, hl, error_bind]

/-- The record of `negative_parse_with_no_piece_length`.
Source: `metainfo.rs` lines 564-577
Kind: D -/
def noPieceLengthRecord : Params :=
  ⟨some dummyTracker, none, none, none, none, none, some (List.replicate 20 0),
    some ⟨-1, by decide, by decide⟩, none, some [dummyFile]⟩

/-- `negative_parse_with_no_piece_length` fails with `MissingData("piece length")`.
Source: `metainfo.rs` lines 564-577
Kind: L -/
theorem negativeParseWithNoPieceLength : ∃ info, noPieceLengthRecord.infoDict = some info ∧
    (MetainfoFile.fromBytes (fun b => b) (fun s => some s)
      (Bencode.dict (noPieceLengthRecord.rootDict info)).encode :
        ParseResult (MetainfoFile Str (List UInt8))) = .error ⟨.missingData, "piece length"⟩ :=
  have h : noPieceLengthRecord.infoDict = some _ := rfl
  ⟨_, h, fromBytes_rootDict_badPieceLength (fun b => b) (fun s => some s) h rfl
    fun _ hn => by cases hn⟩

/-- The common fields of a built `info` dictionary parse when the piece length is positive and
the pieces are whole hashes.
Source: `metainfo.rs` lines 163-169
Kind: L -/
theorem parse_infoDict_common {p : Params} {info : Dictionary} (h : p.infoDict = some info)
    {n : I64} (hn : p.pieceLength = some n) (hpos : 0 < n.val) {b : List UInt8}
    (hb : p.pieces = some b) (hwhole : b.length % shaHashLen = 0) :
    parsePieceLength info = .ok n ∧ parsePieces info = .ok b ∧
      ∃ bufs, allocatePieces b = .ok bufs := by
  obtain ⟨hl, hp⟩ := lookup_infoDict_pieces h
  obtain ⟨bufs, hbufs, -⟩ := allocatePieces_ok_split hwhole
  exact ⟨parsePieceLength_eq_ok.mpr ⟨by simp [hl, hn], hpos⟩,
    required_eq_ok.mpr (by simp [hp, hb]), bufs, hbufs⟩

/-- **No pieces: `"pieces"`.** For every parameter record with a tracker `parseUrl` accepts, a
positive piece length and no pieces, the helper's buffer is rejected with
`MissingData("pieces")`, whatever the files.
Source: `metainfo.rs` lines 163-191 and 579-590 (`negative_parse_with_no_pieces`)
Kind: P -/
theorem fromBytes_rootDict_noPieces {p : Params} {info : Dictionary} (h : p.infoDict = some info)
    (ht : (p.tracker.bind parseUrl).isSome) {n : I64} (hn : p.pieceLength = some n)
    (hpos : 0 < n.val) (hp : p.pieces = none) :
    MetainfoFile.fromBytes sha1 parseUrl (Bencode.dict (p.rootDict info)).encode =
      .error ⟨.missingData, "pieces"⟩ := by
  refine fromBytes_rootDict_of_info_error sha1 parseUrl h ht ?_
  obtain ⟨hl, hpc⟩ := lookup_infoDict_pieces h
  have hlen : parsePieceLength info = .ok n := parsePieceLength_eq_ok.mpr ⟨by simp [hl, hn], hpos⟩
  have hpieces : parsePieces info = .error ⟨.missingData, "pieces"⟩ :=
    required_eq_error.mpr (by simp [hpc, hp])
  simp only [parseFromInfoDictionary, hlen, hpieces, ok_bind, error_bind]

/-- The record of `negative_parse_with_no_pieces`.
Source: `metainfo.rs` lines 579-590
Kind: D -/
def noPiecesRecord : Params :=
  ⟨some dummyTracker, none, none, none, none, some dummyPieceLength, none, none, none,
    some [dummyFile]⟩

/-- `negative_parse_with_no_pieces` fails with `MissingData("pieces")`.
Source: `metainfo.rs` lines 579-590
Kind: L -/
theorem negativeParseWithNoPieces : ∃ info, noPiecesRecord.infoDict = some info ∧
    (MetainfoFile.fromBytes (fun b => b) (fun s => some s)
      (Bencode.dict (noPiecesRecord.rootDict info)).encode :
        ParseResult (MetainfoFile Str (List UInt8))) = .error ⟨.missingData, "pieces"⟩ :=
  have h : noPiecesRecord.infoDict = some _ := rfl
  ⟨_, h, fromBytes_rootDict_noPieces (fun b => b) (fun s => some s) h rfl rfl (by decide) rfl⟩

/-- **A single file without a length: `"files"`.** For every parameter record with a tracker
`parseUrl` accepts, a positive piece length, whole pieces and no directory, whose first file
has a name but no non-negative length, the helper's buffer is rejected with
`MissingData("files")`: without a length the `info` dictionary is read as a multi-file one,
its name as the directory, and it has no `files` list.
Source: `metainfo.rs` lines 163-196, 330-341 and 592-603
(`negative_parse_from_single_file_with_no_file_length`)
Kind: P -/
theorem fromBytes_rootDict_singleNoLength {p : Params} {info : Dictionary}
    (h : p.infoDict = some info) (ht : (p.tracker.bind parseUrl).isSome) {n : I64}
    (hn : p.pieceLength = some n) (hpos : 0 < n.val) {b : List UInt8} (hb : p.pieces = some b)
    (hwhole : b.length % shaHashLen = 0) (hdir : p.directory = none) {optLen : Option I64}
    {md5 : Option (List UInt8)} {name : Str} {rest : List Str} {more : List FileParam}
    (hfs : p.files = some ((optLen, md5, some (name :: rest)) :: more))
    (hlen : ∀ m ∈ optLen, m.val < 0) :
    MetainfoFile.fromBytes sha1 parseUrl (Bencode.dict (p.rootDict info)).encode =
      .error ⟨.missingData, "files"⟩ := by
  refine fromBytes_rootDict_of_info_error sha1 parseUrl h ht ?_
  obtain ⟨hl, hp, bufs, hbufs⟩ := parse_infoDict_common h hn hpos hb hwhole
  simp only [Params.infoDict, hdir, hfs, insertName, Option.map_some', Option.some.injEq] at h
  have hm : isMultiFileTorrent info = true := by
    have hl : parseLength info = .error ⟨.missingData, "length"⟩ := by
      refine required_eq_error.mpr ?_
      cases hm : optLen with
      | none => simp +decide [← h, lookup_insertOpt, lookup_dictInsert, hm, Params.baseInfo]
      | some m => simpa +decide [← h, lookup_insertOpt, hm] using hlen m hm
    simp [isMultiFileTorrent, hl]
  have hname : parseName info = .ok name :=
    required_eq_ok.mpr (by simp +decide [← h, lookup_insertOpt, lookup_dictInsert, benBytes])
  have hfiles : parseFilesList info = .error ⟨.missingData, "files"⟩ :=
    required_eq_error.mpr (by simp +decide [← h, lookup_insertOpt, lookup_dictInsert,
      Params.baseInfo])
  simp only [parseFromInfoDictionary, hl, hp, hbufs, hm, hname, hfiles, ok_bind, error_bind,
    ↓reduceIte]

/-- The record of `negative_parse_from_single_file_with_no_file_length`.
Source: `metainfo.rs` lines 592-603
Kind: D -/
def singleNoLengthRecord : Params :=
  ⟨some dummyTracker, none, none, none, none, some dummyPieceLength, some (List.replicate 20 0),
    none, none, some [(none, none, some [⟨ascii "dummy_file_name", by decide⟩])]⟩

/-- `negative_parse_from_single_file_with_no_file_length` fails with `MissingData("files")`.
Source: `metainfo.rs` lines 592-603
Kind: L -/
theorem negativeParseFromSingleFileWithNoFileLength :
    ∃ info, singleNoLengthRecord.infoDict = some info ∧
      (MetainfoFile.fromBytes (fun b => b) (fun s => some s)
        (Bencode.dict (singleNoLengthRecord.rootDict info)).encode :
          ParseResult (MetainfoFile Str (List UInt8))) = .error ⟨.missingData, "files"⟩ :=
  have h : singleNoLengthRecord.infoDict = some _ := rfl
  ⟨_, h, fromBytes_rootDict_singleNoLength (fun b => b) (fun s => some s) h rfl rfl (by decide)
    rfl (by decide) rfl rfl fun _ hm => by cases hm⟩

/-- **A single file without a name: `"name"`.** For every parameter record with a tracker
`parseUrl` accepts, a positive piece length, whole pieces and no directory, whose first file
has no path, the helper's buffer is rejected with `MissingData("name")`, whatever the file's
length: with one it is a single file without a name, without one a multi-file torrent
without a directory name.
Source: `metainfo.rs` lines 163-196, 230-237, 330-341 and 605-616
(`negative_parse_from_single_file_with_no_file_name`)
Kind: P -/
theorem fromBytes_rootDict_singleNoName {p : Params} {info : Dictionary}
    (h : p.infoDict = some info) (ht : (p.tracker.bind parseUrl).isSome) {n : I64}
    (hn : p.pieceLength = some n) (hpos : 0 < n.val) {b : List UInt8} (hb : p.pieces = some b)
    (hwhole : b.length % shaHashLen = 0) (hdir : p.directory = none) {optLen : Option I64}
    {md5 : Option (List UInt8)} {more : List FileParam}
    (hfs : p.files = some ((optLen, md5, none) :: more)) :
    MetainfoFile.fromBytes sha1 parseUrl (Bencode.dict (p.rootDict info)).encode =
      .error ⟨.missingData, "name"⟩ := by
  refine fromBytes_rootDict_of_info_error sha1 parseUrl h ht ?_
  obtain ⟨hl, hp, bufs, hbufs⟩ := parse_infoDict_common h hn hpos hb hwhole
  simp only [Params.infoDict, hdir, hfs, insertName, Option.map_some', Option.some.injEq] at h
  have hname : parseName info = .error ⟨.missingData, "name"⟩ :=
    required_eq_error.mpr (by simp +decide [← h, lookup_insertOpt, Params.baseInfo])
  simp only [parseFromInfoDictionary, hl, hp, hbufs, ok_bind]
  split
  · simp only [hname, error_bind]
  · rename_i hm
    obtain ⟨m, hm, hm0⟩ := isMultiFileTorrent_eq_false.mp (by simpa using hm)
    simp only [File.asSingleFile, parseLength_eq_ok.mpr ⟨hm, hm0⟩, hname, ok_bind, error_bind]

/-- The record of `negative_parse_from_single_file_with_no_file_name`.
Source: `metainfo.rs` lines 605-616
Kind: D -/
def singleNoNameRecord : Params :=
  ⟨some dummyTracker, none, none, none, none, some dummyPieceLength, some (List.replicate 20 0),
    none, none, some [(some ⟨0, by decide, by decide⟩, none, none)]⟩

/-- `negative_parse_from_single_file_with_no_file_name` fails with `MissingData("name")`.
Source: `metainfo.rs` lines 605-616
Kind: L -/
theorem negativeParseFromSingleFileWithNoFileName :
    ∃ info, singleNoNameRecord.infoDict = some info ∧
      (MetainfoFile.fromBytes (fun b => b) (fun s => some s)
        (Bencode.dict (singleNoNameRecord.rootDict info)).encode :
          ParseResult (MetainfoFile Str (List UInt8))) = .error ⟨.missingData, "name"⟩ :=
  have h : singleNoNameRecord.infoDict = some _ := rfl
  ⟨_, h, fromBytes_rootDict_singleNoName (fun b => b) (fun s => some s) h rfl rfl (by decide)
    rfl (by decide) rfl rfl⟩

end Rejections

end RustBT
