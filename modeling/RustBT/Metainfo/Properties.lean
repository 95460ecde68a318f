import RustBT.Metainfo.MetainfoFile

/-!
# What every parsed torrent satisfies

Properties of `MetainfoFile::from_bytes` over every buffer it accepts, each assembled from the
inversion lemmas of `MetainfoFile.lean` and the spec lemmas of the `parse` helpers:

* `parsedFile_length_nonneg`, `multiFile_path_safe` — every file of a parsed info dictionary
  has a non-negative length; every file of the `files` loop has a non-empty path of safe
  components;
* `fromBytes_pieceLength_pos_files_nonneg` — the parsed piece length is positive and every file
  length non-negative;
* `fromBytes_dotDot_name` — the single-file branch does not route `name` through the path
  checks: a single-file torrent named `..` is accepted;
* `fromBytes_multiFile_paths_safe` — the multi-file branch does: every file of a torrent with a
  directory has a non-empty path of safe components;
* `fromBytes_shape` — the shape switch: single-file exactly when `length` is a non-negative
  integer, and then `files` is ignored; otherwise one file per element of `files`, in order;
  `fromBytes_length_string` — a `length` that is not an integer is not the switch;
* `allocatePieces_spec` — `allocate_pieces` on every byte string, and it is what the parsed
  info dictionary stores.
-/

namespace RustBT

/-! ## Files -/

/-- A file of the `files` loop comes from a dictionary element whose fields it carries.
Source: `metainfo.rs` lines 176-181, 239-254
Kind: L -/
theorem parseMultiFile_eq_ok {fb : Bencode} {f : File} (h : parseMultiFile fb = .ok f) :
    ∃ fd, fb = .dict fd ∧ parseLength fd = .ok f.len ∧ f.md5sum = parseMd5sum fd ∧
      ∃ ps, parsePathList fd = .ok ps ∧
        List.Forall₂ (fun p c => parsePathStr p = .ok c) ps f.path := by
  obtain ⟨fd, hfd, hf⟩ := bind_eq_ok.mp h
  obtain ⟨len, ps, hl, hp, hcs, hlen, hmd5⟩ := File.asMultiFile_eq_ok.mp hf
  refine ⟨fd, ?_, hlen ▸ hl, hmd5, ps, hp, hcs⟩
  unfold parseFileDict at hfd
  split at hfd
  · cases hfd; exact Bencode.eq_of_dict? ‹_›
  · cases hfd

/-- Every file of the `files` loop has a non-empty path whose components are all safe.
Source: spec §3 `File.path`; `metainfo.rs` lines 244-251
Kind: L -/
theorem multiFile_path_safe {fb : Bencode} {f : File} (h : parseMultiFile fb = .ok f) :
    f.path ≠ [] ∧ ∀ c ∈ f.path, isSafeComponent c = true := by
  obtain ⟨fd, -, -, -, ps, hps, hcs⟩ := parseMultiFile_eq_ok h
  refine ⟨fun hnil => parsePathList_ne_nil hps (List.forall₂_nil_right_iff.mp (hnil ▸ hcs)),
    fun c hc => ?_⟩
  obtain ⟨p, -, hp⟩ := exists_of_forall₂_mem hcs c hc
  exact isSafeComponent_of_parsePathStr hp

/-- Every file of a parsed info dictionary has a non-negative length.
Source: spec §3 "`length`: non-negative `i64`"; `metainfo.rs` lines 231-254
Kind: L -/
theorem parsedFile_length_nonneg {d : Dictionary} {info : InfoDictionary}
    (h : parseFromInfoDictionary d = .ok info) : ∀ f ∈ info.files, 0 ≤ f.length.val := by
  obtain ⟨-, -, -, hmulti, hsingle⟩ := parseFromInfoDictionary_eq_ok h
  intro f hf
  cases hm : isMultiFileTorrent d
  · obtain ⟨-, g, hg, hfiles⟩ := hsingle hm
    obtain ⟨len, name, hl, -, rfl⟩ := File.asSingleFile_eq_ok.mp hg
    rw [hfiles, List.mem_singleton] at hf
    exact hf ▸ (parseLength_eq_ok.mp hl).2
  · obtain ⟨-, fs, -, -, -, hfs⟩ := hmulti hm
    obtain ⟨fb, -, hfb⟩ := exists_of_forall₂_mem hfs f hf
    obtain ⟨_, _, hl, _⟩ := parseMultiFile_eq_ok hfb
    exact (parseLength_eq_ok.mp hl).2

/-- Scenario S7 of the spec: a single-file torrent `f` of length 0 with one piece of 20 zero
bytes.
Source: spec §8 S7
Kind: D -/
def s7Torrent : List UInt8 :=
  ascii "d8:announce12:udp://x:89894:infod6:lengthi0e4:name1:f12:piece lengthi1024e6:pieces20:" ++
    List.replicate 20 0 ++ ascii "ee"

section FromBytes

variable {Url InfoHash : Type} (sha1 : List UInt8 → InfoHash) (parseUrl : Str → Option Url)

/-- Every parsed torrent has a positive piece length and files of non-negative length.
Source: spec §3 `piece_length`, `length`; `metainfo.rs` lines 164-169, 231-254
Kind: P -/
theorem fromBytes_pieceLength_pos_files_nonneg {bytes : List UInt8}
    {m : MetainfoFile Url InfoHash} (h : MetainfoFile.fromBytes sha1 parseUrl bytes = .ok m) :
    0 < m.info.pieceLength.val ∧ ∀ f ∈ m.info.files, 0 ≤ f.length.val := by
  obtain ⟨-, infoDict, -, -, -, hinfo, -⟩ := fromBytes_eq_ok sha1 parseUrl h
  exact ⟨(parsePieceLength_eq_ok.mp (parseFromInfoDictionary_eq_ok hinfo).1).2,
    parsedFile_length_nonneg hinfo⟩

/-- Scenario S7 parses, with a positive piece length and non-negative file lengths.
Source: spec §8 S7
Kind: L -/
theorem fromBytes_pieceLength_pos_files_nonneg_s7 :
    ∃ m, MetainfoFile.fromBytes (fun b => b) (fun s => some s) s7Torrent = .ok m ∧
      0 < m.info.pieceLength.val ∧ ∀ f ∈ m.info.files, 0 ≤ f.length.val := by
  obtain ⟨m, hm⟩ : ∃ m, MetainfoFile.fromBytes (fun b => b) (fun s => some s) s7Torrent = .ok m :=
    ⟨_, rfl⟩
  exact ⟨m, hm, fromBytes_pieceLength_pos_files_nonneg _ _ hm⟩

/-- **The shape switch.** A parsed torrent is single-file exactly when `length` is a
non-negative integer in its info dictionary `I`: then there is no directory and one file, of
that length, named `name`, with `I`'s `md5sum`, whatever `files` holds. Otherwise the directory
is `name` and there is one file per element of `files`, in order, each with its element's
length, `md5sum` and path components in order; an element that does not parse fails the whole
parse.
Source: `metainfo.rs` lines 171-196, 230-254; spec §4.6 "Detect shape"
Kind: P -/
theorem fromBytes_shape {bytes : List UInt8} {m : MetainfoFile Url InfoHash}
    (h : MetainfoFile.fromBytes sha1 parseUrl bytes = .ok m) :
    ∃ rootDict I, decode bytes {} = .ok (.dict rootDict) ∧
      rootDict.lookup infoKey = some (.dict I) ∧
      (∀ len : I64, I.lookup lengthKey = some (.int len) → 0 ≤ len.val →
        m.info.directory = none ∧
          ∃ name, parseName I = .ok name ∧ m.info.files = [⟨len, [name], parseMd5sum I⟩]) ∧
      ((¬ ∃ len : I64, I.lookup lengthKey = some (.int len) ∧ 0 ≤ len.val) →
        ∃ name fs, parseName I = .ok name ∧ m.info.directory = some name ∧
          parseFilesList I = .ok fs ∧
          List.Forall₂ (fun fb f => ∃ fd, fb = .dict fd ∧ parseLength fd = .ok f.len ∧
            f.md5sum = parseMd5sum fd ∧ ∃ ps, parsePathList fd = .ok ps ∧
              List.Forall₂ (fun p c => parsePathStr p = .ok c) ps f.path) fs m.info.files) := by
  obtain ⟨rootDict, I, hdec, hI, -, hinfo, -⟩ := fromBytes_eq_ok sha1 parseUrl h
  obtain ⟨-, -, -, hmulti, hsingle⟩ := parseFromInfoDictionary_eq_ok hinfo
  refine ⟨rootDict, I, hdec, hI, fun len hlen hpos => ?_, fun hnot => ?_⟩
  · obtain ⟨hdir, f, hf, hfiles⟩ := hsingle (isMultiFileTorrent_eq_false.mpr ⟨len, hlen, hpos⟩)
    obtain ⟨len', name, hl, hn, rfl⟩ := File.asSingleFile_eq_ok.mp hf
    have hsame : len' = len :=
      Bencode.int.inj (Option.some.inj ((parseLength_eq_ok.mp hl).1.symm.trans hlen))
    exact ⟨hdir, name, hn, by rw [hfiles, hsame]⟩
  · have hm : isMultiFileTorrent I = true := by
      cases hb : isMultiFileTorrent I
      · exact absurd (isMultiFileTorrent_eq_false.mp hb) (by simpa using hnot)
      · rfl
    obtain ⟨name, fs, hn, hdir, hfs, hall⟩ := hmulti hm
    exact ⟨name, fs, hn, hdir, hfs, hall.imp fun _ _ => parseMultiFile_eq_ok⟩

/-- The shape switch on scenario S7. Source: spec §8 S7. Kind: L -/
theorem fromBytes_shape_s7 :
    ∃ m, MetainfoFile.fromBytes (fun b => b) (fun s => some s) s7Torrent = .ok m ∧
      ∃ rootDict I, decode s7Torrent {} = .ok (.dict rootDict) ∧
        rootDict.lookup infoKey = some (.dict I) ∧
        (∀ len : I64, I.lookup lengthKey = some (.int len) → 0 ≤ len.val →
          m.info.directory = none ∧
            ∃ name, parseName I = .ok name ∧ m.info.files = [⟨len, [name], parseMd5sum I⟩]) ∧
        ((¬ ∃ len : I64, I.lookup lengthKey = some (.int len) ∧ 0 ≤ len.val) →
          ∃ name fs, parseName I = .ok name ∧ m.info.directory = some name ∧
            parseFilesList I = .ok fs ∧
            List.Forall₂ (fun fb f => ∃ fd, fb = .dict fd ∧ parseLength fd = .ok f.len ∧
              f.md5sum = parseMd5sum fd ∧ ∃ ps, parsePathList fd = .ok ps ∧
                List.Forall₂ (fun p c => parsePathStr p = .ok c) ps f.path) fs m.info.files) := by
  obtain ⟨m, hm⟩ : ∃ m, MetainfoFile.fromBytes (fun b => b) (fun s => some s) s7Torrent = .ok m :=
    ⟨_, rfl⟩
  exact ⟨m, hm, fromBytes_shape _ _ hm⟩

/-- A torrent whose `length` is the byte string `x`, with a one-file `files` list.
Source: spec §4.6 "Detect shape"
Kind: D -/
def lengthStringTorrent : List UInt8 :=
  ascii ("d8:announce12:udp://x:89894:infod5:filesld6:lengthi0e4:pathl1:aeee" ++
    "6:length1:x4:name1:d12:piece lengthi1e6:pieces0:ee")

/-- The presence of `length` is not the switch: a `length` that is not an integer gives the
multi-file shape, with a directory.
Source: `metainfo.rs` lines 193-196
Kind: P -/
theorem fromBytes_length_string :
    ∃ m rootDict I, MetainfoFile.fromBytes (fun b => b) (fun s => some s) lengthStringTorrent =
        .ok m ∧ decode lengthStringTorrent {} = .ok (.dict rootDict) ∧
      rootDict.lookup infoKey = some (.dict I) ∧ (I.lookup lengthKey).isSome ∧
      m.info.directory.isSome :=
  ⟨_, _, _, rfl, rfl, rfl, rfl, rfl⟩

/-- A single-file torrent named `..`.
Source: spec §4.6 "Single-file: read `name` (required) as UTF-8"
Kind: D -/
def dotDotTorrent : List UInt8 :=
  ascii "d8:announce12:udp://x:89894:infod6:lengthi0e4:name2:..12:piece lengthi1e6:pieces0:ee"

/-- `as_single_file` puts `name` into the path unchecked: the single-file torrent named `..`
parses, and its one file's path is `[".."]`.
Source: `metainfo.rs` lines 230-237
Kind: P -/
theorem fromBytes_dotDot_name (sha1 : List UInt8 → InfoHash) :
    ∃ m, MetainfoFile.fromBytes sha1 (fun s => some s) dotDotTorrent = .ok m ∧
      m.info.files.map (fun f => f.path.map Str.bytes) = [[ascii ".."]] :=
  ⟨_, rfl, rfl⟩

/-- Every file of a multi-file torrent has a non-empty path of safe components: the half of the
path rule that the code enforces.
Source: `metainfo.rs` lines 171-181 and 239-254; spec §4.6 "Path validation"
Kind: P -/
theorem fromBytes_multiFile_paths_safe {bytes : List UInt8} {m : MetainfoFile Url InfoHash}
    (h : MetainfoFile.fromBytes sha1 parseUrl bytes = .ok m) (hdir : m.info.directory.isSome) :
    ∀ f ∈ m.info.files, f.path ≠ [] ∧ ∀ c ∈ f.path, isSafeComponent c = true := by
  obtain ⟨-, I, -, -, -, hinfo, -⟩ := fromBytes_eq_ok sha1 parseUrl h
  obtain ⟨-, -, -, hmulti, hsingle⟩ := parseFromInfoDictionary_eq_ok hinfo
  cases hm : isMultiFileTorrent I
  · simp [InfoDictionary.directory, (hsingle hm).1] at hdir
  · obtain ⟨-, fs, -, -, -, hfs⟩ := hmulti hm
    intro f hf
    obtain ⟨fb, -, hfb⟩ := exists_of_forall₂_mem hfs f hf
    exact multiFile_path_safe hfb

/-- Scenario S8 of the spec: a multi-file torrent `dir` with one file at `sub/f`.
Source: spec §8 S8
Kind: D -/
def s8Torrent : List UInt8 :=
  ascii ("d8:announce12:udp://x:89894:infod5:filesld6:lengthi0e4:pathl3:sub1:feee" ++
    "4:name3:dir12:piece lengthi1e6:pieces0:ee")

/-- Scenario S8 parses with a directory and safe paths. Source: spec §8 S8. Kind: L -/
theorem fromBytes_multiFile_paths_safe_s8 :
    ∃ m, MetainfoFile.fromBytes (fun b => b) (fun s => some s) s8Torrent = .ok m ∧
      m.info.directory.isSome ∧
      ∀ f ∈ m.info.files, f.path ≠ [] ∧ ∀ c ∈ f.path, isSafeComponent c = true :=
  have h : MetainfoFile.fromBytes (fun b => b) (fun s => some s) s8Torrent = .ok _ := rfl
  ⟨_, h, rfl, fromBytes_multiFile_paths_safe _ _ h rfl⟩

end FromBytes

/-! ## Pieces -/

/-- `allocate_pieces` on every byte string: it fails, with the source's message, exactly when
the length is not a multiple of 20; otherwise it returns `|p| / 20` hashes, hash `i` being
`p[20i .. 20i+20]`, whose concatenation is `p`. A parsed info dictionary stores exactly what it
returns for the `pieces` string.
Source: `metainfo.rs` lines 164-169, 198-217
Kind: P -/
theorem allocatePieces_spec (pieces : List UInt8) :
    ((pieces.length % shaHashLen ≠ 0 ∧ allocatePieces pieces =
        .error ⟨.missingData, "Piece Hash Length Of " ++ toString pieces.length ++ " Is Invalid"⟩) ∨
      (pieces.length % shaHashLen = 0 ∧ ∃ v, allocatePieces pieces = .ok v ∧
        PiecesSplit pieces v ∧ (v.map Mathlib.Vector.toList).flatten = pieces)) ∧
    ∀ (d : Dictionary) (info : InfoDictionary), parseFromInfoDictionary d = .ok info →
      ∃ p, parsePieces d = .ok p ∧ allocatePieces p = .ok info.pieces := by
  refine ⟨?_, fun d info h => (parseFromInfoDictionary_eq_ok h).2.2.1⟩
  by_cases hp : pieces.length % shaHashLen = 0
  · exact .inr ⟨hp, allocatePieces_ok_split hp⟩
  · exact .inl ⟨hp, by rw [allocatePieces, if_pos hp]⟩

end RustBT
