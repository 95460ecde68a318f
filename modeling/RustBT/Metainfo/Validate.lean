import RustBT.Metainfo.Properties
import RustBT.Metainfo.Rejections

/-!
# The test oracle `validate_parse_from_params`

After building and encoding the root dictionary, the helper unwraps `MetainfoFile::from_bytes`
and asserts that the parse gives its parameters back: info hash, advisory fields, directory,
piece length, private flag, the pieces chunk by chunk, the number of files and each file's
length, md5sum and path. Every test of `metainfo.rs` passes or panics by what this helper does,
so this module translates the assertions too, as a `Bool`: `validateParseFromParams` is `true`
when the helper runs to its end and `false` where it panics.

* `piecesAgree`, `filesAgree` — the two assertion loops.
* `TorrentDesc.Checked` — what the parser checks of a description: `TorrentDesc.Valid` without
  the safety of a single file's name (`TorrentDesc.Valid.checked`).
* `parsed_files_checked` — what every parsed info dictionary satisfies of its files, whatever
  dictionary it came from.
* `checked_of_validateParseFromParams`, `validateParseFromParams_toParams`, and together
  `validateParseFromParams_iff` — the helper runs to its end exactly on the parameters of a
  checked description: every record outside that set makes it panic, and every record inside
  it is built, parsed and read back field by field.
-/

namespace RustBT

/-! ## The assertions -/

/-- `assert_eq!(pieces.chunks(SHA_HASH_LEN).count(), info.pieces().count())`, then
`assert_eq!(piece_chunk, piece_elem)` over the two, zipped.
Source: `metainfo.rs` lines 358-362
Kind: D -/
def piecesAgree (pieces : List UInt8) (hashes : List ShaHash) : Bool :=
  (chunks shaHashLen pieces).length == hashes.length &&
    ((chunks shaHashLen pieces).zip hashes).all fun ch => ch.1 == ch.2.toList

/-- The assertions on one file: `meta_file.length() == supp_file.0.unwrap()`, the md5sums, and
`meta_paths == supp_file.2.unwrap()`; an `unwrap` of `None` panics.
Source: `metainfo.rs` lines 371-378
Kind: D -/
def fileAgrees (f : File) : FileParam → Bool
  | (optLen, optMd5, optPaths) => optLen == some f.len && f.md5sum == optMd5 && optPaths == some f.path

/-- `assert_eq!(info.files().count(), num_files)`, then the assertions on each file, zipped with
the parameters.
Source: `metainfo.rs` lines 364-379
Kind: D -/
def filesAgree (files : List File) (fs : List FileParam) : Bool :=
  files.length == fs.length && (files.zip fs).all fun ff => fileAgrees ff.1 ff.2

section Oracle

variable {Url InfoHash : Type} [DecidableEq InfoHash] (sha1 : List UInt8 → InfoHash)
  (parseUrl : Str → Option Url)

/-- `validate_parse_from_params`: `true` when it runs to its end, `false` where it panics
(`files[0]` or `p[0]` out of range, `from_bytes(..).unwrap()`, an `unwrap` of a `None`
parameter, or a failed `assert_eq!`).
Source: `metainfo.rs` lines 291-380
Kind: D -/
def validateParseFromParams (p : Params) : Bool :=
  match p.infoDict with
  | none => false
  | some info =>
    match MetainfoFile.fromBytes sha1 parseUrl (Bencode.dict (p.rootDict info)).encode with
    | .error _ => false
    | .ok m =>
      decide (m.infoHash = sha1 (Bencode.dict info).encode) && m.comment == p.comment &&
        m.createdBy == p.createBy && m.encoding == p.encoding &&
        m.creationDate == p.createDate && m.info.directory == p.directory &&
        p.pieceLength.any (m.info.pieceLength == ·) &&
        m.info.isPrivate == ((p.priv.map I64.val).getD 0 == 1) &&
        p.pieces.any (piecesAgree · m.info.pieces) && p.files.any (filesAgree m.info.files)

end Oracle

/-- What the parser checks of a description: the announce URL parses, the piece length is
positive, the pieces are whole hashes; under a directory every file has a non-negative length
and a non-empty path of safe components; without one there is one file, of non-negative length
and a one-component path, whose name is not checked.
Source: `metainfo.rs` lines 85-104, 163-191, 230-254
Kind: D -/
structure TorrentDesc.Checked {Url : Type} (parseUrl : Str → Option Url) (P : TorrentDesc) :
    Prop where
  announce_parses : (parseUrl P.announce).isSome
  pieceLength_pos : 0 < P.pieceLength.val
  pieces_whole : P.pieces.length % shaHashLen = 0
  multi_files : ∀ d, P.directory = some d →
    ∀ f ∈ P.files, 0 ≤ f.len.val ∧ f.path ≠ [] ∧ ∀ c ∈ f.path, isSafeComponent c = true
  single_file : P.directory = none → ∃ f, P.files = [f] ∧ f.path.length = 1 ∧ 0 ≤ f.len.val

/-- A valid description is checked.
Source: none: infrastructure
Kind: L -/
theorem TorrentDesc.Valid.checked {Url : Type} {parseUrl : Str → Option Url} {P : TorrentDesc}
    (h : P.Valid parseUrl) : P.Checked parseUrl := by
  refine ⟨h.announce_parses, h.pieceLength_pos, h.pieces_whole, fun _ _ => h.files_valid,
    fun hd => ?_⟩
  obtain ⟨f, hfs, hlen⟩ := h.single_file hd
  exact ⟨f, hfs, hlen, (h.files_valid f (by simp [hfs])).1⟩

/-! ## The assertion loops -/

/-- A split of whole pieces passes the piece assertions.
Source: `metainfo.rs` lines 358-362
Kind: L -/
theorem piecesAgree_of_split {p : List UInt8} {v : List ShaHash}
    (hwhole : p.length % shaHashLen = 0) (hv : PiecesSplit p v) : piecesAgree p v = true := by
  have hk : p.length = shaHashLen * v.length := by
    rw [hv.1]; exact (Nat.mul_div_cancel' (Nat.dvd_of_mod_eq_zero hwhole)).symm
  have hch : chunks shaHashLen p = v.map Mathlib.Vector.toList := by
    rw [chunks_eq_map_range (by decide) hk]
    refine List.ext_get (by simp) fun i h₁ h₂ => ?_
    simp only [List.get_eq_getElem, List.getElem_map, List.getElem_range]
    exact (hv.2 i (by simpa using h₂)).symm
  have hall : ∀ w : List ShaHash, ((w.map Mathlib.Vector.toList).zip w).all
      (fun ch => ch.1 == ch.2.toList) = true := fun w => by
    induction w with
    | nil => rfl
    | cons x w ih => simp only [List.map_cons, List.zip_cons_cons, List.all_cons, ih,
        beq_self_eq_true, Bool.and_self]
  simp only [piecesAgree, hch, hall, List.length_map, beq_self_eq_true, Bool.and_self]

/-- The files of a description pass the file assertions against their own parameters.
Source: `metainfo.rs` lines 364-379
Kind: L -/
theorem filesAgree_self (files : List File) :
    filesAgree files (files.map fun f => (some f.len, f.md5sum, some f.path)) = true := by
  have hall : ((files.zip (files.map fun f => (some f.len, f.md5sum, some f.path))).all
      fun ff => fileAgrees ff.1 ff.2) = true := by
    induction files with
    | nil => rfl
    | cons f files ih =>
      rw [List.map_cons, List.zip_cons_cons, List.all_cons, ih]
      simp [fileAgrees]
  simp only [filesAgree, hall, List.length_map, beq_self_eq_true, Bool.and_self]

/-- Parameters that pass the file assertions are the parsed files' own.
Source: `metainfo.rs` lines 364-379
Kind: L -/
theorem eq_of_filesAgree : ∀ {files : List File} {fs : List FileParam},
    filesAgree files fs = true → fs = files.map fun f => (some f.len, f.md5sum, some f.path)
  | [], [], _ => rfl
  | f :: files, (optLen, optMd5, optPaths) :: fs, h => by
    simp only [filesAgree, List.length_cons, List.zip_cons_cons, List.all_cons, Bool.and_eq_true,
      beq_iff_eq, Nat.add_right_cancel_iff] at h
    obtain ⟨hlen, hhead, hall⟩ := h
    simp only [fileAgrees, Bool.and_eq_true, beq_iff_eq] at hhead
    obtain ⟨⟨hl, hm⟩, hp⟩ := hhead
    have hrest : filesAgree files fs = true := by
      simp only [filesAgree, hlen, beq_self_eq_true, hall, Bool.and_self]
    rw [List.map_cons, hl, hm, hp, eq_of_filesAgree hrest]
  | [], _ :: _, h | _ :: _, [], h => by simp [filesAgree] at h

/-! ## Parsed files -/

/-- **What the parser checks of the files.** Whatever dictionary it came from, a parsed info
dictionary with a directory has files of non-negative length with non-empty paths of safe
components, and one without a directory has exactly one file, of non-negative length and with
a one-component path.
Source: `metainfo.rs` lines 163-191, 230-254
Kind: L -/
theorem parsed_files_checked {d : Dictionary} {info : InfoDictionary}
    (h : parseFromInfoDictionary d = .ok info) :
    (∀ dir, info.fileDirectory = some dir → ∀ f ∈ info.files,
      0 ≤ f.len.val ∧ f.path ≠ [] ∧ ∀ c ∈ f.path, isSafeComponent c = true) ∧
    (info.fileDirectory = none → ∃ f, info.files = [f] ∧ f.path.length = 1 ∧ 0 ≤ f.len.val) := by
  obtain ⟨-, -, -, hmulti, hsingle⟩ := parseFromInfoDictionary_eq_ok h
  have hlen := parsedFile_length_nonneg h
  cases hm : isMultiFileTorrent d
  · obtain ⟨hnone, f, hf, hfiles⟩ := hsingle hm
    obtain ⟨len, name, -, -, rfl⟩ := File.asSingleFile_eq_ok.mp hf
    refine ⟨fun dir hdir => absurd (hdir.symm.trans hnone) (by simp), fun _ => ⟨_, hfiles, rfl, ?_⟩⟩
    exact hlen _ (by simp [hfiles])
  · obtain ⟨dir, fs, -, hdir, -, hfs⟩ := hmulti hm
    refine ⟨fun _ _ f hf => ⟨hlen f hf, ?_⟩, fun hnone => absurd (hdir.symm.trans hnone) (by simp)⟩
    obtain ⟨fb, -, hfb⟩ := exists_of_forall₂_mem hfs f hf
    exact multiFile_path_safe hfb

/-! ## The oracle -/

section OracleIff

variable {Url InfoHash : Type} (sha1 : List UInt8 → InfoHash) (parseUrl : Str → Option Url)

/-- A built buffer that parses carries the tracker through `parseUrl`, the parse of the built
`info` dictionary, its SHA-1, and the advisory parameters.
Source: `metainfo.rs` lines 85-104 and 291-347
Kind: L -/
theorem fromBytes_rootDict_eq_ok {p : Params} {info : Dictionary} {m : MetainfoFile Url InfoHash}
    (h : p.infoDict = some info)
    (hm : MetainfoFile.fromBytes sha1 parseUrl (Bencode.dict (p.rootDict info)).encode = .ok m) :
    p.tracker.bind parseUrl = some m.announce ∧ parseFromInfoDictionary info = .ok m.info ∧
      m.infoHash = sha1 (Bencode.dict info).encode ∧ m.comment = p.comment ∧
      m.createdBy = p.createBy ∧ m.encoding = p.encoding ∧ m.creationDate = p.createDate := by
  rw [fromBytes_rootDict sha1 parseUrl h] at hm
  simp only [bind_eq_ok, pure_eq_ok, Except.ok.injEq] at hm
  obtain ⟨url, hurl, i, hi, rfl⟩ := hm
  obtain ⟨-, -, hc, hcb, he, hd⟩ := rootDict_fields p info
  exact ⟨(bind_announce_rootDict parseUrl p info).symm.trans (required_eq_ok.mp hurl), hi, rfl,
    hc, hcb, he, hd⟩

/-- The private assertion: `private.unwrap_or(0) == 1` is the parsed flag `private == 1`.
Source: `metainfo.rs` line 356
Kind: L -/
theorem getD_beq_one (o : Option Int) : ((o.getD 0 == 1) = (o == some 1)) := by
  cases o <;> simp

/-- An assertion on an unwrapped parameter holds only when the parameter is present.
Source: none: infrastructure
Kind: L -/
theorem exists_of_any {α : Type} {o : Option α} {f : α → Bool} (h : o.any f = true) :
    ∃ a, o = some a ∧ f a = true := by
  cases o <;> simp_all

/-- The parse of a checked description's `info` dictionary: the description's fields, with the
given split of its pieces.
Source: `metainfo.rs` lines 163-191 and 302-343
Kind: L -/
theorem parseFromInfoDictionary_toParams_checked {P : TorrentDesc} (hP : P.Checked parseUrl)
    {bufs : List ShaHash} (hbufs : allocatePieces P.pieces = .ok bufs) :
    ∃ info, P.toParams.infoDict = some info ∧ parseFromInfoDictionary info =
      .ok ⟨P.files, bufs, P.pieceLength, P.priv.map I64.val == some 1, P.directory⟩ := by
  cases hdir : P.directory with
  | some dir =>
    exact parseFromInfoDictionary_toParams_multi hdir hP.pieceLength_pos
      (hP.multi_files dir hdir) hbufs
  | none =>
    obtain ⟨f, hfs, hlen1, hlen⟩ := hP.single_file hdir
    obtain ⟨name, hname⟩ := List.length_eq_one.mp hlen1
    rw [hfs]
    exact parseFromInfoDictionary_toParams_single hdir hfs hname hP.pieceLength_pos hlen hbufs

/-- Where the helper runs to its end, its parameters are those of a checked description: the
tracker, piece length, pieces and files it unwraps are present, the parse that succeeded
checked them, and the file assertions pin the files to the parsed ones.
Source: `metainfo.rs` lines 291-380
Kind: L -/
theorem checked_of_validateParseFromParams [DecidableEq InfoHash] {p : Params}
    (hv : validateParseFromParams sha1 parseUrl p = true) :
    ∃ P : TorrentDesc, P.toParams = p ∧ P.Checked parseUrl := by
  unfold validateParseFromParams at hv
  split at hv
  · cases hv
  rename_i info hinfo
  split at hv
  · cases hv
  rename_i m hm
  obtain ⟨hann, hI, -, -, -, -, -⟩ := fromBytes_rootDict_eq_ok sha1 parseUrl hinfo hm
  obtain ⟨t, ht, hurl⟩ := Option.bind_eq_some.mp hann
  simp only [Bool.and_eq_true, beq_iff_eq] at hv
  obtain ⟨⟨⟨⟨⟨-, hdir⟩, hpl⟩, -⟩, hpieces⟩, hfiles⟩ := hv
  obtain ⟨n, hn, hpl⟩ := exists_of_any hpl
  obtain ⟨b, hb, -⟩ := exists_of_any hpieces
  obtain ⟨fs, hfs, hagree⟩ := exists_of_any hfiles
  obtain ⟨hplen, -, ⟨b', hb', halloc⟩, -, -⟩ := parseFromInfoDictionary_eq_ok hI
  obtain rfl : b' = b := by
    simpa [(lookup_infoDict_pieces hinfo).2, hb, eq_comm] using required_eq_ok.mp hb'
  refine ⟨⟨t, p.comment, p.createBy, p.encoding, p.createDate, n, b', p.priv, p.directory,
    m.info.files⟩, ?_, ⟨by simp [hurl], beq_iff_eq.mp hpl ▸ (parsePieceLength_eq_ok.mp hplen).2,
    allocatePieces_whole halloc, fun d hdd => (parsed_files_checked hI).1 d (hdir.trans hdd),
    fun hdd => (parsed_files_checked hI).2 (hdir.trans hdd)⟩⟩
  rw [eq_of_filesAgree hagree] at hfs
  cases p
  simp_all [TorrentDesc.toParams]

/-- On a checked description the helper runs to its end: the buffer parses and every assertion
holds.
Source: `metainfo.rs` lines 291-380
Kind: L -/
theorem validateParseFromParams_toParams [DecidableEq InfoHash] {P : TorrentDesc}
    (hP : P.Checked parseUrl) : validateParseFromParams sha1 parseUrl P.toParams = true := by
  obtain ⟨info, m, hinfo, hm, hrep, hhash⟩ := fromBytes_toParams_of_info sha1 parseUrl
    hP.announce_parses hP.pieces_whole fun _ => parseFromInfoDictionary_toParams_checked parseUrl hP
  simp only [validateParseFromParams, hinfo, hm]
  simp [hhash, hrep.comment, hrep.createdBy, hrep.encoding, hrep.creationDate, hrep.directory,
    hrep.pieceLength, hrep.isPrivate, getD_beq_one, TorrentDesc.toParams,
    piecesAgree_of_split hP.pieces_whole hrep.pieces, hrep.files, filesAgree_self]

/-- **The test oracle accepts exactly the checked descriptions.** `validate_parse_from_params`
runs to its end exactly when its parameters are those of a checked description: a tracker
that parses, a positive piece length, whole pieces, and either a directory with files of
non-negative length and non-empty safe paths, or no directory and one file with a length and a
one-component name, whatever that name is. Every other record panics, at the build, at
`from_bytes(..).unwrap()` or at an assertion; on every checked one, the parse reads back every
parameter the helper asserts on.
Source: `metainfo.rs` lines 85-104, 163-254 and 291-380
Kind: P -/
theorem validateParseFromParams_iff [DecidableEq InfoHash] (p : Params) :
    validateParseFromParams sha1 parseUrl p = true ↔
      ∃ P : TorrentDesc, P.toParams = p ∧ P.Checked parseUrl :=
  ⟨checked_of_validateParseFromParams sha1 parseUrl, fun ⟨_, hp, hP⟩ =>
    hp ▸ validateParseFromParams_toParams sha1 parseUrl hP⟩

set_option maxRecDepth 2000 in
/-- `positive_parse_from_multi_files` runs to its end. -/
example : validateParseFromParams (fun b => b) (fun s => some s)
    ⟨some ⟨ascii "udp://dummy_domain.com:8989", by decide⟩, none, none, none, none,
      some ⟨1024, by decide, by decide⟩, some (List.replicate 20 0), none,
      some ⟨ascii "dummy_file_directory", by decide⟩,
      some [(some ⟨0, by decide, by decide⟩, none,
          some [⟨ascii "dummy_sub_directory", by decide⟩, ⟨ascii "dummy_file_name", by decide⟩]),
        (some ⟨5, by decide, by decide⟩, none,
          some [⟨ascii "other_dummy_file_name", by decide⟩])]⟩ = true := rfl

end OracleIff

end RustBT
