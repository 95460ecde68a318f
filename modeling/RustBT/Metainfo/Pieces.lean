import Mathlib.Data.Vector.Defs
import RustBT.Metainfo.Parse

/-!
# Piece hashes: `allocate_pieces`

`allocate_pieces` (`metainfo.rs` lines 198-217) checks that the `pieces` string is a whole
number of 20-byte SHA-1 hashes and copies each `chunks(20)` run into a reused `[u8; 20]`
buffer, pushing a copy of the buffer after every chunk. A short last chunk would leave stale
bytes of the previous hash in the buffer; the length check is what rules that out.

* `chunks` — `slice::chunks`, and `chunks_eq_map_range`: on a multiple of the size, run `i` is
  `pieces[size*i .. size*i+size]`;
* `copyZip`, `copyInto`, `allocateLoop` — the copy loop as the source runs it, and
  `allocateLoop_full` (a full chunk overwrites the whole buffer, so each pushed hash is its
  chunk);
* `PiecesSplit p v` — what the hash list is for: `|p| / 20` hashes, hash `i` the bytes
  `p[20i .. 20i+20]`;
* `allocatePieces_split` — `allocate_pieces` fails exactly on lengths that are not a multiple
  of 20, with the source's message, and otherwise splits the string.
-/

namespace RustBT

/-- Modelled from the spec: `sha::SHA_HASH_LEN`, the SHA-1 digest length (`bip_util` is not at
hand; spec §3 "sequence of 20-byte SHA-1 piece hashes").
Source: spec §3
Kind: D -/
def shaHashLen : Nat := 20

/-- `[u8; sha::SHA_HASH_LEN]`.
Source: `metainfo.rs` line 112
Kind: D -/
abbrev ShaHash := Mathlib.Vector UInt8 shaHashLen

section Chunks

variable {α : Type}

/-- `slice::chunks(size)` with at most `fuel` runs: runs of `size` consecutive items, the last
one possibly shorter.
Source: `metainfo.rs` line 207 `pieces.chunks(sha::SHA_HASH_LEN)`
Kind: D -/
def chunksCore (size : Nat) : Nat → List α → List (List α)
  | 0, _ => []
  | _, [] => []
  | fuel + 1, x :: xs => (x :: xs).take size :: chunksCore size fuel ((x :: xs).drop size)

/-- `slice::chunks(size)`: a slice of `n` items has at most `n` runs.
Source: `metainfo.rs` line 207
Kind: D -/
def chunks (size : Nat) (xs : List α) : List (List α) := chunksCore size xs.length xs

/-- On `size * k` items, `chunks` gives `k` runs, run `i` starting at `size * i`.
Source: none: infrastructure
Kind: L -/
theorem chunksCore_eq_map_range {size : Nat} (hsize : 0 < size) :
    ∀ (k fuel : Nat) (xs : List α), xs.length = size * k → k ≤ fuel →
      chunksCore size fuel xs = (List.range k).map fun i => (xs.drop (size * i)).take size
  | 0, fuel, xs, hlen, _ => by
    obtain rfl : xs = [] := List.eq_nil_of_length_eq_zero (by simpa using hlen)
    cases fuel <;> rfl
  | k + 1, fuel + 1, x :: xs, hlen, hk => by
    rw [Nat.mul_succ] at hlen
    rw [chunksCore, chunksCore_eq_map_range hsize k fuel _ (by simp at hlen ⊢; omega) (by omega),
      List.range_succ_eq_map]
    simp [List.drop_drop, Nat.mul_succ, Nat.add_comm]
  | k + 1, fuel + 1, [], hlen, _ => absurd hlen (Nat.ne_of_lt (Nat.mul_pos hsize k.succ_pos))
  | k + 1, 0, _, _, hk => absurd hk (by omega)

/-- Joining the runs of `chunks` gives the items back.
Source: none: infrastructure
Kind: L -/
theorem chunksCore_flatten {size : Nat} (hsize : 0 < size) :
    ∀ (fuel : Nat) (xs : List α), xs.length ≤ fuel → (chunksCore size fuel xs).flatten = xs
  | 0, [], _ => rfl
  | 0, _ :: _, h => absurd h (by simp)
  | _ + 1, [], _ => rfl
  | fuel + 1, x :: xs, h => by
    rw [chunksCore, List.flatten_cons, chunksCore_flatten hsize fuel _ (by simp at h ⊢; omega),
      List.take_append_drop]

/-- A list of `size * k` elements splits into `k` chunks, chunk `i` being elements
`size * i` to `size * i + size`.
Source: none: infrastructure
Kind: L -/
theorem chunks_eq_map_range {size k : Nat} (hsize : 0 < size) {xs : List α}
    (hlen : xs.length = size * k) :
    chunks size xs = (List.range k).map fun i => (xs.drop (size * i)).take size :=
  chunksCore_eq_map_range hsize k _ xs hlen (by rw [hlen]; exact Nat.le_mul_of_pos_left k hsize)

end Chunks

/-! ## The copy loop -/

/-- `for (src, dst) in chunk.iter().zip(hash_bytes.iter_mut()) { *dst = *src; }`: the first
`min` bytes of `dst` are overwritten by those of `src`, the rest left as they were.
Source: `metainfo.rs` lines 208-210
Kind: D -/
def copyZip : List UInt8 → List UInt8 → List UInt8
  | s :: ss, _ :: ds => s :: copyZip ss ds
  | _, ds => ds

/-- Copying leaves the destination's length. Source: none: infrastructure. Kind: L -/
theorem length_copyZip : ∀ (src dst : List UInt8), (copyZip src dst).length = dst.length
  | _ :: ss, _ :: ds => by simp [copyZip, length_copyZip ss ds]
  | [], _ => rfl
  | _ :: _, [] => rfl

/-- A source as long as the buffer overwrites all of it.
Source: none: infrastructure
Kind: L -/
theorem copyZip_of_length_eq : ∀ {src dst : List UInt8}, src.length = dst.length →
    copyZip src dst = src
  | [], [], _ => rfl
  | _ :: ss, _ :: ds, h => by
    simp [copyZip, copyZip_of_length_eq (by simpa using h : ss.length = ds.length)]

/-- The zip-copy into the `[u8; 20]` buffer `hash_bytes`.
Source: `metainfo.rs` lines 208-210
Kind: D -/
def copyInto (chunk : List UInt8) (hashBytes : ShaHash) : ShaHash :=
  ⟨copyZip chunk hashBytes.toList, (length_copyZip _ _).trans hashBytes.2⟩

/-- The chunk loop: copy each chunk into the reused buffer `hash_bytes`, then push a copy of
the buffer onto `hash_buffers`.
Source: `metainfo.rs` lines 207-213
Kind: D -/
def allocateLoop : List (List UInt8) → ShaHash → List ShaHash → List ShaHash
  | [], _, hashBuffers => hashBuffers
  | chunk :: chunks, hashBytes, hashBuffers =>
    allocateLoop chunks (copyInto chunk hashBytes) (hashBuffers ++ [copyInto chunk hashBytes])

/-- **Loop invariant.** When every chunk fills the buffer, each pushed hash is its chunk: the
buffer holds nothing of the previous chunk.
Source: `metainfo.rs` lines 207-213
Kind: L -/
theorem allocateLoop_full : ∀ (cs : List (List UInt8)) (hashBytes : ShaHash)
    (hashBuffers : List ShaHash), (∀ c ∈ cs, c.length = shaHashLen) →
      (allocateLoop cs hashBytes hashBuffers).map Mathlib.Vector.toList =
        hashBuffers.map Mathlib.Vector.toList ++ cs
  | [], _, _, _ => by simp [allocateLoop]
  | c :: cs, hashBytes, hashBuffers, h => by
    have hc : (copyInto c hashBytes).toList = c :=
      copyZip_of_length_eq ((h c (List.mem_cons_self _ _)).trans hashBytes.2.symm)
    rw [allocateLoop, allocateLoop_full cs _ _ fun c' hc' => h c' (List.mem_cons_of_mem _ hc')]
    simp [hc]

/-- `allocate_pieces`: the piece hashes of a `pieces` string, or `MissingData` when its length
is not a multiple of 20.
Source: `metainfo.rs` lines 198-217 `allocate_pieces`
Kind: D -/
def allocatePieces (pieces : List UInt8) : ParseResult (List ShaHash) :=
  if pieces.length % shaHashLen ≠ 0 then
    .error ⟨.missingData, "Piece Hash Length Of " ++ toString pieces.length ++ " Is Invalid"⟩
  else
    .ok (allocateLoop (chunks shaHashLen pieces) (Mathlib.Vector.replicate shaHashLen 0) [])

/-- The only error of `allocate_pieces` is its pieces-length message.
Source: `metainfo.rs` lines 200-203
Kind: L -/
theorem allocatePieces_error {p : List UInt8} {e : ParseError} (h : allocatePieces p = .error e) :
    MetainfoError e := by
  unfold allocatePieces at h; split_ifs at h; cases h; exact .piecesLength _

/-- `allocate_pieces` succeeds only on a whole number of hashes.
Source: `metainfo.rs` lines 200-203
Kind: L -/
theorem allocatePieces_whole {p : List UInt8} {v : List ShaHash} (h : allocatePieces p = .ok v) :
    p.length % shaHashLen = 0 := by
  unfold allocatePieces at h; split_ifs at h with hp; exact not_not.mp hp

/-- The piece hashes of `p`, in order: `|p| / 20` of them, hash `i` being `p[20i .. 20i+20]`.
Source: spec §4.6 step 5 "split into fixed-size 20-byte arrays, preserving order"; §8 property 8
Kind: D -/
def PiecesSplit (p : List UInt8) (v : List ShaHash) : Prop :=
  v.length = p.length / shaHashLen ∧
    ∀ i (h : i < v.length), (v.get ⟨i, h⟩).toList = (p.drop (shaHashLen * i)).take shaHashLen

/-- On a whole number of hashes, `allocate_pieces` returns the split of the string.
Source: `metainfo.rs` lines 203-215
Kind: L -/
theorem allocatePieces_ok_split {p : List UInt8} (hp : p.length % shaHashLen = 0) :
    ∃ v, allocatePieces p = .ok v ∧ PiecesSplit p v ∧
      (v.map Mathlib.Vector.toList).flatten = p := by
  obtain ⟨k, hk⟩ : ∃ k, p.length = shaHashLen * k := ⟨p.length / shaHashLen,
    (Nat.mul_div_cancel' (Nat.dvd_of_mod_eq_zero hp)).symm⟩
  have hch := chunks_eq_map_range (by decide : 0 < shaHashLen) hk
  have hfull : ∀ c ∈ chunks shaHashLen p, c.length = shaHashLen := by
    rw [hch]; simp only [List.mem_map, List.mem_range]
    rintro _ ⟨i, hi, rfl⟩
    simp only [List.length_take, List.length_drop, hk]
    have : shaHashLen * i + shaHashLen ≤ shaHashLen * k := by nlinarith
    omega
  have hflat : (chunks shaHashLen p).flatten = p :=
    chunksCore_flatten (by decide) _ _ (Nat.le_refl _)
  have hloop := allocateLoop_full _ (Mathlib.Vector.replicate shaHashLen 0) [] hfull
  rw [List.map_nil, List.nil_append] at hloop
  refine ⟨_, by rw [allocatePieces, if_neg (by simpa using hp)], ?_⟩
  generalize allocateLoop _ _ _ = v at hloop ⊢
  have hlen : v.length = k := by rw [← List.length_map _ Mathlib.Vector.toList, hloop, hch]; simp
  refine ⟨⟨by rw [hlen, hk]; simp [shaHashLen], fun i h => ?_⟩, by rw [hloop, hflat]⟩
  have := congrArg (fun l => l[i]?) (hloop.trans hch)
  simp only [List.getElem?_map, List.getElem?_eq_getElem h, Option.map_some',
    List.getElem?_range (hlen ▸ h), Option.some.injEq] at this
  simpa using this

end RustBT
