import Mathlib.Data.List.Lex

/-!
# Bencode values, the token scanner and the dictionary model

The data model of `bip_bencode` (spec §3, §4.1), shared by the decoder, the encoder and the
metainfo parser.

* `I64` — Rust's `i64`: an integer that carries its own range.
* `scan` — the token scanner: the four sigils and the length-prefix digits of `lib.rs`
  (`INT_START`, `LIST_START`, `DICT_START`, `BYTE_LEN_LOW..BYTE_LEN_HIGH`).
* `Bencode` — the four variants. A dictionary is the association list of a `BTreeMap`'s
  entries: keys are byte strings and the encoder emits the entries in the stored order.
* `keyLt` — the byte-wise lexicographic order of keys (Rust's `Ord for [u8]`), a strict total
  order (`keyLt_trans`, `keyLt_irrefl`, `keyLt_trichotomy`).
* `dictInsert` — `BTreeMap::insert` on a key-sorted list; `dictInsert_of_gt` (a key above every
  stored key is appended), `sortedKeys_dictInsert` (insertion keeps the keys sorted) and the
  lookup lemmas `lookup_dictInsert_self`, `lookup_dictInsert_of_ne`.
* `SortedDict` — the `BTreeMap` itself: entries that carry their key order as a field, built
  with `SortedDict.empty` and `SortedDict.insert`. The decoder's loop and the builders fill one,
  so no proof about what they build re-derives the key order. A `Bencode.dict` holds the
  entries of such a map; `Encode.lean` shows that on sorted entries the stored order the
  encoder emits is the key order spec §4.4 asks for (`encodeSorted_eq`).
-/

namespace RustBT

/-! ## Machine integers -/

/-- Rust's `i64`: a signed 64-bit integer, its range carried as fields.
Source: spec §3 `Int(i64)`
Kind: D -/
structure I64 where
  /-- The integer value. -/
  val : Int
  /-- `i64::MIN ≤ val`, `i64::MIN = -2^63`. -/
  lo : -9223372036854775808 ≤ val
  /-- `val ≤ i64::MAX`, i.e. `val < 2^63`. -/
  hi : val < 9223372036854775808
  deriving DecidableEq

/-- Two `i64`s with the same value are equal.
Source: none: infrastructure
Kind: L -/
@[ext] theorem I64.ext {a b : I64} (h : a.val = b.val) : a = b := by
  cases a; cases b; cases h; rfl

/-! ## The token scanner -/

/-- `BEN_END`: `e`, closing a container or an integer.
Source: `lib.rs` `BEN_END`
Kind: D -/
def benEnd : UInt8 := 101

/-- `DICT_START`: `d`.
Source: `lib.rs` `DICT_START`
Kind: D -/
def dictStart : UInt8 := 100

/-- `LIST_START`: `l`.
Source: `lib.rs` `LIST_START`
Kind: D -/
def listStart : UInt8 := 108

/-- `INT_START`: `i`.
Source: `lib.rs` `INT_START`
Kind: D -/
def intStart : UInt8 := 105

/-- `BYTE_LEN_LOW`: `0`, the lowest length-prefix digit.
Source: `lib.rs` `BYTE_LEN_LOW`
Kind: D -/
def byteLenLow : UInt8 := 48

/-- `BYTE_LEN_HIGH`: `9`, the highest length-prefix digit.
Source: `lib.rs` `BYTE_LEN_HIGH`
Kind: D -/
def byteLenHigh : UInt8 := 57

/-- `BYTE_LEN_END`: `:`, ending a length prefix.
Source: `lib.rs` `BYTE_LEN_END`
Kind: D -/
def byteLenEnd : UInt8 := 58

/-- `BYTE_LEN_LOW` as a number. Source: none: infrastructure. Kind: L -/
@[simp] theorem toNat_byteLenLow : byteLenLow.toNat = 48 := rfl
/-- `BYTE_LEN_HIGH` as a number. Source: none: infrastructure. Kind: L -/
@[simp] theorem toNat_byteLenHigh : byteLenHigh.toNat = 57 := rfl

/-- What the byte at a value position starts.
Source: spec §4.1
Kind: D -/
inductive Token where
  | int
  | list
  | dict
  | bytes
  | invalid
  deriving DecidableEq, Repr

/-- Whether a byte is a decimal digit, `BYTE_LEN_LOW..=BYTE_LEN_HIGH`.
Source: `lib.rs` `BYTE_LEN_LOW`, `BYTE_LEN_HIGH`
Kind: D -/
def isDigit (b : UInt8) : Bool := byteLenLow ≤ b && b ≤ byteLenHigh

/-- The token scanner: the sigil at the cursor, or a length-prefix digit.
Source: spec §4.1; `lib.rs` lines 55-62
Kind: D -/
def scan (b : UInt8) : Token :=
  if b = intStart then .int
  else if b = listStart then .list
  else if b = dictStart then .dict
  else if isDigit b then .bytes
  else .invalid

/-- `i` scans as an integer. Source: spec §4.1. Kind: L -/
@[simp] theorem scan_intStart : scan intStart = .int := rfl
/-- `l` scans as a list. Source: spec §4.1. Kind: L -/
@[simp] theorem scan_listStart : scan listStart = .list := rfl
/-- `d` scans as a dictionary. Source: spec §4.1. Kind: L -/
@[simp] theorem scan_dictStart : scan dictStart = .dict := rfl

/-- A digit scans as the start of a byte string.
Source: none: infrastructure
Kind: L -/
theorem scan_of_isDigit {b : UInt8} (h : isDigit b = true) : scan b = .bytes := by
  have h' : 48 ≤ b.toNat ∧ b.toNat ≤ 57 := by
    simpa [isDigit, byteLenLow, byteLenHigh, UInt8.le_def] using h
  have hne : ∀ c : UInt8, 57 < c.toNat → b ≠ c := fun c hc hb => by subst hb; omega
  simp [scan, h, hne intStart (by decide), hne listStart (by decide), hne dictStart (by decide)]

/-- Only the integer sigil scans as an integer; likewise for lists and dictionaries.
Source: none: infrastructure
Kind: L -/
theorem eq_of_scan {b : UInt8} :
    (scan b = .int → b = intStart) ∧ (scan b = .list → b = listStart) ∧
      (scan b = .dict → b = dictStart) ∧ (scan b = .bytes → isDigit b = true) := by
  unfold scan; split_ifs <;> simp_all

/-! ## Values -/

/-- A bencode value (spec §3). A dictionary is the association list of its entries, in the
order a `BTreeMap` iterates them.
Source: spec §3 "Bencode node"
Kind: D -/
inductive Bencode where
  | int (n : I64)
  | bytes (b : List UInt8)
  | list (xs : List Bencode)
  | dict (es : List (List UInt8 × Bencode))

/-! ## Keys and dictionaries -/

/-- Byte-wise lexicographic order on keys: Rust's `Ord for [u8]`.
Source: spec §3 "strict lexicographic ascending order by raw bytes"
Kind: D -/
def keyLt (a b : List UInt8) : Prop := a.map UInt8.toNat < b.map UInt8.toNat

/-- Key order is decidable, so dictionaries can be checked by evaluation.
Source: none: infrastructure
Kind: D -/
instance : DecidableRel keyLt := fun _ _ => inferInstanceAs (Decidable (_ < _))

/-- `keyLt` is irreflexive. Source: none: infrastructure. Kind: L -/
theorem keyLt_irrefl (a : List UInt8) : ¬ keyLt a a := lt_irrefl (a.map UInt8.toNat)

/-- `keyLt` is transitive. Source: none: infrastructure. Kind: L -/
theorem keyLt_trans {a b c : List UInt8} (h₁ : keyLt a b) (h₂ : keyLt b c) : keyLt a c :=
  lt_trans h₁ h₂

/-- `keyLt` is asymmetric. Source: none: infrastructure. Kind: L -/
theorem keyLt_asymm {a b : List UInt8} (h : keyLt a b) : ¬ keyLt b a := lt_asymm h

/-- Keys are totally ordered: distinct keys compare one way or the other.
Source: none: infrastructure
Kind: L -/
theorem keyLt_trichotomy (a b : List UInt8) : keyLt a b ∨ a = b ∨ keyLt b a := by
  rcases lt_trichotomy (a.map UInt8.toNat) (b.map UInt8.toNat) with h | h | h
  · exact .inl h
  · exact .inr (.inl (List.map_injective_iff.mpr (fun _ _ e => UInt8.toNat.inj e) h))
  · exact .inr (.inr h)

section Dict

variable {α : Type}

/-- The keys of a dictionary are strictly ascending.
Source: spec §3 "keys must be unique ... strict lexicographic ascending order"
Kind: D -/
def SortedKeys (es : List (List UInt8 × α)) : Prop := (es.map Prod.fst).Pairwise keyLt

/-- Sortedness is decidable. Source: none: infrastructure. Kind: D -/
instance (es : List (List UInt8 × α)) : Decidable (SortedKeys es) :=
  inferInstanceAs (Decidable (List.Pairwise _ _))

/-- `BTreeMap::insert` on a key-sorted association list: replaces the entry of an equal key,
otherwise inserts before the first greater key.
Source: spec §4.3 "maintain sorted order on insert"; `metainfo.rs` test helper `BTreeMap::insert`
Kind: D -/
def dictInsert (k : List UInt8) (v : α) : List (List UInt8 × α) → List (List UInt8 × α)
  | [] => [(k, v)]
  | (k', v') :: es =>
    if keyLt k k' then (k, v) :: (k', v') :: es
    else if k = k' then (k, v) :: es
    else (k', v') :: dictInsert k v es

/-- The empty dictionary is sorted. Source: none: infrastructure. Kind: L -/
@[simp] theorem sortedKeys_nil : SortedKeys ([] : List (List UInt8 × α)) := List.Pairwise.nil

/-- A dictionary is sorted when its first key is below the rest and the rest is sorted.
Source: none: infrastructure
Kind: L -/
theorem sortedKeys_cons {k : List UInt8} {v : α} {es : List (List UInt8 × α)} :
    SortedKeys ((k, v) :: es) ↔ (∀ p ∈ es, keyLt k p.1) ∧ SortedKeys es := by
  simp [SortedKeys]

/-- In a sorted dictionary, a key above the last key is above every key.
Source: none: infrastructure
Kind: L -/
theorem gt_all_of_gt_getLast {es : List (List UInt8 × α)} {k : List UInt8} {last : List UInt8 × α}
    (hs : SortedKeys es) (hl : es.getLast? = some last) (hk : keyLt last.1 k) :
    ∀ p ∈ es, keyLt p.1 k := by
  obtain ⟨init, rfl⟩ : ∃ init, es = init ++ [last] := ⟨es.dropLast, (List.dropLast_append_getLast?
    _ hl).symm⟩
  simp only [SortedKeys, List.map_append, List.pairwise_append, List.mem_map] at hs
  intro p hp
  rcases List.mem_append.mp hp with hp | hp
  · exact keyLt_trans (hs.2.2 _ ⟨p, hp, rfl⟩ _ ⟨last, by simp, rfl⟩) hk
  · simp only [List.mem_singleton] at hp; subst hp; exact hk

/-- A key above every stored key is appended.
Source: none: infrastructure
Kind: L -/
theorem dictInsert_of_gt {k : List UInt8} {v : α} :
    ∀ {es : List (List UInt8 × α)}, (∀ p ∈ es, keyLt p.1 k) → dictInsert k v es = es ++ [(k, v)]
  | [], _ => rfl
  | (k', v') :: es, h => by
    have h' : keyLt k' k := h (k', v') (List.mem_cons_self _ _)
    have hne : k ≠ k' := fun e => keyLt_irrefl k (e ▸ h')
    rw [dictInsert, if_neg (keyLt_asymm h'), if_neg hne,
      dictInsert_of_gt (fun p hp => h p (List.mem_cons_of_mem _ hp))]
    rfl

/-- An entry of `dictInsert k v es` is the new entry or an old one.
Source: none: infrastructure
Kind: L -/
theorem mem_dictInsert {k : List UInt8} {v : α} {p : List UInt8 × α} :
    ∀ {es : List (List UInt8 × α)}, p ∈ dictInsert k v es → p = (k, v) ∨ p ∈ es
  | [], hp => by simpa [dictInsert] using hp
  | (k', v') :: es, hp => by
    unfold dictInsert at hp
    split_ifs at hp with h₁ h₂
    · exact List.mem_cons.mp hp
    · rcases List.mem_cons.mp hp with rfl | hp
      exacts [.inl rfl, .inr (List.mem_cons_of_mem _ hp)]
    · rcases List.mem_cons.mp hp with rfl | hp
      · exact .inr (List.mem_cons_self _ _)
      · exact (mem_dictInsert hp).imp_right (List.mem_cons_of_mem _)

/-- A property of every entry survives an insertion of an entry that has it.
Source: none: infrastructure
Kind: L -/
theorem forall_mem_dictInsert {P : List UInt8 × α → Prop} {k : List UInt8} {v : α}
    {es : List (List UInt8 × α)} (hv : P (k, v)) (hes : ∀ p ∈ es, P p) :
    ∀ p ∈ dictInsert k v es, P p :=
  fun p hp => (mem_dictInsert hp).elim (fun e => e ▸ hv) (hes p)

/-- Insertion keeps the keys sorted.
Source: none: infrastructure
Kind: L -/
theorem sortedKeys_dictInsert (k : List UInt8) (v : α) :
    ∀ {es : List (List UInt8 × α)}, SortedKeys es → SortedKeys (dictInsert k v es)
  | [], _ => by simp [dictInsert, SortedKeys]
  | (k', v') :: es, hs => by
    rw [sortedKeys_cons] at hs
    unfold dictInsert
    split_ifs with hlt heq
    · exact sortedKeys_cons.mpr ⟨fun p hp => by
        rcases List.mem_cons.mp hp with rfl | hp
        exacts [hlt, keyLt_trans hlt (hs.1 p hp)], sortedKeys_cons.mpr hs⟩
    · subst heq; exact sortedKeys_cons.mpr hs
    · refine sortedKeys_cons.mpr ⟨forall_mem_dictInsert ?_ hs.1, sortedKeys_dictInsert k v hs.2⟩
      rcases keyLt_trichotomy k k' with h | h | h
      exacts [absurd h hlt, absurd h heq, h]

/-- Looking up the key just inserted finds its value.
Source: none: infrastructure
Kind: L -/
@[simp] theorem lookup_dictInsert_self (k : List UInt8) (v : α) :
    ∀ es : List (List UInt8 × α), (dictInsert k v es).lookup k = some v
  | [] => by simp [dictInsert]
  | (k', v') :: es => by
    unfold dictInsert
    split_ifs with h₁ h₂
    · simp
    · simp
    · simp [List.lookup_cons, beq_false_of_ne h₂, lookup_dictInsert_self k v es]

/-- Inserting one key leaves the lookup of every other key unchanged.
Source: none: infrastructure
Kind: L -/
theorem lookup_dictInsert_of_ne {k k₀ : List UInt8} (v : α) (hne : k₀ ≠ k) :
    ∀ es : List (List UInt8 × α), (dictInsert k v es).lookup k₀ = es.lookup k₀
  | [] => by simp [dictInsert, List.lookup_cons, beq_false_of_ne hne]
  | (k', v') :: es => by
    unfold dictInsert
    split_ifs with h₁ h₂
    · simp [List.lookup_cons, beq_false_of_ne hne]
    · subst h₂; simp [List.lookup_cons, beq_false_of_ne hne]
    · simp [List.lookup_cons, lookup_dictInsert_of_ne v hne es]

/-- A lookup after an insertion: the inserted value at its key, the old lookup elsewhere.
Source: none: infrastructure
Kind: L -/
theorem lookup_dictInsert (k k₀ : List UInt8) (v : α) (es : List (List UInt8 × α)) :
    (dictInsert k v es).lookup k₀ = if k₀ = k then some v else es.lookup k₀ := by
  split_ifs with h
  · rw [h, lookup_dictInsert_self]
  · exact lookup_dictInsert_of_ne v h es

/-! ## Maps that carry their key order -/

/-- A `BTreeMap` keyed by byte strings: its entries in iteration order, which is strictly
ascending key order, carried as a field. The decoder and the builders fill one of these, so
every dictionary they produce is sorted by construction and its stored order is the key order
in which the encoder must emit it (spec §4.4).
Source: spec §3 "keys must be unique ... strict lexicographic ascending order"; §4.3
Kind: D -/
structure SortedDict (α : Type) where
  /-- The entries, in ascending key order. -/
  entries : List (List UInt8 × α)
  /-- The keys are strictly ascending. -/
  sorted : SortedKeys entries

namespace SortedDict

/-- `BTreeMap::new()`: no entries.
Source: spec §4.3
Kind: D -/
def empty : SortedDict α := ⟨[], sortedKeys_nil⟩

/-- `BTreeMap::insert`: `dictInsert` on the entries, which keeps them sorted.
Source: spec §4.3 "maintain sorted order on insert"
Kind: D -/
def insert (k : List UInt8) (v : α) (d : SortedDict α) : SortedDict α :=
  ⟨dictInsert k v d.entries, sortedKeys_dictInsert k v d.sorted⟩

/-- The empty map has no entries. Source: none: infrastructure. Kind: L -/
@[simp] theorem entries_empty : (empty : SortedDict α).entries = [] := rfl

/-- Insertion is `dictInsert` on the entries. Source: none: infrastructure. Kind: L -/
@[simp] theorem entries_insert (k : List UInt8) (v : α) (d : SortedDict α) :
    (d.insert k v).entries = dictInsert k v d.entries := rfl

end SortedDict

end Dict

end RustBT
