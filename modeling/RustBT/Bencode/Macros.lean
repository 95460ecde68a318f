import RustBT.Bencode.Complete

/-!
# The construction macros of `lib.rs`

`ben_map!`, `ben_list!`, `ben_bytes!` and `ben_int!` build a `BencodeMut`: a fresh dictionary
filled by `insert`, pair by pair in the order written; a fresh list filled by `push`; or a leaf.
The dictionary is a `BTreeMap` (`SortedDict`), so its keys are sorted whatever is inserted.

* `benMap`, `benList`, `benInt` — the macros; `ben_bytes!` is the constructor `Bencode.bytes`.
* `lookup_foldl_insert`, `forall_mem_foldl_insert` — the insert loop from any map: what a
  lookup finds, and a property of every entry.
* `lookup_benMap` — a built map has strictly ascending keys, and each key holds the value of the
  last pair written with it.
* `eq_of_sortedKeys_of_lookup` — a key-sorted dictionary is determined by its lookups; so
  `benMap_eq_iff`: two invocations build the same value (and the same bytes) exactly when they
  agree on the last value written for every key, whatever the order of the pairs.
* `BenExpr`, `BenExpr.eval` — a nesting of macro invocations and its expansion;
  `keysSorted_eval`: every value built with the macros has sorted keys at every level, so
  `decode_encode_eval`: the strict decoder reads its encoding back within the depth limit.
-/

namespace RustBT

open Bencode (encode depth KeysSorted WellFormed)

/-! ## The macros -/

/-- `ben_map!{k => v, ...}`: `BencodeMut::new_dict()`, then `map.insert(k, v)` for each pair,
in the order written.
Source: `lib.rs` lines 64-83
Kind: D -/
def benMap (entries : List (List UInt8 × Bencode)) : Bencode :=
  .dict (entries.foldl (fun d e => d.insert e.1 e.2) SortedDict.empty).entries

/-- `ben_list![v, ...]`: `BencodeMut::new_list()`, then `list.push(v)` for each value.
Source: `lib.rs` lines 85-103
Kind: D -/
def benList (items : List Bencode) : Bencode :=
  .list (items.foldl (fun l x => l ++ [x]) [])

/-- `ben_int!(n)`: `BencodeMut::new_int(n)`.
Source: `lib.rs` lines 118-128
Kind: D -/
def benInt (n : I64) : Bencode := .int n

/-! ## The insert loop -/

section InsertLoop

variable {α : Type}

/-- A lookup after a run of inserts: the last value written for the key, otherwise the lookup
in the starting dictionary.
Source: none: infrastructure
Kind: L -/
theorem lookup_foldl_insert (k : List UInt8) :
    ∀ (es : List (List UInt8 × α)) (d : SortedDict α),
      (es.foldl (fun d e => d.insert e.1 e.2) d).entries.lookup k =
        (es.reverse.lookup k).or (d.entries.lookup k)
  | [], d => by simp
  | (k', v) :: es, d => by
    rw [List.foldl_cons, lookup_foldl_insert k es, SortedDict.entries_insert, lookup_dictInsert,
      List.reverse_cons, List.lookup_append, Option.or_assoc]
    by_cases h : k = k'
    · simp [h]
    · simp [h, List.lookup_cons, beq_false_of_ne h]

/-- A property of every entry written and of every starting entry holds of every entry after
the inserts.
Source: none: infrastructure
Kind: L -/
theorem forall_mem_foldl_insert {P : List UInt8 × α → Prop} :
    ∀ {es : List (List UInt8 × α)} {d : SortedDict α}, (∀ p ∈ es, P p) →
      (∀ p ∈ d.entries, P p) → ∀ p ∈ (es.foldl (fun d e => d.insert e.1 e.2) d).entries, P p
  | [], _, _, hd => hd
  | e :: es, _, hes, hd => by
    rw [List.foldl_cons]
    exact forall_mem_foldl_insert (fun p hp => hes p (List.mem_cons_of_mem e hp))
      (forall_mem_dictInsert (hes e (List.mem_cons_self e es)) hd)

/-- A key that no entry has is not found.
Source: none: infrastructure
Kind: L -/
theorem lookup_eq_none_of_forall_ne {k : List UInt8} {es : List (List UInt8 × α)}
    (h : ∀ p ∈ es, k ≠ p.1) : es.lookup k = none :=
  List.lookup_eq_none_iff.mpr fun p hp => bne_iff_ne.mpr (h p hp)

/-- In a key-sorted dictionary, a key below the first key is not found.
Source: none: infrastructure
Kind: L -/
theorem lookup_eq_none_of_lt {k k' : List UInt8} {v : α} {es : List (List UInt8 × α)}
    (hs : SortedKeys ((k', v) :: es)) (hk : keyLt k k') : ((k', v) :: es).lookup k = none :=
  lookup_eq_none_of_forall_ne fun p hp e => by
    rcases List.mem_cons.mp hp with rfl | hp
    · exact keyLt_irrefl k (e ▸ hk)
    · exact keyLt_asymm hk (e ▸ (sortedKeys_cons.mp hs).1 p hp)

/-- **A sorted dictionary is determined by its lookups.** Two key-sorted association lists that
agree on every lookup are equal: a `BTreeMap` has one iteration order.
Source: none: infrastructure
Kind: L -/
theorem eq_of_sortedKeys_of_lookup :
    ∀ {es fs : List (List UInt8 × α)}, SortedKeys es → SortedKeys fs →
      (∀ k, es.lookup k = fs.lookup k) → es = fs
  | [], [], _, _, _ => rfl
  | [], (k, v) :: _, _, _, h => by simpa using h k
  | (k, v) :: _, [], _, _, h => by simpa using h k
  | (k, v) :: es, (k', v') :: fs, hes, hfs, h => by
    have hk : k = k' := by
      rcases keyLt_trichotomy k k' with hlt | heq | hgt
      · simpa [lookup_eq_none_of_lt hfs hlt] using h k
      · exact heq
      · simpa [lookup_eq_none_of_lt hes hgt] using (h k').symm
    subst hk
    have hv : v = v' := by simpa using h k
    have htail : ∀ k₀, es.lookup k₀ = fs.lookup k₀ := fun k₀ => by
      by_cases e : k₀ = k
      · have hes' := (sortedKeys_cons.mp hes).1
        have hfs' := (sortedKeys_cons.mp hfs).1
        subst e
        rw [lookup_eq_none_of_forall_ne fun p hp e => keyLt_irrefl _ (e ▸ hes' p hp),
          lookup_eq_none_of_forall_ne fun p hp e => keyLt_irrefl _ (e ▸ hfs' p hp)]
      · simpa [List.lookup_cons, beq_false_of_ne e] using h k₀
    rw [hv, eq_of_sortedKeys_of_lookup (sortedKeys_cons.mp hes).2 (sortedKeys_cons.mp hfs).2 htail]

end InsertLoop

/-! ## What `ben_map!` builds -/

/-- **`ben_map!` is a last-write-wins sorted map.** Whatever pairs are written, in any order
and with repeated keys, the built dictionary has strictly ascending keys, and looking up a key
gives the value of the last pair written with it (`None` when no pair has it).
Source: `lib.rs` lines 64-83
Kind: P -/
theorem lookup_benMap (entries : List (List UInt8 × Bencode)) :
    ∃ es, benMap entries = .dict es ∧ SortedKeys es ∧
      ∀ k, es.lookup k = entries.reverse.lookup k :=
  ⟨_, rfl, SortedDict.sorted _, fun k => by simp [lookup_foldl_insert]⟩

/-- **`ben_map!` depends only on the last value written per key.** Two invocations build the
same value, and so encode to the same bytes, exactly when they agree on the last value written
for every key: the order of pairs with distinct keys and the pairs later overwritten make no
difference.
Source: `lib.rs` lines 64-83
Kind: P -/
theorem benMap_eq_iff (entries entries' : List (List UInt8 × Bencode)) :
    benMap entries = benMap entries' ↔ ∀ k, entries.reverse.lookup k = entries'.reverse.lookup k := by
  have hl : ∀ (es : List (List UInt8 × Bencode)) k,
      (es.foldl (fun d e => d.insert e.1 e.2) SortedDict.empty).entries.lookup k =
        es.reverse.lookup k :=
    fun es k => by simp [lookup_foldl_insert]
  rw [benMap, benMap, Bencode.dict.injEq]
  exact ⟨fun h k => by rw [← hl, ← hl, h], fun h => eq_of_sortedKeys_of_lookup
    (SortedDict.sorted _) (SortedDict.sorted _) fun k => by rw [hl, hl, h]⟩

/-- The example of `lib.rs`: `ben_map!{"lucky_number" => ben_int!(7)}` encodes to
`d12:lucky_numberi7ee`. -/
example : encode (benMap [("lucky_number".toList.map (·.toNat.toUInt8),
    benInt ⟨7, by decide, by decide⟩)]) = "d12:lucky_numberi7ee".toList.map (·.toNat.toUInt8) := by
  decide

/-! ## Nested invocations -/

/-- A nesting of the macros: `ben_map!` of keyed expressions, `ben_list!` of expressions,
`ben_bytes!` and `ben_int!`.
Source: `lib.rs` lines 64-128
Kind: D -/
inductive BenExpr where
  | map (entries : List (List UInt8 × BenExpr))
  | list (items : List BenExpr)
  | bytes (b : List UInt8)
  | int (n : I64)

mutual
/-- The value a nesting of macro invocations builds.
Source: `lib.rs` lines 64-128
Kind: D -/
def BenExpr.eval : BenExpr → Bencode
  | .map entries => benMap (BenExpr.evalEntries entries)
  | .list items => benList (BenExpr.evalItems items)
  | .bytes b => .bytes b
  | .int n => benInt n

/-- The values of the arguments of `ben_list!`, in order.
Source: `lib.rs` lines 85-103
Kind: D -/
def BenExpr.evalItems : List BenExpr → List Bencode
  | [] => []
  | x :: xs => x.eval :: BenExpr.evalItems xs

/-- The pairs given to `ben_map!`, their values built.
Source: `lib.rs` lines 64-83
Kind: D -/
def BenExpr.evalEntries : List (List UInt8 × BenExpr) → List (List UInt8 × Bencode)
  | [] => []
  | (k, x) :: es => (k, x.eval) :: BenExpr.evalEntries es
end

/-- `ben_list!` keeps its arguments in order.
Source: `lib.rs` lines 85-103
Kind: L -/
theorem benList_eq (items : List Bencode) : benList items = .list items := by
  suffices ∀ l : List Bencode, items.foldl (fun l x => l ++ [x]) l = l ++ items by
    simp [benList, this]
  induction items with
  | nil => simp
  | cons x xs ih => intro l; simp [ih]

/-- An argument of `ben_list!` is built from one of the expressions given.
Source: none: infrastructure
Kind: L -/
theorem mem_evalItems {t : Bencode} : ∀ {xs : List BenExpr}, t ∈ BenExpr.evalItems xs →
    ∃ x ∈ xs, t = x.eval
  | x :: xs, h => by
    rcases List.mem_cons.mp h with rfl | h
    · exact ⟨x, .head _, rfl⟩
    · obtain ⟨y, hy, rfl⟩ := mem_evalItems h; exact ⟨y, .tail _ hy, rfl⟩

/-- A value given to `ben_map!` is built from one of the expressions given.
Source: none: infrastructure
Kind: L -/
theorem mem_evalEntries {p : List UInt8 × Bencode} :
    ∀ {es : List (List UInt8 × BenExpr)}, p ∈ BenExpr.evalEntries es →
      ∃ q ∈ es, p.2 = q.2.eval
  | (k, x) :: es, h => by
    rcases List.mem_cons.mp h with rfl | h
    · exact ⟨(k, x), .head _, rfl⟩
    · obtain ⟨q, hq, e⟩ := mem_evalEntries h; exact ⟨q, .tail _ hq, e⟩

/-- **Every value built with the macros is canonical.** Whatever the nesting, and whatever
order and repetition of keys each `ben_map!` is given, every dictionary in the built value has
strictly ascending keys.
Source: `lib.rs` lines 64-128
Kind: L -/
theorem keysSorted_eval : ∀ e : BenExpr, KeysSorted e.eval
  | .map entries => by
    refine ⟨SortedDict.sorted _, keysSortedDict_iff.mpr ?_⟩
    refine forall_mem_foldl_insert (fun p hp => ?_) (by simp)
    obtain ⟨q, hq, e⟩ := mem_evalEntries hp
    rw [e]
    have : sizeOf q.2 < 1 + sizeOf entries := by
      have := List.sizeOf_lt_of_mem hq
      cases q; simp only [Prod.mk.sizeOf_spec] at this ⊢; omega
    exact keysSorted_eval q.2
  | .list items => by
    simp only [BenExpr.eval, benList_eq, KeysSorted]
    refine keysSortedList_iff.mpr fun t ht => ?_
    obtain ⟨x, hx, rfl⟩ := mem_evalItems ht
    have : sizeOf x < 1 + sizeOf items := by have := List.sizeOf_lt_of_mem hx; omega
    exact keysSorted_eval x
  | .bytes _ => trivial
  | .int _ => trivial

/-- **The macros build what the strict decoder reads back.** For every nesting of macro
invocations whose value is at most `max_recursion_depth` containers deep, decoding the
encoding of the built value, with either key mode, gives the value back.
Source: `lib.rs` lines 64-128; spec §8 property 2
Kind: P -/
theorem decode_encode_eval (opts : BDecodeOpt) (e : BenExpr)
    (hdepth : depth e.eval ≤ opts.maxRecursionDepth) :
    decode (encode e.eval) opts = .ok e.eval :=
  decode_encode opts ⟨keysSorted_eval e, hdepth⟩

/-- The invocations of the `lib.rs` example, `ben_map!{"lucky_number" => ben_int!(7)}`, nested
in a list after a repeated key: `ben_list![ben_map!{"b" => .., "a" => .., "b" => ..}, ..]`.
Source: `lib.rs` lines 29-31 (an input)
Kind: D -/
def luckyNumbers : BenExpr :=
  .list [.map [([98], .int ⟨1, by decide, by decide⟩), ([97], .bytes [120]),
      ([98], .list [.int ⟨2, by decide, by decide⟩])],
    .map [("lucky_number".toList.map (·.toNat.toUInt8), .int ⟨7, by decide, by decide⟩)]]

/-- The nested example is three containers deep and reads back under the default options.
Source: `lib.rs` lines 29-33
Kind: L -/
theorem decode_encode_eval_luckyNumbers :
    depth luckyNumbers.eval ≤ BDecodeOpt.maxRecursionDepth {} ∧
      decode (encode luckyNumbers.eval) {} = .ok luckyNumbers.eval :=
  have hdepth : depth luckyNumbers.eval ≤ BDecodeOpt.maxRecursionDepth {} := by decide
  ⟨hdepth, decode_encode_eval {} luckyNumbers hdepth⟩

end RustBT
