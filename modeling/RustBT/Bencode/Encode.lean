import Mathlib.Data.List.Sort
import RustBT.Bencode.Decimal

/-!
# The encoder and well-formed values

`Bencode::encode` (spec §4.4): an integer is `i`, its decimal text and `e`; a byte string is its
decimal length, `:` and the raw bytes; a list and a dictionary are their items between a sigil
and `e`, the dictionary's entries in their stored (`BTreeMap`) order.

The well-formed values are the ones the decoder can produce under a recursion limit:
`Bencode.WellFormed maxDepth t` asks for strictly ascending keys in every dictionary
(`KeysSorted`) and at most `maxDepth` nested containers (`depth`).

* `encode_ne_nil_head` — every encoding starts with a byte other than `e`, so a container loop
  never stops inside an item;
* `length_encodeList_ge`, `length_encodeDict_ge` — an encoding has at least one byte per item,
  which is what bounds the decoder's loops by the length of the input;
* `encodeSorted_eq` — on values whose dictionaries have sorted keys, the stored order `encode`
  emits is the key order in which spec §4.4 words the encoding (`encodeSorted`).
-/

namespace RustBT

/-- A byte string: its decimal length, `:` and its bytes.
Source: spec §4.4 "`Bytes(b)` → ASCII decimal length + `:` + raw bytes"
Kind: D -/
def encodeBytes (b : List UInt8) : List UInt8 := decimal b.length ++ byteLenEnd :: b

namespace Bencode

mutual
/-- `Bencode::encode`: the bencode spelling of a value.
Source: spec §4.4
Kind: D -/
def encode : Bencode → List UInt8
  | .int n => intStart :: encodeInt n.val ++ [benEnd]
  | .bytes b => encodeBytes b
  | .list xs => listStart :: encodeList xs ++ [benEnd]
  | .dict es => dictStart :: encodeDict es ++ [benEnd]

/-- The items of a list, one after another.
Source: spec §4.4 "`List(xs)` → `l` + concat(encode(x) for x in xs) + `e`"
Kind: D -/
def encodeList : List Bencode → List UInt8
  | [] => []
  | x :: xs => encode x ++ encodeList xs

/-- The entries of a dictionary in stored order, each key as a byte string before its value.
Source: spec §4.4 "`Dict(m)` → `d` + concat(encode(k_bytes) + encode(v) ...) + `e`"
Kind: D -/
def encodeDict : List (List UInt8 × Bencode) → List UInt8
  | [] => []
  | (k, v) :: es => encodeBytes k ++ encode v ++ encodeDict es
end

mutual
/-- Nesting depth: the number of containers on the longest path from the root.
Source: spec §4.2 step 6 "Depth incremented at every container entry"
Kind: D -/
def depth : Bencode → Nat
  | .int _ => 0
  | .bytes _ => 0
  | .list xs => depthList xs + 1
  | .dict es => depthDict es + 1

/-- The greatest depth of the items of a list.
Source: spec §4.2 step 6
Kind: D -/
def depthList : List Bencode → Nat
  | [] => 0
  | x :: xs => max (depth x) (depthList xs)

/-- The greatest depth of the values of a dictionary.
Source: spec §4.2 step 6
Kind: D -/
def depthDict : List (List UInt8 × Bencode) → Nat
  | [] => 0
  | (_, v) :: es => max (depth v) (depthDict es)
end

mutual
/-- Every dictionary in the value has strictly ascending keys.
Source: spec §3 "keys must be unique; on decode, keys must appear in strict lexicographic
ascending order"
Kind: D -/
def KeysSorted : Bencode → Prop
  | .int _ => True
  | .bytes _ => True
  | .list xs => KeysSortedList xs
  | .dict es => SortedKeys es ∧ KeysSortedDict es

/-- Every item of a list has sorted keys throughout.
Source: spec §3
Kind: D -/
def KeysSortedList : List Bencode → Prop
  | [] => True
  | x :: xs => KeysSorted x ∧ KeysSortedList xs

/-- Every value of a dictionary has sorted keys throughout.
Source: spec §3
Kind: D -/
def KeysSortedDict : List (List UInt8 × Bencode) → Prop
  | [] => True
  | (_, v) :: es => KeysSorted v ∧ KeysSortedDict es
end

/-- The values a decoder with recursion limit `maxDepth` and sorted-key enforcement produces:
sorted keys everywhere and at most `maxDepth` nested containers.
Source: spec §4.2 steps 5-6; §8 properties 2, 3, 6
Kind: D -/
structure WellFormed (maxDepth : Nat) (t : Bencode) : Prop where
  keysSorted : KeysSorted t
  depth_le : depth t ≤ maxDepth

/-! ## Equation lemmas -/

/-- Equation lemma for integers. Source: spec §4.4. Kind: L -/
@[simp] theorem encode_int (n : I64) : encode (.int n) = intStart :: encodeInt n.val ++ [benEnd] :=
  rfl
/-- Equation lemma for byte strings. Source: spec §4.4. Kind: L -/
@[simp] theorem encode_bytes (b : List UInt8) : encode (.bytes b) = encodeBytes b := rfl
/-- Equation lemma for lists. Source: spec §4.4. Kind: L -/
@[simp] theorem encode_list (xs : List Bencode) :
    encode (.list xs) = listStart :: encodeList xs ++ [benEnd] := rfl
/-- Equation lemma for dictionaries. Source: spec §4.4. Kind: L -/
@[simp] theorem encode_dict (es : List (List UInt8 × Bencode)) :
    encode (.dict es) = dictStart :: encodeDict es ++ [benEnd] := rfl
/-- No items encode to nothing. Source: spec §4.4. Kind: L -/
@[simp] theorem encodeList_nil : encodeList [] = [] := rfl
/-- The first item, then the rest. Source: spec §4.4. Kind: L -/
@[simp] theorem encodeList_cons (x : Bencode) (xs : List Bencode) :
    encodeList (x :: xs) = encode x ++ encodeList xs := rfl
/-- No entries encode to nothing. Source: spec §4.4. Kind: L -/
@[simp] theorem encodeDict_nil : encodeDict [] = [] := rfl
/-- The first key and value, then the rest. Source: spec §4.4. Kind: L -/
@[simp] theorem encodeDict_cons (k : List UInt8) (v : Bencode) (es : List (List UInt8 × Bencode)) :
    encodeDict ((k, v) :: es) = encodeBytes k ++ encode v ++ encodeDict es := rfl

/-- The items of a concatenation encode one after the other. Source: none: infrastructure.
Kind: L -/
theorem encodeList_append (xs ys : List Bencode) :
    encodeList (xs ++ ys) = encodeList xs ++ encodeList ys := by
  induction xs <;> simp_all

/-- The entries of a concatenation encode one after the other. Source: none: infrastructure.
Kind: L -/
theorem encodeDict_append (es fs : List (List UInt8 × Bencode)) :
    encodeDict (es ++ fs) = encodeDict es ++ encodeDict fs := by
  induction es with
  | nil => rfl
  | cons e es ih => obtain ⟨k, v⟩ := e; simp [ih]

/-! ## Shape of an encoding -/

/-- A byte-string encoding starts with a digit.
Source: none: infrastructure
Kind: L -/
theorem encodeBytes_head (b : List UInt8) :
    ∃ c rest, encodeBytes b = c :: rest ∧ isDigit c = true := by
  have hc := canonical_decimal b.length
  obtain ⟨c, cs, h⟩ := List.exists_cons_of_ne_nil hc.ne_nil
  exact ⟨c, cs ++ byteLenEnd :: b, by simp [encodeBytes, h], hc.digits c (by simp [h])⟩

/-- `e` is not a digit. Source: none: infrastructure. Kind: L -/
theorem isDigit_benEnd : isDigit benEnd = false := by decide

/-- Every encoding starts with a byte other than `e`.
Source: none: infrastructure
Kind: L -/
theorem encode_ne_nil_head (t : Bencode) : ∃ c rest, encode t = c :: rest ∧ c ≠ benEnd := by
  cases t with
  | int n => exact ⟨_, _, rfl, by decide⟩
  | bytes b =>
    obtain ⟨c, rest, h, hd⟩ := encodeBytes_head b
    exact ⟨c, rest, h, fun e => by rw [e, isDigit_benEnd] at hd; contradiction⟩
  | list xs => exact ⟨_, _, rfl, by decide⟩
  | dict es => exact ⟨_, _, rfl, by decide⟩

/-- Every encoding is non-empty. Source: none: infrastructure. Kind: L -/
theorem length_encode_pos (t : Bencode) : 0 < (encode t).length := by
  obtain ⟨c, rest, h, -⟩ := encode_ne_nil_head t; simp [h]

/-- A list's encoding has at least one byte per item.
Source: none: infrastructure
Kind: L -/
theorem length_encodeList_ge (xs : List Bencode) : xs.length ≤ (encodeList xs).length := by
  induction xs with
  | nil => simp
  | cons x xs ih => have := length_encode_pos x; simp; omega

/-- A dictionary's encoding has at least one byte per entry.
Source: none: infrastructure
Kind: L -/
theorem length_encodeDict_ge (es : List (List UInt8 × Bencode)) :
    es.length ≤ (encodeDict es).length := by
  induction es with
  | nil => simp
  | cons e es ih => obtain ⟨k, v⟩ := e; have := length_encode_pos v; simp; omega

/-! ## The key-sorted encoding of spec §4.4

Spec §4.4 words the dictionary case as "each (k,v) sorted by ascending byte-wise key"; `encode`
emits the stored order. `encodeSorted` follows the spec's words, and `encodeSorted_eq` shows the
two agree on every value whose dictionaries have strictly ascending keys, which is every value
the decoder (`decode_wellFormed`) and the builders produce. -/

mutual
/-- The encoder in the words of spec §4.4, whatever order a dictionary's entries are stored
in: the entries are emitted sorted by ascending byte-wise key (an insertion sort on `keyLt`).
Source: spec §4.4
Kind: D -/
def encodeSorted : Bencode → List UInt8
  | .int n => intStart :: encodeInt n.val ++ [benEnd]
  | .bytes b => encodeBytes b
  | .list xs => listStart :: encodeSortedList xs ++ [benEnd]
  | .dict es => dictStart ::
      ((encodeSortedEntries es).insertionSort (fun a b => keyLt a.1 b.1)).flatMap
        (fun e => encodeBytes e.1 ++ e.2) ++ [benEnd]

/-- The items of a list in the words of spec §4.4, one after another.
Source: spec §4.4
Kind: D -/
def encodeSortedList : List Bencode → List UInt8
  | [] => []
  | x :: xs => encodeSorted x ++ encodeSortedList xs

/-- Each entry's key with its value's encoding, in stored order, before the sort.
Source: spec §4.4
Kind: D -/
def encodeSortedEntries : List (List UInt8 × Bencode) → List (List UInt8 × List UInt8)
  | [] => []
  | (k, v) :: es => (k, encodeSorted v) :: encodeSortedEntries es
end

/-- Entries with strictly ascending keys, whatever is done to their values, are sorted by key.
Source: none: infrastructure
Kind: L -/
theorem sorted_keyLt_map {α β : Type} {es : List (List UInt8 × α)} (f : α → β)
    (h : SortedKeys es) : (es.map fun e => (e.1, f e.2)).Sorted (fun a b => keyLt a.1 b.1) :=
  List.pairwise_map.mpr (List.pairwise_map.mp h)

/-- The stored-order encoding of a dictionary is its entries' spellings one after another.
Source: none: infrastructure
Kind: L -/
theorem encodeDict_eq_flatMap : ∀ es : List (List UInt8 × Bencode),
    encodeDict es = (es.map fun e => (e.1, encode e.2)).flatMap (fun e => encodeBytes e.1 ++ e.2)
  | [] => rfl
  | (k, v) :: es => by simp [encodeDict_eq_flatMap es]

mutual
/-- **The stored order is the order spec §4.4 asks for.** On every value whose dictionaries have
strictly ascending keys, `encode` is the key-sorted encoding of the spec.
Source: spec §4.4 "sorted by ascending byte-wise key"
Kind: L -/
theorem encodeSorted_eq : ∀ {t : Bencode}, KeysSorted t → encodeSorted t = encode t
  | .int _, _ => rfl
  | .bytes _, _ => rfl
  | .list _, h => by rw [encodeSorted, encodeSortedList_eq h, encode_list]
  | .dict _, h => by
    rw [encodeSorted, encodeSortedEntries_eq h.2,
      List.Sorted.insertionSort_eq (sorted_keyLt_map encode h.1), encode_dict,
      encodeDict_eq_flatMap]

/-- The list case of `encodeSorted_eq`. Source: spec §4.4. Kind: L -/
theorem encodeSortedList_eq : ∀ {xs : List Bencode}, KeysSortedList xs →
    encodeSortedList xs = encodeList xs
  | [], _ => rfl
  | _ :: _, h => by
    rw [encodeSortedList, encodeSorted_eq h.1, encodeSortedList_eq h.2, encodeList_cons]

/-- The entries of the dictionary case of `encodeSorted_eq`. Source: spec §4.4. Kind: L -/
theorem encodeSortedEntries_eq : ∀ {es : List (List UInt8 × Bencode)}, KeysSortedDict es →
    encodeSortedEntries es = es.map fun e => (e.1, encode e.2)
  | [], _ => rfl
  | (_, _) :: _, h => by
    rw [encodeSortedEntries, encodeSorted_eq h.1, encodeSortedEntries_eq h.2, List.map_cons]
end

end Bencode

end RustBT
