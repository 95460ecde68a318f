import RustBT.Bencode.Complete

/-!
# Decoding without sorted-key enforcement

With `enforce_sorted_keys = false` the decoder accepts dictionary keys in any order, but still
rejects a repeated key, and it stores every entry with the sorted insertion of the dictionary
(spec §4.2 step 5, §4.3). So a tree decoded in either mode is well-formed, and the encoder
gives it its canonical spelling. This file proves that over every run of the decoder:

* `decodeList_wellFormed`, `decodeDict_wellFormed`, `decodeValue_wellFormed` — one lemma per
  loop and one for the recursive step, in either key mode: the accumulated container stays
  well-formed, whatever order the keys arrive in;
* `decode_wellFormed` — every accepted tree is well-formed for the recursion limit, so
  `encode` spells it in the key order of spec §4.4 (`encodeSorted_of_decode`);
* `decode_encode_of_decode` — every accepted tree's encoding is accepted, in either mode and
  under any larger limit, and decodes to the same tree; so `encode ∘ decode` is idempotent and
  its output is canonical;
* `decode_of_decode_strict` — a buffer the strict decoder accepts is accepted, with the same
  tree, by the decoder in either mode under any larger limit.
-/

namespace RustBT

open Bencode

section Loops

variable {total d : Nat} {elem : List UInt8 → BencodeParseResult (Bencode × List UInt8)}

/-- The list loop, in either mode, returns a well-formed list when every item read is
well-formed one level down.
Source: spec §4.2 step 4
Kind: L -/
theorem decodeList_wellFormed
    (helem : ∀ bs t rest, elem bs = .ok (t, rest) → WellFormed d t) :
    ∀ (items : Nat) (acc : List Bencode) (bs : List UInt8) (t : Bencode) (rest : List UInt8),
      WellFormed (d + 1) (.list acc) → decodeList total elem items acc bs = .ok (t, rest) →
        WellFormed (d + 1) t
  | _, _, [], _, _, _, h => by simp [decodeList] at h
  | items, acc, b :: bs, t, rest, hacc, h => by
    unfold decodeList at h
    split_ifs at h with hb
    · cases h; exact hacc
    · cases items with
      | zero => cases h
      | succ items =>
        obtain ⟨⟨v, rest'⟩, hv, h⟩ := bind_eq_ok.mp h
        exact decodeList_wellFormed helem items _ _ _ _
          (wellFormed_list_append hacc (helem _ _ _ hv)) h

/-- The dictionary loop, in either mode, returns a well-formed dictionary when every value read
is well-formed one level down: the entries are kept in a `BTreeMap`, so the keys are ascending
whatever order they arrive in.
Source: spec §4.2 step 5; §4.3 "maintain sorted order on insert"
Kind: L -/
theorem decodeDict_wellFormed {opts : BDecodeOpt}
    (helem : ∀ bs t rest, elem bs = .ok (t, rest) → WellFormed d t) :
    ∀ (items : Nat) (acc : SortedDict Bencode) (bs : List UInt8) (t : Bencode)
      (rest : List UInt8), (∀ p ∈ acc.entries, WellFormed d p.2) →
        decodeDict opts total elem items acc bs = .ok (t, rest) → WellFormed (d + 1) t
  | _, _, [], _, _, _, h => by simp [decodeDict] at h
  | items, acc, b :: bs, t, rest, hacc, h => by
    unfold decodeDict at h
    split_ifs at h with hb
    · cases h; exact wellFormed_sortedDict.mpr hacc
    · cases items with
      | zero => cases h
      | succ items =>
        obtain ⟨⟨key, rest₁⟩, -, h⟩ := bind_eq_ok.mp h
        obtain ⟨⟨⟩, -, h⟩ := bind_eq_ok.mp h
        obtain ⟨⟨v, rest₂⟩, hv, h⟩ := bind_eq_ok.mp h
        exact decodeDict_wellFormed helem items _ _ _ _
          (forall_mem_dictInsert (helem _ _ _ hv) hacc) h

end Loops

/-- In either key mode, a decoded value is well-formed for the budget it was decoded with.
Source: spec §4.2 steps 1-6
Kind: L -/
theorem decodeValue_wellFormed (opts : BDecodeOpt) (total : Nat) :
    ∀ (budget : Nat) (bs : List UInt8) (t : Bencode) (rest : List UInt8),
      decodeValue opts total budget bs = .ok (t, rest) → WellFormed budget t
  | _, [], _, _, h => by simp [decodeValue] at h
  | budget, b :: bs, t, rest, h => by
    unfold decodeValue at h
    split at h
    · obtain ⟨⟨n, rest'⟩, -, h⟩ := bind_eq_ok.mp h
      cases h; exact wellFormed_int n
    · obtain ⟨⟨s, rest'⟩, -, h⟩ := bind_eq_ok.mp h
      cases h; exact wellFormed_bytes s
    · cases h
    · exact decodeList_wellFormed (fun _ _ _ => decodeValue_wellFormed opts total _ _ _ _) _ _ _ _ _
        (wellFormed_list.mpr (by simp)) h
    · cases h
    · exact decodeDict_wellFormed (fun _ _ _ => decodeValue_wellFormed opts total _ _ _ _) _ _ _ _ _
        (by simp) h
    · cases h

/-- In either key mode, every accepted tree is well-formed for the recursion limit.
Source: spec §4.2
Kind: L -/
theorem decode_wellFormed {opts : BDecodeOpt} {bs : List UInt8} {t : Bencode}
    (h : decode bs opts = .ok t) : WellFormed opts.maxRecursionDepth t := by
  unfold decode at h
  split_ifs at h
  split at h
  · cases h; exact decodeValue_wellFormed opts _ _ _ _ _ ‹_›
  · cases h
  · cases h

/-- In either key mode, `encode` spells every accepted tree as spec §4.4 words the encoding,
its dictionaries' entries in ascending key order.
Source: spec §4.4 "sorted by ascending byte-wise key"
Kind: L -/
theorem encodeSorted_of_decode {opts : BDecodeOpt} {bs : List UInt8} {t : Bencode}
    (h : decode bs opts = .ok t) : encodeSorted t = encode t :=
  encodeSorted_eq (decode_wellFormed h).keysSorted

/-- **Re-encoding canonicalises.** In either key mode, the encoding of an accepted tree is
accepted by the decoder in either mode under any larger recursion limit, and decodes to the
same tree. In particular a buffer accepted without sorted-key enforcement re-encodes to a
buffer the strict decoder accepts.
Source: spec §4.2 step 5; §4.4 "sorted by ascending byte-wise key"
Kind: P -/
theorem decode_encode_of_decode {opts : BDecodeOpt} {bs : List UInt8} {t : Bencode}
    (h : decode bs opts = .ok t) (opts' : BDecodeOpt)
    (hdepth : opts.maxRecursionDepth ≤ opts'.maxRecursionDepth) :
    decode (encode t) opts' = .ok t :=
  decode_encode opts' ((decode_wellFormed h).mono hdepth)

/-- **Strict acceptance is lax acceptance.** A buffer the decoder accepts with sorted-key
enforcement is accepted, with the same tree, in either mode under any larger recursion limit.
Source: spec §4.2 step 5
Kind: P -/
theorem decode_of_decode_strict {opts : BDecodeOpt} (hopt : opts.enforceSortedKeys = true)
    {bs : List UInt8} {t : Bencode} (h : decode bs opts = .ok t) (opts' : BDecodeOpt)
    (hdepth : opts.maxRecursionDepth ≤ opts'.maxRecursionDepth) :
    decode bs opts' = .ok t := by
  rw [← (decode_sound hopt h).1]
  exact decode_encode_of_decode h opts' hdepth

/-- `d1:bi1e1:ai2ee`, a dictionary whose keys arrive out of order.
Source: spec §4.2 step 5
Kind: D -/
def unsortedDict : List UInt8 := [100, 49, 58, 98, 105, 49, 101, 49, 58, 97, 105, 50, 101, 101]

/-- The strict decoder refuses it; the lax one accepts it as the sorted dictionary. -/
example : (decode unsortedDict {}).toOption = none := rfl

example : decode unsortedDict ⟨50, false⟩ =
    .ok (.dict [([97], .int ⟨2, by decide, by decide⟩), ([98], .int ⟨1, by decide, by decide⟩)]) :=
  rfl

/-- Re-encoding the lax decode of out-of-order keys gives a buffer the strict decoder accepts.
Source: spec §4.2 step 5
Kind: L -/
theorem decode_encode_of_decode_unsorted :
    ∃ t, decode unsortedDict ⟨50, false⟩ = .ok t ∧ decode (encode t) {} = .ok t :=
  have h : decode unsortedDict ⟨50, false⟩ = .ok _ := rfl
  ⟨_, h, decode_encode_of_decode h {} le_rfl⟩

/-- Scenario S4, whose keys the strict decoder checks for order, is accepted as the same
dictionary by the decoder without the check.
Source: spec §4.2 step 5; §8 scenario S4
Kind: L -/
theorem decode_of_decode_strict_s4 :
    decode barFooBytes {} = .ok barFoo ∧ decode barFooBytes ⟨50, false⟩ = .ok barFoo :=
  have h : decode barFooBytes {} = .ok barFoo := rfl
  ⟨h, decode_of_decode_strict rfl h _ le_rfl⟩

end RustBT
