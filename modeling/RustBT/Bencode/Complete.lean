import RustBT.Bencode.Sound

/-!
# The decoder accepts the encoding of every well-formed value

The converse of `Sound.lean` (spec §8 property 2, "Canonical encode"): decoding the encoding of
a well-formed value, followed by any bytes, gives the value back and leaves those bytes. The
item counts the loops start from (the number of bytes left) are enough because every item's
encoding takes at least one byte (`length_encodeList_ge`, `length_encodeDict_ge`).

* `decodeInt_encodeInt`, `decodeBytes_encodeBytes` — the leaves;
* `decodeList_encodeList`, `decodeDict_encodeDict` — the loops, for any item reader that reads
  back the items' encodings; a key above every stored key passes `checkKey` in both modes;
* `decodeValue_encode` — by recursion on the budget;
* `decode_encode` — `decode (encode t) = t` for every well-formed `t`, under either mode;
* `decode_eq_ok_iff` — with sorted-key enforcement, the accepted buffers are exactly the
  encodings of the well-formed values.
-/

namespace RustBT

open Bencode

/-! ## Leaves -/

/-- Splitting at a delimiter absent from the text before it gives that text and the rest.
Source: none: infrastructure
Kind: L -/
theorem splitAtDelim_append {d : UInt8} {rest : List UInt8} :
    ∀ {text : List UInt8}, d ∉ text → splitAtDelim d (text ++ d :: rest) = some (text, rest)
  | [], _ => by simp [splitAtDelim]
  | b :: text, h => by
    have hb : b ≠ d := fun e => h (e ▸ List.mem_cons_self _ _)
    simp [splitAtDelim, hb, splitAtDelim_append (fun e => h (List.mem_cons_of_mem _ e))]

/-- A non-digit byte does not occur in a text of digits. Source: none: infrastructure. Kind: L -/
theorem not_mem_of_digits {ds : List UInt8} (h : ∀ b ∈ ds, isDigit b = true) {c : UInt8}
    (hc : isDigit c = false) : c ∉ ds := fun hm => by rw [h c hm] at hc; contradiction

/-- A printed length contains no `:`. Source: none: infrastructure. Kind: L -/
theorem byteLenEnd_not_mem_decimal (n : Nat) : byteLenEnd ∉ decimal n :=
  not_mem_of_digits (canonical_decimal n).digits (by decide)

/-- A text that reads as an integer passes the negative-zero and zero-padding checks.
Source: spec §4.2 step 2
Kind: L -/
theorem intText_checks {s : List UInt8} {n : Int} (h : intText s = some n) :
    ¬(1 < s.length ∧ s.head? = some minusSign ∧ s[1]? = some byteLenLow) ∧
      ¬(1 < s.length ∧ s.head? = some byteLenLow) := by
  match s, h with
  | b :: ds, h =>
    simp only [intText] at h
    split_ifs at h with hm hds hc
    · obtain ⟨hne, -, hhead⟩ := hds
      obtain ⟨c, cs, rfl⟩ := List.exists_cons_of_ne_nil hne
      refine ⟨fun ⟨_, _, h'⟩ => hhead (by simpa using h'), fun ⟨_, h'⟩ => ?_⟩
      simp only [List.head?_cons, Option.some.injEq] at h'
      rw [hm] at h'; exact absurd h' (by decide)
    · refine ⟨fun ⟨_, h', _⟩ => hm (by simpa using h'), fun ⟨hl, h'⟩ => ?_⟩
      simp only [List.head?_cons, Option.some.injEq] at h'
      rw [hc.2 h'] at hl; simp at hl

/-- The decoder reads an integer's encoding back.
Source: spec §8 property 2
Kind: L -/
theorem decodeInt_encodeInt (pos : Nat) (n : I64) (rest : List UInt8) :
    decodeInt pos (encodeInt n.val ++ benEnd :: rest) = .ok (n, rest) := by
  have htext := intText_encodeInt n.val
  have hnot : benEnd ∉ encodeInt n.val := by
    have hc := canonical_decimal n.val.natAbs
    unfold encodeInt; split_ifs
    · simp only [List.mem_cons, not_or]
      exact ⟨by decide, not_mem_of_digits hc.digits (by decide)⟩
    · exact not_mem_of_digits hc.digits (by decide)
  obtain ⟨h₁, h₂⟩ := intText_checks htext
  simp only [decodeInt, splitAtDelim_append hnot, if_neg h₁, if_neg h₂, htext,
    dif_pos (⟨n.lo, n.hi⟩ : _ ∧ _)]

/-- The decoder reads a byte string's encoding back.
Source: spec §8 property 2
Kind: L -/
theorem decodeBytes_encodeBytes (pos : Nat) (s rest : List UInt8) :
    decodeBytes pos (encodeBytes s ++ rest) = .ok (s, rest) := by
  have hc := canonical_decimal s.length
  have hpad : ¬(1 < (decimal s.length).length ∧ (decimal s.length).head? = some byteLenLow) :=
    fun ⟨hl, h⟩ => by rw [hc.no_pad h] at hl; simp at hl
  have hdig : decimal s.length ≠ [] ∧ (decimal s.length).all isDigit = true :=
    ⟨hc.ne_nil, List.all_eq_true.mpr hc.digits⟩
  simp only [encodeBytes, List.append_assoc, List.cons_append, decodeBytes,
    splitAtDelim_append (byteLenEnd_not_mem_decimal _), if_neg hpad, if_pos hdig,
    parseDecimal_decimal, List.length_append, Nat.le_add_right, if_true, List.take_left,
    List.drop_left]

/-! ## Containers -/

section Loops

variable {total : Nat} {elem : List UInt8 → BencodeParseResult (Bencode × List UInt8)}

/-- The list loop reads back the encodings of items its item reader reads back.
Source: spec §8 property 2
Kind: L -/
theorem decodeList_encodeList {rest : List UInt8} :
    ∀ (xs : List Bencode), (∀ x ∈ xs, ∀ r, elem (encode x ++ r) = .ok (x, r)) →
      ∀ (items : Nat) (acc : List Bencode), xs.length ≤ items →
        decodeList total elem items acc (encodeList xs ++ benEnd :: rest) =
          .ok (.list (acc ++ xs), rest)
  | [], _, items, acc, _ => by unfold decodeList; simp
  | x :: xs, helem, items + 1, acc, hlen => by
    obtain ⟨c, cs, hc, hne⟩ := encode_ne_nil_head x
    have hx := helem x (List.mem_cons_self _ _) (encodeList xs ++ benEnd :: rest)
    rw [hc, List.cons_append] at hx
    rw [encodeList_cons, List.append_assoc, hc, List.cons_append]
    simp only [decodeList, if_neg hne, hx, ok_bind]
    simpa using decodeList_encodeList xs (fun y hy => helem y (List.mem_cons_of_mem _ hy)) items
      (acc ++ [x]) (by simpa using hlen)

/-- A key above every stored key passes the key checks, in both modes.
Source: spec §4.2 step 5
Kind: L -/
theorem checkKey_of_gt_all {opts : BDecodeOpt} {pos : Nat} {key : List UInt8}
    {acc : List (List UInt8 × Bencode)} (h : ∀ p ∈ acc, keyLt p.1 key) :
    checkKey opts pos key acc = .ok () := by
  have hnone : acc.lookup key = none := List.lookup_eq_none_iff.mpr fun p hp => by
    have := h p hp
    simpa using fun e : key = p.1 => keyLt_irrefl key (by rwa [← e] at this)
  unfold checkKey
  split
  · rename_i prev _ _ hlast
    have hlt : keyLt prev key := h _ (List.mem_of_getLast?_eq_some hlast)
    rw [if_neg (fun e => keyLt_irrefl prev (by rwa [e] at hlt)), if_pos hlt]
  · simp [hnone]

/-- The dictionary loop reads back the encodings of sorted entries whose values its item reader
reads back.
Source: spec §8 property 2
Kind: L -/
theorem decodeDict_encodeDict {opts : BDecodeOpt} {rest : List UInt8} :
    ∀ (es : List (List UInt8 × Bencode)) (acc : SortedDict Bencode),
      (∀ p ∈ es, ∀ r, elem (encode p.2 ++ r) = .ok (p.2, r)) →
      SortedKeys (acc.entries ++ es) → ∀ items : Nat, es.length ≤ items →
        decodeDict opts total elem items acc (encodeDict es ++ benEnd :: rest) =
          .ok (.dict (acc.entries ++ es), rest)
  | [], acc, _, _, items, _ => by unfold decodeDict; simp
  | (k, v) :: es, acc, helem, hs, items + 1, hlen => by
    have hgt : ∀ p ∈ acc.entries, keyLt p.1 k := by
      simp only [SortedKeys, List.map_append, List.pairwise_append, List.mem_map] at hs
      exact fun p hp => hs.2.2 _ ⟨p, hp, rfl⟩ _ ⟨(k, v), List.mem_cons_self _ _, rfl⟩
    obtain ⟨c, cs, hc, hdig⟩ := encodeBytes_head k
    have hne : c ≠ benEnd := fun e => by rw [e, isDigit_benEnd] at hdig; contradiction
    have hkey := decodeBytes_encodeBytes (total - (c :: (cs ++ (encode v ++ (encodeDict es ++
      benEnd :: rest)))).length) k (encode v ++ (encodeDict es ++ benEnd :: rest))
    rw [hc, List.cons_append] at hkey
    have hv : elem (encode v ++ (encodeDict es ++ benEnd :: rest)) =
        .ok (v, encodeDict es ++ benEnd :: rest) := helem (k, v) (List.mem_cons_self _ _) _
    rw [encodeDict_cons, List.append_assoc, List.append_assoc, hc, List.cons_append]
    have happ : dictInsert k v acc.entries = acc.entries ++ [(k, v)] := dictInsert_of_gt hgt
    simp only [decodeDict, if_neg hne, decodeKey, hdig, if_true, hkey, ok_bind,
      checkKey_of_gt_all hgt, hv]
    simpa [happ] using decodeDict_encodeDict es (acc.insert k v)
      (fun p hp => helem p (List.mem_cons_of_mem _ hp)) (by simpa [happ] using hs) items
      (by simpa using hlen)

end Loops

/-! ## Values -/

/-- **Completeness.** The decoder reads back the encoding of every value that is well-formed
for its budget, whatever follows it.
Source: spec §8 property 2 "Canonical encode"
Kind: P -/
theorem decodeValue_encode (opts : BDecodeOpt) (total : Nat) :
    ∀ (budget : Nat) (t : Bencode) (rest : List UInt8), WellFormed budget t →
      decodeValue opts total budget (encode t ++ rest) = .ok (t, rest)
  | budget, .int n, rest, _ => by
    simp only [encode_int, List.cons_append, List.append_assoc, List.singleton_append,
      decodeValue, scan_intStart, decodeInt_encodeInt, ok_bind]
    rfl
  | budget, .bytes s, rest, _ => by
    obtain ⟨c, cs, hc, hdig⟩ := encodeBytes_head s
    have hb := decodeBytes_encodeBytes (total - (c :: (cs ++ rest)).length) s rest
    rw [hc, List.cons_append] at hb
    rw [encode_bytes, hc, List.cons_append]
    simp only [decodeValue, scan_of_isDigit hdig, hb, ok_bind]
    rfl
  | 0, .list xs, _, hwf => absurd hwf.depth_le (by simp [depth])
  | budget + 1, .list xs, rest, hwf => by
    have hitems := wellFormed_list.mp hwf
    simp only [encode_list, List.cons_append, decodeValue, scan_listStart, List.append_assoc,
      List.singleton_append]
    simpa using decodeList_encodeList xs
      (fun x hx r => decodeValue_encode opts total budget x r (hitems x hx)) _ []
      (by have := length_encodeList_ge xs; simp; omega)
  | 0, .dict es, _, hwf => absurd hwf.depth_le (by simp [depth])
  | budget + 1, .dict es, rest, hwf => by
    obtain ⟨hsorted, hitems⟩ := wellFormed_dict.mp hwf
    simp only [encode_dict, List.cons_append, decodeValue, scan_dictStart, List.append_assoc,
      List.singleton_append]
    simpa using decodeDict_encodeDict es .empty
      (fun p hp r => decodeValue_encode opts total budget p.2 r (hitems p hp))
      (by simpa using hsorted) _ (by have := length_encodeDict_ge es; simp; omega)

/-- Decoding the encoding of a well-formed value gives the value back, in either key mode.
Source: spec §8 property 2
Kind: P -/
theorem decode_encode (opts : BDecodeOpt) {t : Bencode}
    (hwf : WellFormed opts.maxRecursionDepth t) : decode (encode t) opts = .ok t := by
  have h := decodeValue_encode opts (encode t).length _ t [] hwf
  rw [List.append_nil] at h
  have hne : encode t ≠ [] := by obtain ⟨c, cs, hc, -⟩ := encode_ne_nil_head t; simp [hc]
  simp only [decode, if_neg hne, h]

/-- **The decoder's language.** With sorted-key enforcement, the decoder accepts exactly the
encodings of the well-formed values, each as the value it encodes.
Source: spec §4.4 "Round-trip canonicality requirement"; §8 properties 1-2
Kind: P -/
theorem decode_eq_ok_iff {opts : BDecodeOpt} (hopt : opts.enforceSortedKeys = true)
    (bs : List UInt8) (t : Bencode) :
    decode bs opts = .ok t ↔ bs = encode t ∧ WellFormed opts.maxRecursionDepth t :=
  ⟨fun h => ⟨(decode_sound hopt h).1.symm, (decode_sound hopt h).2⟩,
    fun ⟨hbs, hwf⟩ => hbs ▸ decode_encode opts hwf⟩

/-- The decoder's language at the default options on scenario S4, a dictionary: its buffer is
accepted as the two-entry dictionary it encodes, and the same entries with their keys swapped
(scenario S5) are neither accepted nor well-formed.
Source: spec §8 scenarios S4, S5
Kind: L -/
theorem decode_eq_ok_iff_s4 :
    ({} : BDecodeOpt).enforceSortedKeys = true ∧
      (decode barFooBytes {} = .ok barFoo ↔
        barFooBytes = encode barFoo ∧ WellFormed ({} : BDecodeOpt).maxRecursionDepth barFoo) ∧
      decode barFooBytes {} = .ok barFoo ∧
      (decode (encode fooBar) {} = .ok fooBar ↔
        encode fooBar = encode fooBar ∧ WellFormed ({} : BDecodeOpt).maxRecursionDepth fooBar) ∧
      ¬WellFormed ({} : BDecodeOpt).maxRecursionDepth fooBar :=
  ⟨rfl, decode_eq_ok_iff rfl _ _, rfl, decode_eq_ok_iff rfl _ _,
    fun h => absurd (wellFormed_dict.mp h).1 (by decide)⟩

end RustBT
