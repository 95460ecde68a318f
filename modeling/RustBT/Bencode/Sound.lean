import RustBT.Bencode.Decode

/-!
# What the decoder accepts is the encoding of a well-formed value

With `enforceSortedKeys`, a successful decode consumed exactly the encoding of the value it
returned (spec §4.4 "Round-trip canonicality requirement", §8 property 1), and the value is
well-formed (§8 properties 3, 6). The leaves come first, then the two container loops, each for
any item reader that has the property, and last the recursion on the depth budget:

* `decodeInt_sound`, `decodeBytes_sound` — the scanned text is canonical, so printing the
  value gives it back (`encodeInt_intText`, `decimal_parseDecimal`);
* `decodeList_sound`, `decodeDict_sound` — the loops consume the items' encodings and `e`;
  sorted keys arrive in ascending order, so inserting into the map only appends
  (`checkKey_gt_all`);
* `wellFormed_sortedDict` — a map's entries form a well-formed dictionary exactly when its
  values are well-formed: the key order comes with the map;
* `decodeValue_sound` — `bs = encode t ++ rest` and `WellFormed budget t`;
* `decode_sound` — `encode (decode bs) = bs`;
* `decodeList_count`, `decodeDict_count` — in either key mode every value read takes at least
  one byte (`decodeValue_shortens`), so any two item counts that cover the bytes left give a
  loop the same result.
-/

namespace RustBT

open Bencode

/-! ## Scanning to a delimiter -/

/-- What `splitAtDelim` returns is the input cut at the first delimiter.
Source: none: infrastructure
Kind: L -/
theorem splitAtDelim_sound {d : UInt8} :
    ∀ {bs text rest : List UInt8}, splitAtDelim d bs = some (text, rest) →
      bs = text ++ d :: rest ∧ d ∉ text
  | [], _, _, h => by simp [splitAtDelim] at h
  | b :: bs, text, rest, h => by
    unfold splitAtDelim at h
    split_ifs at h with hb
    · simp only [Option.some.injEq, Prod.mk.injEq] at h
      obtain ⟨rfl, rfl⟩ := h; simp [hb]
    · obtain ⟨⟨t, r⟩, hsplit, he⟩ := Option.map_eq_some'.mp h
      simp only [Prod.mk.injEq] at he
      obtain ⟨rfl, rfl⟩ := he
      obtain ⟨rfl, hd⟩ := splitAtDelim_sound hsplit
      exact ⟨rfl, by simp [hd, Ne.symm hb]⟩

/-- The decoder's three checks on a length or magnitude give a canonical text.
Source: none: infrastructure
Kind: L -/
theorem canonical_of_checks {text : List UInt8} (hne : text ≠ [])
    (hd : ∀ c ∈ text, isDigit c = true)
    (hpad : ¬(1 < text.length ∧ text.head? = some byteLenLow)) : Canonical text :=
  ⟨hne, hd, fun h => by
    obtain ⟨c, cs, rfl⟩ := List.exists_cons_of_ne_nil hne
    simp only [List.head?_cons, Option.some.injEq] at h
    cases cs with
    | nil => rw [h]
    | cons _ _ => simp [h] at hpad⟩

/-! ## Leaves -/

/-- A decoded integer was spelled canonically: the bytes are its encoding, `e` and the rest.
Source: spec §4.2 step 2
Kind: L -/
theorem decodeInt_sound {pos : Nat} {bs rest : List UInt8} {n : I64}
    (h : decodeInt pos bs = .ok (n, rest)) : bs = encodeInt n.val ++ benEnd :: rest := by
  unfold decodeInt at h
  split at h
  · cases h
  · rename_i text rest' hsplit
    split_ifs at h
    split at h
    · cases h
    · rename_i m hm
      split at h
      · simp only [Except.ok.injEq, Prod.mk.injEq] at h
        obtain ⟨rfl, rfl⟩ := h
        rw [(splitAtDelim_sound hsplit).1, encodeInt_intText hm]
      · cases h

/-- A decoded byte string was spelled canonically: the bytes are its encoding and the rest.
Source: spec §4.2 step 3
Kind: L -/
theorem decodeBytes_sound {pos : Nat} {bs s rest : List UInt8}
    (h : decodeBytes pos bs = .ok (s, rest)) : bs = encodeBytes s ++ rest := by
  unfold decodeBytes at h
  split at h
  · cases h
  · rename_i text rest' hsplit
    split_ifs at h with hpad hdig hlen
    simp only [Except.ok.injEq, Prod.mk.injEq] at h
    obtain ⟨rfl, rfl⟩ := h
    have hcan := canonical_of_checks hdig.1 (by simpa using hdig.2) hpad
    rw [(splitAtDelim_sound hsplit).1, encodeBytes, List.length_take, min_eq_left hlen,
      decimal_parseDecimal hcan]
    simp

/-! ## Containers -/

/-- The depth of a list's items is bounded exactly when each item's is.
Source: none: infrastructure
Kind: L -/
theorem depthList_le_iff {xs : List Bencode} {d : Nat} :
    depthList xs ≤ d ↔ ∀ x ∈ xs, depth x ≤ d := by
  induction xs with
  | nil => simp [depthList]
  | cons x xs ih => simp [depthList, ih]

/-- The depth of a dictionary's values is bounded exactly when each value's is.
Source: none: infrastructure
Kind: L -/
theorem depthDict_le_iff {es : List (List UInt8 × Bencode)} {d : Nat} :
    depthDict es ≤ d ↔ ∀ p ∈ es, depth p.2 ≤ d := by
  induction es with
  | nil => simp [depthDict]
  | cons e es ih => obtain ⟨k, v⟩ := e; simp [depthDict, ih]

/-- A list has sorted keys throughout exactly when each item has. Source: none: infrastructure.
Kind: L -/
theorem keysSortedList_iff {xs : List Bencode} : KeysSortedList xs ↔ ∀ x ∈ xs, KeysSorted x := by
  induction xs with
  | nil => simp [KeysSortedList]
  | cons x xs ih => simp [KeysSortedList, ih]

/-- A dictionary's values have sorted keys throughout exactly when each value has.
Source: none: infrastructure
Kind: L -/
theorem keysSortedDict_iff {es : List (List UInt8 × Bencode)} :
    KeysSortedDict es ↔ ∀ p ∈ es, KeysSorted p.2 := by
  induction es with
  | nil => simp [KeysSortedDict]
  | cons e es ih => obtain ⟨k, v⟩ := e; simp [KeysSortedDict, ih]

/-- A list is well-formed one level up when its items are.
Source: none: infrastructure
Kind: L -/
theorem wellFormed_list {d : Nat} {xs : List Bencode} :
    WellFormed (d + 1) (.list xs) ↔ ∀ x ∈ xs, WellFormed d x := by
  have hd : depth (.list xs) ≤ d + 1 ↔ ∀ x ∈ xs, depth x ≤ d := by
    simp [depth, depthList_le_iff]
  exact ⟨fun h x hx => ⟨keysSortedList_iff.mp h.keysSorted x hx, hd.mp h.depth_le x hx⟩,
    fun h => ⟨keysSortedList_iff.mpr fun x hx => (h x hx).keysSorted,
      hd.mpr fun x hx => (h x hx).depth_le⟩⟩

/-- A dictionary is well-formed one level up when its keys are sorted and its values are
well-formed.
Source: none: infrastructure
Kind: L -/
theorem wellFormed_dict {d : Nat} {es : List (List UInt8 × Bencode)} :
    WellFormed (d + 1) (.dict es) ↔ SortedKeys es ∧ ∀ p ∈ es, WellFormed d p.2 := by
  have hd : depth (.dict es) ≤ d + 1 ↔ ∀ p ∈ es, depth p.2 ≤ d := by
    simp [depth, depthDict_le_iff]
  exact ⟨fun h => ⟨h.keysSorted.1, fun p hp =>
      ⟨keysSortedDict_iff.mp h.keysSorted.2 p hp, hd.mp h.depth_le p hp⟩⟩,
    fun h => ⟨⟨h.1, keysSortedDict_iff.mpr fun p hp => (h.2 p hp).keysSorted⟩,
      hd.mpr fun p hp => (h.2 p hp).depth_le⟩⟩

/-- A value well-formed under a recursion limit is well-formed under every larger one.
Source: none: infrastructure
Kind: L -/
theorem Bencode.WellFormed.mono {d d' : Nat} {t : Bencode} (h : WellFormed d t) (hle : d ≤ d') :
    WellFormed d' t :=
  ⟨h.keysSorted, h.depth_le.trans hle⟩

/-- Integers are well-formed under every limit. Source: none: infrastructure. Kind: L -/
theorem wellFormed_int {d : Nat} (n : I64) : WellFormed d (.int n) := ⟨trivial, Nat.zero_le _⟩

/-- Byte strings are well-formed under every limit. Source: none: infrastructure. Kind: L -/
theorem wellFormed_bytes {d : Nat} (b : List UInt8) : WellFormed d (.bytes b) :=
  ⟨trivial, Nat.zero_le _⟩

/-- A list extended by a well-formed item is well-formed. Source: none: infrastructure. Kind: L -/
theorem wellFormed_list_append {d : Nat} {xs : List Bencode} {v : Bencode}
    (h : WellFormed (d + 1) (.list xs)) (hv : WellFormed d v) :
    WellFormed (d + 1) (.list (xs ++ [v])) :=
  wellFormed_list.mpr fun x hx =>
    (List.mem_append.mp hx).elim (wellFormed_list.mp h x) fun hx => List.mem_singleton.mp hx ▸ hv

/-- The entries of a `BTreeMap` form a well-formed dictionary exactly when its values are
well-formed one level down: the key order comes with the map.
Source: none: infrastructure
Kind: L -/
theorem wellFormed_sortedDict {d : Nat} {m : SortedDict Bencode} :
    WellFormed (d + 1) (.dict m.entries) ↔ ∀ p ∈ m.entries, WellFormed d p.2 :=
  wellFormed_dict.trans (and_iff_right m.sorted)

section Loops

variable {total d : Nat} {elem : List UInt8 → BencodeParseResult (Bencode × List UInt8)}

/-- The list loop, for an item reader that consumes encodings of well-formed values, consumes
the encodings of the items it appends and the closing `e`.
Source: spec §4.2 step 4
Kind: L -/
theorem decodeList_sound
    (helem : ∀ bs t rest, elem bs = .ok (t, rest) → bs = encode t ++ rest ∧ WellFormed d t) :
    ∀ (items : Nat) (acc : List Bencode) (bs : List UInt8) (t : Bencode) (rest : List UInt8),
      decodeList total elem items acc bs = .ok (t, rest) →
        ∃ xs, t = .list (acc ++ xs) ∧ bs = encodeList xs ++ benEnd :: rest ∧
          ∀ x ∈ xs, WellFormed d x
  | _, _, [], _, _, h => by simp [decodeList] at h
  | items, acc, b :: bs, t, rest, h => by
    unfold decodeList at h
    split_ifs at h with hb
    · simp only [Except.ok.injEq, Prod.mk.injEq] at h
      obtain ⟨rfl, rfl⟩ := h
      exact ⟨[], by simp, by simp [hb], by simp⟩
    · cases items with
      | zero => cases h
      | succ items =>
        obtain ⟨⟨v, rest'⟩, hv, h⟩ := bind_eq_ok.mp h
        obtain ⟨xs, rfl, hrest, hxs⟩ := decodeList_sound helem items _ _ _ _ h
        obtain ⟨hbs, hwf⟩ := helem _ _ _ hv
        refine ⟨v :: xs, by simp, by rw [hbs, hrest]; simp, ?_⟩
        simpa [hwf] using hxs

/-- With sorted-key enforcement, a key that passes `checkKey` is above every stored key.
Source: spec §4.2 step 5
Kind: L -/
theorem checkKey_gt_all {opts : BDecodeOpt} (hopt : opts.enforceSortedKeys = true) {pos : Nat}
    {key : List UInt8} {acc : List (List UInt8 × Bencode)} (hs : SortedKeys acc)
    (h : checkKey opts pos key acc = .ok ()) : ∀ p ∈ acc, keyLt p.1 key := by
  unfold checkKey at h
  rw [hopt] at h
  cases hlast : acc.getLast? with
  | none => simp [List.getLast?_eq_none_iff.mp hlast]
  | some last =>
    obtain ⟨prev, v⟩ := last
    simp only [hlast] at h
    split_ifs at h with h₁ h₂
    exact gt_all_of_gt_getLast hs hlast h₂

/-- The dictionary loop with sorted-key enforcement consumes the encodings of the entries it
appends and the closing `e`, and the entries arrive in ascending key order.
Source: spec §4.2 step 5
Kind: L -/
theorem decodeDict_sound {opts : BDecodeOpt} (hopt : opts.enforceSortedKeys = true)
    (helem : ∀ bs t rest, elem bs = .ok (t, rest) → bs = encode t ++ rest ∧ WellFormed d t) :
    ∀ (items : Nat) (acc : SortedDict Bencode) (bs : List UInt8) (t : Bencode)
      (rest : List UInt8), decodeDict opts total elem items acc bs = .ok (t, rest) →
        ∃ es, t = .dict (acc.entries ++ es) ∧ bs = encodeDict es ++ benEnd :: rest ∧
          SortedKeys (acc.entries ++ es) ∧ ∀ p ∈ es, WellFormed d p.2
  | _, _, [], _, _, h => by simp [decodeDict] at h
  | items, acc, b :: bs, t, rest, h => by
    unfold decodeDict at h
    split_ifs at h with hb
    · simp only [Except.ok.injEq, Prod.mk.injEq] at h
      obtain ⟨rfl, rfl⟩ := h
      exact ⟨[], by simp, by simp [hb], by simpa using acc.sorted, by simp⟩
    · cases items with
      | zero => cases h
      | succ items =>
        obtain ⟨⟨key, rest₁⟩, hkey, h⟩ := bind_eq_ok.mp h
        obtain ⟨⟨⟩, hcheck, h⟩ := bind_eq_ok.mp h
        obtain ⟨⟨v, rest₂⟩, hv, h⟩ := bind_eq_ok.mp h
        have happ : (acc.insert key v).entries = acc.entries ++ [(key, v)] :=
          dictInsert_of_gt (checkKey_gt_all hopt acc.sorted hcheck)
        obtain ⟨es, rfl, hrest, hsorted, hes⟩ := decodeDict_sound hopt helem items _ _ _ _ h
        have hkb : b :: bs = encodeBytes key ++ rest₁ := by
          simp only [decodeKey] at hkey
          split_ifs at hkey
          exact decodeBytes_sound hkey
        obtain ⟨hv', hwf⟩ := helem _ _ _ hv
        rw [happ] at hsorted ⊢
        refine ⟨(key, v) :: es, by simp, by rw [hkb, hv', hrest]; simp, by simpa using hsorted, ?_⟩
        simpa [hwf] using hes

end Loops

/-! ## Values -/

/-- With sorted-key enforcement, a decoded value was spelled exactly by the bytes it consumed,
and it is well-formed for the budget it was decoded with.
Source: spec §4.4 "Round-trip canonicality requirement"; §8 properties 1, 3, 6
Kind: P -/
theorem decodeValue_sound {opts : BDecodeOpt} (hopt : opts.enforceSortedKeys = true) {total : Nat} :
    ∀ (budget : Nat) (bs : List UInt8) (t : Bencode) (rest : List UInt8),
      decodeValue opts total budget bs = .ok (t, rest) → bs = encode t ++ rest ∧ WellFormed budget t
  | _, [], _, _, h => by simp [decodeValue] at h
  | budget, b :: bs, t, rest, h => by
    have hscan := @eq_of_scan b
    unfold decodeValue at h
    split at h
    · rename_i hs
      obtain ⟨⟨n, rest'⟩, hn, h⟩ := bind_eq_ok.mp h
      cases h
      rw [hscan.1 hs, decodeInt_sound hn]
      exact ⟨by simp, ⟨trivial, Nat.zero_le _⟩⟩
    · obtain ⟨⟨s, rest'⟩, hsb, h⟩ := bind_eq_ok.mp h
      cases h
      exact ⟨decodeBytes_sound hsb, ⟨trivial, Nat.zero_le _⟩⟩
    · cases h
    · rename_i budget' hs
      obtain ⟨xs, rfl, hbs, hxs⟩ :=
        decodeList_sound (fun _ _ _ => decodeValue_sound hopt budget' _ _ _) _ _ _ _ _ h
      rw [hscan.2.1 hs, hbs]
      exact ⟨by simp, wellFormed_list.mpr hxs⟩
    · cases h
    · rename_i budget' hs
      obtain ⟨es, rfl, hbs, hsorted, hes⟩ :=
        decodeDict_sound hopt (fun _ _ _ => decodeValue_sound hopt budget' _ _ _) _ _ _ _ _ h
      rw [hscan.2.2.1 hs, hbs]
      exact ⟨by simp, wellFormed_dict.mpr ⟨by simpa using hsorted, by simpa using hes⟩⟩
    · cases h

/-- **Round trip.** With sorted-key enforcement, every buffer the decoder accepts is the
encoding of the value it decodes to, and that value is well-formed.
Source: spec §4.4 "for any byte buffer `B` that decodes successfully under
`enforce_sorted_keys=true`, `encode(decode(B)) == B`"; §8 property 1
Kind: P -/
theorem decode_sound {opts : BDecodeOpt} (hopt : opts.enforceSortedKeys = true) {bs : List UInt8}
    {t : Bencode} (h : decode bs opts = .ok t) :
    encode t = bs ∧ WellFormed opts.maxRecursionDepth t := by
  unfold decode at h
  split_ifs at h
  split at h
  · rename_i t' heq
    cases h
    obtain ⟨hbs, hwf⟩ := decodeValue_sound hopt _ _ _ _ heq
    exact ⟨by simpa using hbs.symm, hwf⟩
  · cases h
  · cases h

/-! ## The loops' item counts

Each container loop counts its items down from the number of bytes left after the opening byte.
In either key mode every item the decoder reads takes at least one byte, so any two counts that
cover the bytes left give the same result: the count never runs out before the input does. -/

/-- A bind is unchanged by a continuation that differs only off the computation's success.
Source: none: infrastructure
Kind: L -/
theorem bind_congr_ok {ε α β : Type} {x : Except ε α} {f g : α → Except ε β}
    (h : ∀ a, x = .ok a → f a = g a) : x >>= f = x >>= g := by
  cases x with
  | error e => rfl
  | ok a => exact h a rfl

/-- A decoded integer takes at least its `e`. Source: spec §4.2 step 2. Kind: L -/
theorem decodeInt_shortens {pos : Nat} {bs rest : List UInt8} {n : I64}
    (h : decodeInt pos bs = .ok (n, rest)) : rest.length < bs.length := by
  have := congrArg List.length (decodeInt_sound h)
  simp only [List.length_append, List.length_cons] at this
  omega

/-- A decoded byte string takes at least its `:`. Source: spec §4.2 step 3. Kind: L -/
theorem decodeBytes_shortens {pos : Nat} {bs s rest : List UInt8}
    (h : decodeBytes pos bs = .ok (s, rest)) : rest.length < bs.length := by
  have := congrArg List.length (decodeBytes_sound h)
  simp only [encodeBytes, List.length_append, List.length_cons] at this
  omega

/-- A dictionary key is a byte string. Source: spec §4.2 step 5. Kind: L -/
theorem decodeKey_shortens {pos : Nat} {bs key rest : List UInt8}
    (h : decodeKey pos bs = .ok (key, rest)) : rest.length < bs.length := by
  cases bs with
  | nil => cases h
  | cons b bs =>
    simp only [decodeKey] at h
    split_ifs at h
    exact decodeBytes_shortens h

section Counts

variable {total : Nat} {elem : List UInt8 → BencodeParseResult (Bencode × List UInt8)}

/-- The list loop ends on a byte after its last item, so it returns less than it was given when
each item does.
Source: spec §4.2 step 4
Kind: L -/
theorem decodeList_shortens
    (helem : ∀ bs t rest, elem bs = .ok (t, rest) → rest.length < bs.length) :
    ∀ (items : Nat) (acc : List Bencode) (bs : List UInt8) (t : Bencode) (rest : List UInt8),
      decodeList total elem items acc bs = .ok (t, rest) → rest.length < bs.length
  | _, _, [], _, _, h => by simp [decodeList] at h
  | items, acc, b :: bs, t, rest, h => by
    unfold decodeList at h
    split_ifs at h
    · cases h; exact Nat.lt_succ_self _
    · cases items with
      | zero => cases h
      | succ items =>
        obtain ⟨⟨v, rest'⟩, hv, h⟩ := bind_eq_ok.mp h
        exact (decodeList_shortens helem items _ _ _ _ h).trans (helem _ _ _ hv)

/-- The dictionary loop returns less than it was given when each value read does.
Source: spec §4.2 step 5
Kind: L -/
theorem decodeDict_shortens {opts : BDecodeOpt}
    (helem : ∀ bs t rest, elem bs = .ok (t, rest) → rest.length < bs.length) :
    ∀ (items : Nat) (acc : SortedDict Bencode) (bs : List UInt8) (t : Bencode)
      (rest : List UInt8),
      decodeDict opts total elem items acc bs = .ok (t, rest) → rest.length < bs.length
  | _, _, [], _, _, h => by simp [decodeDict] at h
  | items, acc, b :: bs, t, rest, h => by
    unfold decodeDict at h
    split_ifs at h
    · cases h; exact Nat.lt_succ_self _
    · cases items with
      | zero => cases h
      | succ items =>
        obtain ⟨⟨key, rest₁⟩, hkey, h⟩ := bind_eq_ok.mp h
        obtain ⟨⟨⟩, -, h⟩ := bind_eq_ok.mp h
        obtain ⟨⟨v, rest₂⟩, hv, h⟩ := bind_eq_ok.mp h
        calc rest.length < rest₂.length := decodeDict_shortens helem items _ _ _ _ h
          _ < rest₁.length := helem _ _ _ hv
          _ < (b :: bs).length := decodeKey_shortens hkey

/-- Any two item counts that cover the bytes left give the list loop the same result, when
each item read takes a byte.
Source: spec §4.2 step 4
Kind: L -/
theorem decodeList_count
    (helem : ∀ bs t rest, elem bs = .ok (t, rest) → rest.length < bs.length) :
    ∀ (n m : Nat) (acc : List Bencode) (bs : List UInt8), bs.length ≤ n → bs.length ≤ m →
      decodeList total elem n acc bs = decodeList total elem m acc bs
  | _, _, _, [], _, _ => by simp only [decodeList]
  | 0, _, _, _ :: _, hn, _ => absurd hn (by simp)
  | _, 0, _, _ :: _, _, hm => absurd hm (by simp)
  | n + 1, m + 1, acc, b :: bs, hn, hm => by
    simp only [decodeList]
    split_ifs
    · rfl
    · refine bind_congr_ok fun ⟨v, rest⟩ hv => ?_
      have := helem _ _ _ hv
      simp only [List.length_cons] at this hn hm
      exact decodeList_count helem n m _ rest (by omega) (by omega)

/-- Any two item counts that cover the bytes left give the dictionary loop the same result,
when each value read takes a byte.
Source: spec §4.2 step 5
Kind: L -/
theorem decodeDict_count {opts : BDecodeOpt}
    (helem : ∀ bs t rest, elem bs = .ok (t, rest) → rest.length < bs.length) :
    ∀ (n m : Nat) (acc : SortedDict Bencode) (bs : List UInt8),
      bs.length ≤ n → bs.length ≤ m →
        decodeDict opts total elem n acc bs = decodeDict opts total elem m acc bs
  | _, _, _, [], _, _ => by simp only [decodeDict]
  | 0, _, _, _ :: _, hn, _ => absurd hn (by simp)
  | _, 0, _, _ :: _, _, hm => absurd hm (by simp)
  | n + 1, m + 1, acc, b :: bs, hn, hm => by
    simp only [decodeDict]
    split_ifs
    · rfl
    · refine bind_congr_ok fun ⟨key, rest₁⟩ hkey => bind_congr_ok fun _ _ =>
        bind_congr_ok fun ⟨v, rest₂⟩ hv => ?_
      have := (helem _ _ _ hv).trans (decodeKey_shortens hkey)
      simp only [List.length_cons] at this hn hm
      exact decodeDict_count helem n m _ rest₂ (by omega) (by omega)

end Counts

/-- In either key mode, every value the decoder reads takes at least one byte.
Source: spec §4.2 steps 1-6
Kind: L -/
theorem decodeValue_shortens (opts : BDecodeOpt) (total : Nat) :
    ∀ (budget : Nat) (bs : List UInt8) (t : Bencode) (rest : List UInt8),
      decodeValue opts total budget bs = .ok (t, rest) → rest.length < bs.length
  | _, [], _, _, h => by simp [decodeValue] at h
  | budget, b :: bs, t, rest, h => by
    unfold decodeValue at h
    split at h
    · obtain ⟨⟨n, rest'⟩, hn, h⟩ := bind_eq_ok.mp h
      cases h; exact Nat.lt_succ_of_lt (decodeInt_shortens hn)
    · obtain ⟨⟨s, rest'⟩, hs, h⟩ := bind_eq_ok.mp h
      cases h; exact decodeBytes_shortens hs
    · cases h
    · exact Nat.lt_succ_of_lt <| decodeList_shortens
        (fun _ _ _ => decodeValue_shortens opts total _ _ _ _) _ _ _ _ _ h
    · cases h
    · exact Nat.lt_succ_of_lt <| decodeDict_shortens
        (fun _ _ _ => decodeValue_shortens opts total _ _ _ _) _ _ _ _ _ h
    · cases h

end RustBT
