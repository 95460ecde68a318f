import Mathlib.Data.Nat.Digits
import RustBT.Bencode.Basic

/-!
# Decimal text of integers and lengths

Bencode spells integers and byte-string lengths in ASCII decimal (spec §3, §4.4). The encoder
prints with `decimal` (a byte-level `Nat.toDigits`) and the decoder reads with `parseDecimal`
(a left fold, as `from_str_radix` reads). Both are related to Mathlib's `Nat.digits`, whose
lemmas give the two round trips:

* `parseDecimal_decimal` — reading what was printed gives the number back;
* `decimal_parseDecimal` — printing what was read gives the text back, for every text in the
  `Canonical` form the decoder accepts (no empty text, digits only, no leading zero);
* `canonical_decimal` — printed text is canonical;
* `encodeInt` and `intText_encodeInt`, `encodeInt_intText` — the same for signed integers,
  where the only extra spelling is one `-` before a nonzero magnitude.
-/

namespace RustBT

/-! ## Digits as bytes -/

/-- The ASCII byte of a digit `d < 10`.
Source: spec §4.4 "ASCII decimal"
Kind: D -/
def digitByte (d : Nat) : UInt8 := UInt8.ofNat (48 + d)

/-- The value of an ASCII digit byte.
Source: spec §4.2 "read decimal digits"
Kind: D -/
def digitVal (b : UInt8) : Nat := b.toNat - 48

/-- The digit bytes are those between `BYTE_LEN_LOW` and `BYTE_LEN_HIGH`.
Source: none: infrastructure
Kind: L -/
theorem isDigit_iff (b : UInt8) : isDigit b = true ↔ 48 ≤ b.toNat ∧ b.toNat ≤ 57 := by
  simp [isDigit, byteLenLow, byteLenHigh, UInt8.le_def, BitVec.le_def]; rfl

/-- The byte of a digit is `48` above it. Source: none: infrastructure. Kind: L -/
theorem toNat_digitByte {d : Nat} (hd : d < 10) : (digitByte d).toNat = 48 + d :=
  UInt8.toNat_ofNat_of_lt (by unfold UInt8.size; omega)

/-- Reading the byte of a digit gives the digit. Source: none: infrastructure. Kind: L -/
@[simp] theorem digitVal_digitByte {d : Nat} (hd : d < 10) : digitVal (digitByte d) = d := by
  simp [digitVal, toNat_digitByte hd]

/-- Printing the value of a digit byte gives the byte. Source: none: infrastructure. Kind: L -/
theorem digitByte_digitVal {b : UInt8} (hb : isDigit b = true) : digitByte (digitVal b) = b := by
  have := (isDigit_iff b).mp hb
  exact UInt8.toNat.inj (by rw [toNat_digitByte (by simp [digitVal]; omega), digitVal]; omega)

/-- Reading then printing a text of digits gives it back. Source: none: infrastructure. Kind: L -/
theorem map_digitByte_digitVal {ds : List UInt8} (h : ∀ b ∈ ds, isDigit b = true) :
    (ds.map digitVal).map digitByte = ds := by
  induction ds <;> simp_all [digitByte_digitVal]

/-- The byte of a digit is a digit byte. Source: none: infrastructure. Kind: L -/
theorem isDigit_digitByte {d : Nat} (hd : d < 10) : isDigit (digitByte d) = true := by
  rw [isDigit_iff, toNat_digitByte hd]; omega

/-- Only the digit `0` is spelled `BYTE_LEN_LOW`.
Source: none: infrastructure
Kind: L -/
theorem digitByte_eq_byteLenLow {d : Nat} (hd : d < 10) : digitByte d = byteLenLow ↔ d = 0 := by
  constructor
  · intro h; have := congrArg UInt8.toNat h
    rw [toNat_digitByte hd, toNat_byteLenLow] at this; omega
  · rintro rfl; rfl

/-! ## Printing -/

/-- `Nat.toDigitsCore` on bytes: prepends the digits of `n` to `ds`, with `fuel` bounding the
number of digits.
Source: spec §4.4 "ASCII decimal of `n`"
Kind: D -/
def decimalCore : Nat → Nat → List UInt8 → List UInt8
  | 0, _, ds => ds
  | fuel + 1, n, ds =>
    if n / 10 = 0 then digitByte (n % 10) :: ds
    else decimalCore fuel (n / 10) (digitByte (n % 10) :: ds)

/-- `n` in ASCII decimal, most significant digit first; `0` is `"0"`.
Source: spec §4.4 "ASCII decimal of `n`"
Kind: D -/
def decimal (n : Nat) : List UInt8 := decimalCore (n + 1) n []

/-- With enough fuel, `decimalCore` prepends the decimal digits of `n`, most significant first.
Source: none: infrastructure
Kind: L -/
theorem decimalCore_eq_digits :
    ∀ (fuel n : Nat) (ds : List UInt8), 0 < n → n < fuel →
      decimalCore fuel n ds = (Nat.digits 10 n).reverse.map digitByte ++ ds
  | 0, _, _, _, h => absurd h (Nat.not_lt_zero _)
  | fuel + 1, n, ds, hn, hf => by
    have hsplit := Nat.digits_def' (by norm_num : 1 < 10) hn
    unfold decimalCore
    split_ifs with h
    · have h10 : n < 10 := by omega
      rw [Nat.digits_of_lt 10 n (by omega) h10, Nat.mod_eq_of_lt h10]; rfl
    · rw [decimalCore_eq_digits fuel (n / 10) _ (by omega) (by omega), hsplit]
      simp

/-- The printed form of a positive number is its `Nat.digits`, most significant first.
Source: none: infrastructure
Kind: L -/
theorem decimal_eq_digits {n : Nat} (hn : 0 < n) :
    decimal n = (Nat.digits 10 n).reverse.map digitByte := by
  rw [decimal, decimalCore_eq_digits _ _ _ hn (Nat.lt_succ_self n), List.append_nil]

/-- Zero prints as `0`. Source: spec §4.4. Kind: L -/
@[simp] theorem decimal_zero : decimal 0 = [byteLenLow] := rfl

/-! ## Reading -/

/-- Reads ASCII digits as a number, most significant first (`u64::from_str_radix(_, 10)` on a
run of digits).
Source: spec §4.2 "read decimal digits"
Kind: D -/
def parseDecimal (ds : List UInt8) : Nat := ds.foldl (fun acc b => 10 * acc + digitVal b) 0

/-- The reading loop computes the number whose digits it reads, after the accumulator.
Source: none: infrastructure
Kind: L -/
theorem foldl_digits_eq (ds : List UInt8) (acc : Nat) :
    ds.foldl (fun acc b => 10 * acc + digitVal b) acc =
      acc * 10 ^ ds.length + Nat.ofDigits 10 (ds.map digitVal).reverse := by
  induction ds generalizing acc with
  | nil => simp
  | cons b ds ih =>
    rw [List.foldl_cons, ih, List.map_cons, List.reverse_cons, Nat.ofDigits_append,
      List.length_reverse, List.length_map, Nat.ofDigits_singleton, List.length_cons, pow_succ]
    ring

/-- `parseDecimal` is `Nat.ofDigits` of the digit values, least significant first.
Source: none: infrastructure
Kind: L -/
theorem parseDecimal_eq (ds : List UInt8) :
    parseDecimal ds = Nat.ofDigits 10 (ds.map digitVal).reverse := by
  rw [parseDecimal, foldl_digits_eq]; simp

/-- The spelling the decoder accepts for a length or a magnitude: nonempty, digits only, and
no leading `0` unless the text is `0` itself.
Source: spec §3 "no leading zeros", §4.2 steps 2-3
Kind: D -/
structure Canonical (ds : List UInt8) : Prop where
  ne_nil : ds ≠ []
  digits : ∀ b ∈ ds, isDigit b = true
  no_pad : ds.head? = some byteLenLow → ds = [byteLenLow]

/-- Reading printed text gives the number back.
Source: spec §8 property 1
Kind: L -/
@[simp] theorem parseDecimal_decimal (n : Nat) : parseDecimal (decimal n) = n := by
  rcases Nat.eq_zero_or_pos n with rfl | hn
  · rfl
  rw [decimal_eq_digits hn, parseDecimal_eq, List.map_map,
    List.map_congr_left (fun d hd => by
      exact digitVal_digitByte (Nat.digits_lt_base (by norm_num) (List.mem_reverse.mp hd))),
    List.map_id', List.reverse_reverse, Nat.ofDigits_digits]

/-- Printed text is canonical.
Source: spec §4.4
Kind: L -/
theorem canonical_decimal (n : Nat) : Canonical (decimal n) := by
  rcases Nat.eq_zero_or_pos n with rfl | hn
  · exact ⟨by simp, by simp [isDigit_iff], fun _ => rfl⟩
  have hne : Nat.digits 10 n ≠ [] := Nat.digits_ne_nil_iff_ne_zero.mpr hn.ne'
  rw [decimal_eq_digits hn]
  refine ⟨by simpa using hne, ?_, fun h => ?_⟩
  · simp only [List.mem_map, List.mem_reverse]
    rintro _ ⟨d, hd, rfl⟩
    exact isDigit_digitByte (Nat.digits_lt_base (by norm_num) hd)
  · rw [List.head?_map, List.head?_reverse, List.getLast?_eq_getLast _ hne, Option.map_some',
      Option.some_inj, digitByte_eq_byteLenLow (Nat.digits_lt_base (by norm_num)
        (List.getLast_mem hne))] at h
    exact absurd h (Nat.getLast_digit_ne_zero 10 hn.ne')

/-- Printing canonical text read as a number gives the text back.
Source: spec §8 property 1
Kind: L -/
theorem decimal_parseDecimal {ds : List UInt8} (hc : Canonical ds) :
    decimal (parseDecimal ds) = ds := by
  obtain ⟨b, bs, rfl⟩ := List.exists_cons_of_ne_nil hc.ne_nil
  by_cases hb : b = byteLenLow
  · rw [hc.no_pad (by simp [hb])]; rfl
  have hbd := (isDigit_iff b).mp (hc.digits b (List.mem_cons_self _ _))
  have hlt : ∀ l ∈ ((b :: bs).map digitVal).reverse, l < 10 := by
    simp only [List.mem_reverse, List.mem_map]
    rintro _ ⟨c, hcm, rfl⟩
    have := (isDigit_iff c).mp (hc.digits c hcm); simp [digitVal]; omega
  have hlast : ∀ h, (((b :: bs).map digitVal).reverse).getLast h ≠ 0 := by
    intro h
    rw [List.getLast_reverse]
    simp only [List.map_cons, List.head_cons, digitVal]
    have : b.toNat ≠ 48 := fun e => hb (UInt8.toNat.inj (e.trans toNat_byteLenLow.symm))
    omega
  have hdig := Nat.digits_ofDigits 10 (by norm_num) _ hlt hlast
  rw [parseDecimal_eq, decimal_eq_digits (Nat.pos_of_ne_zero fun h0 => by
    rw [h0, Nat.digits_zero] at hdig; simp at hdig), hdig, List.reverse_reverse,
    map_digitByte_digitVal hc.digits]

/-! ## Signed integers -/

/-- The ASCII minus sign, `-`.
Source: spec §6 `<int> ::= 'i' ['-'] DIGITS 'e'`
Kind: D -/
def minusSign : UInt8 := 45

/-- An integer in ASCII decimal: a `-` before the magnitude when negative.
Source: spec §4.4 "`Int(n)` → `i` + ASCII decimal of `n` + `e`"
Kind: D -/
def encodeInt (n : Int) : List UInt8 :=
  if n < 0 then minusSign :: decimal n.natAbs else decimal n.natAbs

/-- The integer spelled by a text the decoder accepts, or `none`: either a canonical magnitude,
or `-` and a canonical magnitude that is not `0`. Spec §4.2 step 2 rejects `i-0e`, `i00e`,
`i01e` and the empty digit span.
Source: spec §4.2 step 2; §8 property 4
Kind: D -/
def intText : List UInt8 → Option Int
  | [] => none
  | b :: ds =>
    if b = minusSign then
      if ds ≠ [] ∧ (∀ c ∈ ds, isDigit c = true) ∧ ds.head? ≠ some byteLenLow then
        some (-(parseDecimal ds : Int))
      else none
    else if (∀ c ∈ b :: ds, isDigit c = true) ∧ (b = byteLenLow → ds = []) then
      some (parseDecimal (b :: ds))
    else none

/-- The minus sign is not a digit. Source: none: infrastructure. Kind: L -/
theorem minusSign_not_digit : isDigit minusSign = false := by decide

/-- The text of an integer reads back as that integer.
Source: spec §8 property 1
Kind: L -/
theorem intText_encodeInt (n : Int) : intText (encodeInt n) = some n := by
  have hc := canonical_decimal n.natAbs
  unfold encodeInt
  split_ifs with hn
  · have hnz : n.natAbs ≠ 0 := by omega
    have hhead : (decimal n.natAbs).head? ≠ some byteLenLow := fun h => by
      have := congrArg parseDecimal (hc.no_pad h); rw [parseDecimal_decimal] at this
      exact hnz (this.trans rfl)
    simp only [intText, if_true, if_pos (⟨hc.ne_nil, hc.digits, hhead⟩ : _ ∧ _ ∧ _),
      parseDecimal_decimal, Option.some.injEq]
    omega
  · obtain ⟨b, ds, hbd⟩ := List.exists_cons_of_ne_nil hc.ne_nil
    have hb : b ≠ minusSign := fun e => by
      have := hc.digits b (by simp [hbd]); rw [e, minusSign_not_digit] at this; contradiction
    have hpad : b = byteLenLow → ds = [] := fun e => by
      have := hc.no_pad (by simp [hbd, e]); rw [hbd] at this; exact (List.cons.inj this).2
    rw [hbd, intText, if_neg hb, if_pos ⟨hbd ▸ hc.digits, hpad⟩, ← hbd, parseDecimal_decimal]
    simp only [Option.some.injEq]; omega

/-- An accepted text is the text of the integer it reads as.
Source: spec §4.4 "Round-trip canonicality requirement"
Kind: L -/
theorem encodeInt_intText {s : List UInt8} {n : Int} (h : intText s = some n) :
    encodeInt n = s := by
  match s, h with
  | b :: ds, h =>
    simp only [intText] at h
    split_ifs at h with hm hds hc
    · obtain ⟨hne, hdig, hhead⟩ := hds
      obtain ⟨c, cs, rfl⟩ := List.exists_cons_of_ne_nil hne
      have hcan : Canonical (c :: cs) := ⟨hne, hdig, fun h' => absurd h' hhead⟩
      have hpos : 0 < parseDecimal (c :: cs) := Nat.pos_of_ne_zero fun h0 => by
        have := decimal_parseDecimal hcan; rw [h0, decimal_zero] at this
        exact hhead (by rw [← this]; rfl)
      cases h
      rw [encodeInt, if_pos (by omega), hm]
      simp only [Int.natAbs_neg, Int.natAbs_ofNat, decimal_parseDecimal hcan]
    · obtain ⟨hdig, hpad⟩ := hc
      have hcan : Canonical (b :: ds) := ⟨List.cons_ne_nil _ _, hdig, fun h' => by
        simp only [List.head?_cons, Option.some.injEq] at h'; rw [h', hpad h']⟩
      cases h
      rw [encodeInt, if_neg (by omega)]
      simp only [Int.natAbs_ofNat, decimal_parseDecimal hcan]

end RustBT
