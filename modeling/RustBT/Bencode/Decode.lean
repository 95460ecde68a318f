import RustBT.Bencode.Encode

/-!
# The borrowed decoder

`BencodeRef::decode(bytes, opts)` (spec §4.2). Its source, `reference/decode.rs` of
`bip_bencode`, is not among the files at hand (only `lib.rs`, with the sigils, is), so every
definition here is modelled from the spec's recursive-descent description:

* `decodeInt` — `i`, an optional `-`, digits, `e`; `i-0e`, `i00e`, `i01e`, an empty or
  non-decimal digit span and a value outside `i64` are rejected;
* `decodeBytes` — a length without leading zeros, `:`, then that many bytes, rejected when the
  length exceeds what is left;
* `decodeList`, `decodeDict` — items until `e`; a dictionary key must be a byte string, above the
  previous key when `enforceSortedKeys` holds, and never a duplicate; entries go into a
  `BTreeMap` (`SortedDict`), so a decoded dictionary has sorted keys by construction;
* `decodeValue` — dispatch on the token scanner; entering a container spends one unit of the
  recursion budget, and a container entered with none left is
  `InvalidRecursionLimitExceeded`;
* `decode` — one value and nothing after it; the empty buffer and trailing bytes are
  `BytesEmpty`.

The recursion is structural: nesting on the remaining depth budget (which is the spec's own
bound), and each container loop on a count of items that starts at the number of bytes left.
Every value read takes at least one byte (`decodeValue_shortens` in `Sound.lean`), so any count
that covers the bytes left gives a loop the same result (`decodeList_count`, `decodeDict_count`):
the count never runs out before the input does. `Sound.lean` and `Complete.lean` prove what the
loops compute.
-/

namespace RustBT

/-- Modelled from the spec: `BDecodeOpt`, the decode options with their defaults (spec §3
"Decode options"; `reference/decode_opt.rs` is not at hand).
Source: spec §3
Kind: D -/
structure BDecodeOpt where
  /-- Containers that may be nested before decoding fails. -/
  maxRecursionDepth : Nat := 50
  /-- Whether each dictionary key must be above the previous one. -/
  enforceSortedKeys : Bool := true

/-- Modelled from the spec: `BencodeParseErrorKind`, each failure with the byte offset where it
was found (spec §4.7, §7; `error.rs` is not at hand).
Source: spec §4.7
Kind: D -/
inductive BencodeParseErrorKind where
  | bytesEmpty
  | invalidByte (pos : Nat)
  | invalidIntNoDelimiter (pos : Nat)
  | invalidIntNegativeZero (pos : Nat)
  | invalidIntZeroPadding (pos : Nat)
  | invalidIntParseError (pos : Nat)
  | invalidKeyOrdering (pos : Nat) (key : List UInt8)
  | invalidKeyDuplicates (pos : Nat) (key : List UInt8)
  | invalidLengthOverflow (pos : Nat)
  | invalidRecursionLimitExceeded (pos : Nat)
  deriving DecidableEq, Repr

/-- The result of a decoding step.
Source: spec §4.7 "`BencodeParseResult`"
Kind: D -/
abbrev BencodeParseResult (α : Type) := Except BencodeParseErrorKind α

/-- A computation in `Except` succeeds through a bind exactly when both halves do.
Source: none: infrastructure
Kind: L -/
theorem bind_eq_ok {ε α β : Type} {x : Except ε α} {f : α → Except ε β} {b : β} :
    x >>= f = .ok b ↔ ∃ a, x = .ok a ∧ f a = .ok b := by
  cases x <;> simp [bind, Except.bind]

/-- Binding a success runs the continuation. Source: none: infrastructure. Kind: L -/
@[simp] theorem ok_bind {ε α β : Type} (a : α) (f : α → Except ε β) :
    (Except.ok a >>= f) = f a := rfl

/-- `pure` is success. Source: none: infrastructure. Kind: L -/
@[simp] theorem pure_eq_ok {ε α : Type} (a : α) : (pure a : Except ε α) = .ok a := rfl

/-- Binding an error returns it. Source: none: infrastructure. Kind: L -/
@[simp] theorem error_bind {ε α β : Type} (e : ε) (f : α → Except ε β) :
    (Except.error e >>= f) = .error e := rfl

/-- Relabelling the errors of a computation keeps its successes. Source: none: infrastructure.
Kind: L -/
theorem mapError_eq_ok {ε ε' α : Type} {x : Except ε α} {f : ε → ε'} {a : α} :
    x.mapError f = .ok a ↔ x = .ok a := by
  cases x <;> simp [Except.mapError]

/-- A property of every error of both halves of a bind holds of every error of the bind.
Source: none: infrastructure
Kind: L -/
theorem bind_error {ε α β : Type} {P : ε → Prop} {x : Except ε α} {f : α → Except ε β} {e : ε}
    (h : x >>= f = .error e) (hx : ∀ e, x = .error e → P e) (hf : ∀ a e, f a = .error e → P e) :
    P e := by
  cases x with
  | error e' => exact Except.error.inj ((error_bind e' f).symm.trans h) ▸ hx e' rfl
  | ok a => exact hf a e h

/-- The bytes before the first `delim` and those after it, or `none` when there is no `delim`
(the scanner's `position(|n| *n == delim)`).
Source: spec §4.1 "Length prefix is read up to `:`"
Kind: D -/
def splitAtDelim (delim : UInt8) : List UInt8 → Option (List UInt8 × List UInt8)
  | [] => none
  | b :: bs => if b = delim then some ([], bs) else
    (splitAtDelim delim bs).map fun p => (b :: p.1, p.2)

/-- Modelled from the spec: `decode_int`, the integer after an `i` up to its `e`.
Source: spec §4.2 step 2; §8 property 4
Kind: D -/
def decodeInt (pos : Nat) (bs : List UInt8) : BencodeParseResult (I64 × List UInt8) :=
  match splitAtDelim benEnd bs with
  | none => .error (.invalidIntNoDelimiter pos)
  | some (text, rest) =>
    if 1 < text.length ∧ text.head? = some minusSign ∧ text[1]? = some byteLenLow then
      .error (.invalidIntNegativeZero pos)
    else if 1 < text.length ∧ text.head? = some byteLenLow then
      .error (.invalidIntZeroPadding pos)
    else match intText text with
      | none => .error (.invalidIntParseError pos)
      | some n =>
        if h : -9223372036854775808 ≤ n ∧ n < 9223372036854775808 then
          .ok (⟨n, h.1, h.2⟩, rest)
        else .error (.invalidIntParseError pos)

/-- Modelled from the spec: `decode_bytes`, a length prefix, `:` and that many bytes.
Source: spec §4.2 step 3; §8 property 5
Kind: D -/
def decodeBytes (pos : Nat) (bs : List UInt8) : BencodeParseResult (List UInt8 × List UInt8) :=
  match splitAtDelim byteLenEnd bs with
  | none => .error (.invalidIntNoDelimiter pos)
  | some (text, rest) =>
    if 1 < text.length ∧ text.head? = some byteLenLow then .error (.invalidIntZeroPadding pos)
    else if text ≠ [] ∧ text.all isDigit then
      if parseDecimal text ≤ rest.length then
        .ok (rest.take (parseDecimal text), rest.drop (parseDecimal text))
      else .error (.invalidLengthOverflow pos)
    else .error (.invalidIntParseError pos)

/-- Modelled from the spec: the key checks of `decode_dict`. With `enforceSortedKeys` the key
must be above the previous key; an equal key is always a duplicate.
Source: spec §4.2 step 5; §8 property 3
Kind: D -/
def checkKey (opts : BDecodeOpt) (pos : Nat) (key : List UInt8)
    (acc : List (List UInt8 × Bencode)) : BencodeParseResult Unit :=
  match opts.enforceSortedKeys, acc.getLast? with
  | true, some (prev, _) =>
    if key = prev then .error (.invalidKeyDuplicates pos key)
    else if keyLt prev key then .ok ()
    else .error (.invalidKeyOrdering pos key)
  | _, _ => if (acc.lookup key).isSome then .error (.invalidKeyDuplicates pos key) else .ok ()

/-- Modelled from the spec: a dictionary key, which must be a byte string at the cursor.
Source: spec §4.2 step 5 "parse a **byte-string key**"
Kind: D -/
def decodeKey (pos : Nat) : List UInt8 → BencodeParseResult (List UInt8 × List UInt8)
  | [] => .error (.invalidByte pos)
  | b :: bs => if isDigit b then decodeBytes pos (b :: bs) else .error (.invalidByte pos)

/-- Modelled from the spec: `decode_list`, items until `e`, each read by `elem`. `total` is the
length of the whole buffer, so `total - bs.length` is the cursor.
Source: spec §4.2 step 4
Kind: D -/
def decodeList (total : Nat) (elem : List UInt8 → BencodeParseResult (Bencode × List UInt8)) :
    Nat → List Bencode → List UInt8 → BencodeParseResult (Bencode × List UInt8)
  | _, _, [] => .error (.invalidByte total)
  | items, acc, b :: bs =>
    if b = benEnd then .ok (.list acc, bs) else
    match items with
    | 0 => .error (.invalidByte (total - (b :: bs).length))
    | items + 1 => do
      let (v, rest) ← elem (b :: bs)
      decodeList total elem items (acc ++ [v]) rest

/-- Modelled from the spec: `decode_dict`, key-value entries until `e`, each value read by
`elem`, each key checked by `checkKey` against the entries so far and stored in the `BTreeMap`
being filled.
Source: spec §4.2 step 5
Kind: D -/
def decodeDict (opts : BDecodeOpt) (total : Nat)
    (elem : List UInt8 → BencodeParseResult (Bencode × List UInt8)) :
    Nat → SortedDict Bencode → List UInt8 → BencodeParseResult (Bencode × List UInt8)
  | _, _, [] => .error (.invalidByte total)
  | items, acc, b :: bs =>
    if b = benEnd then .ok (.dict acc.entries, bs) else
    match items with
    | 0 => .error (.invalidByte (total - (b :: bs).length))
    | items + 1 => do
      let pos := total - (b :: bs).length
      let (key, rest) ← decodeKey pos (b :: bs)
      checkKey opts pos key acc.entries
      let (v, rest') ← elem rest
      decodeDict opts total elem items (acc.insert key v) rest'

/-- Modelled from the spec: `decode`'s recursive step, one value at the front of `bs` with
`budget` containers still allowed.
Source: spec §4.2 steps 1-6
Kind: D -/
def decodeValue (opts : BDecodeOpt) (total : Nat) :
    Nat → List UInt8 → BencodeParseResult (Bencode × List UInt8)
  | _, [] => .error (.invalidByte total)
  | budget, b :: bs =>
    let pos := total - (b :: bs).length
    match scan b, budget with
    | .int, _ => do
      let (n, rest) ← decodeInt pos bs
      pure (.int n, rest)
    | .bytes, _ => do
      let (s, rest) ← decodeBytes pos (b :: bs)
      pure (.bytes s, rest)
    | .list, 0 => .error (.invalidRecursionLimitExceeded pos)
    | .list, budget + 1 => decodeList total (decodeValue opts total budget) bs.length [] bs
    | .dict, 0 => .error (.invalidRecursionLimitExceeded pos)
    | .dict, budget + 1 =>
      decodeDict opts total (decodeValue opts total budget) bs.length .empty bs
    | .invalid, _ => .error (.invalidByte pos)

/-- Modelled from the spec: `BencodeRef::decode(bytes, opts)`, exactly one value.
Source: spec §4.2 step 7, edge cases
Kind: D -/
def decode (bytes : List UInt8) (opts : BDecodeOpt) : BencodeParseResult Bencode :=
  if bytes = [] then .error .bytesEmpty else
  match decodeValue opts bytes.length opts.maxRecursionDepth bytes with
  | .ok (t, []) => .ok t
  | .ok (_, _ :: _) => .error .bytesEmpty
  | .error e => .error e

/-- Scenario S4, `d3:bari1e3:fooi2ee`: a dictionary whose two keys arrive in order.
Source: spec §8 scenario S4
Kind: D -/
def barFooBytes : List UInt8 :=
  [100, 51, 58, 98, 97, 114, 105, 49, 101, 51, 58, 102, 111, 111, 105, 50, 101, 101]

/-- The dictionary of scenario S4: `bar` ↦ 1, then `foo` ↦ 2.
Source: spec §8 scenario S4
Kind: D -/
def barFoo : Bencode :=
  .dict [([98, 97, 114], .int ⟨1, by decide, by decide⟩),
    ([102, 111, 111], .int ⟨2, by decide, by decide⟩)]

/-- The entries of scenario S5, `d3:fooi1e3:bari2ee`, in the order it spells them: `foo` ↦ 1,
then `bar` ↦ 2, keys out of order.
Source: spec §8 scenario S5
Kind: D -/
def fooBar : Bencode :=
  .dict [([102, 111, 111], .int ⟨1, by decide, by decide⟩),
    ([98, 97, 114], .int ⟨2, by decide, by decide⟩)]

/-- Scenarios S3-S6 of the spec: `d` fails at the end of input; `d3:bari1e3:fooi2ee` decodes;
`d3:fooi1e3:bari2ee` has its keys out of order; `i-0e` is a negative zero. -/
example : decode [100] {} = .error (.invalidByte 1) := rfl

example : decode barFooBytes {} = .ok barFoo := rfl

example : decode fooBar.encode {} = .error (.invalidKeyOrdering 9 [98, 97, 114]) := rfl

example : decode [105, 45, 48, 101] {} = .error (.invalidIntNegativeZero 0) := rfl

/-- The stored order of S5's entries is not key order, so there `encode` and the key-sorted
encoding of spec §4.4 differ (they agree on sorted entries, `encodeSorted_eq`); on S4 they agree
and give its buffer. -/
example : fooBar.encodeSorted ≠ fooBar.encode ∧ barFoo.encodeSorted = barFooBytes := by decide

end RustBT
