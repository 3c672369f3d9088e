import MixAsm.Text.Decimal

namespace MixAsm.Json

/-!
# Numbers of a JSON document

A number is kept as it is written: a sign, the whole part, and where they are written the digits
of the fraction and the exponent. So `1`, `1.0` and `1e0` stay three numbers.

* `Number.ofLiteral?` — the number that a literal writes;
* `Number.toNat?` — the value of a plain natural number;
* `Number.isFinite` — whether a 64-bit binary floating-point number can hold its magnitude.
-/

/-- A number as it is written. -/
structure Number where
  negative : Bool
  whole : Nat
  fraction : Option (List Char)
  exponent : Option Int
  deriving DecidableEq, Repr

namespace Number

/-- A natural number in plain digits. -/
def ofNat (n : Nat) : Number := ⟨false, n, none, none⟩

/-- The value of a number in plain digits. -/
def toNat? (n : Number) : Option Nat :=
  if n.negative || n.fraction.isSome || n.exponent.isSome then none else some n.whole

@[simp] theorem toNat?_ofNat (n : Nat) : (ofNat n).toNat? = some n := by simp [ofNat, toNat?]

/-! ### Writing -/

/-- An integer in decimal digits. -/
def intText (i : Int) : List Char :=
  (if i < 0 then ['-'] else []) ++ Nat.toDigits 10 i.natAbs

/-- The literal that writes the number. -/
def text (n : Number) : List Char :=
  (if n.negative then ['-'] else []) ++ Nat.toDigits 10 n.whole
    ++ (n.fraction.map ('.' :: ·)).getD []
    ++ (n.exponent.map ('e' :: intText ·)).getD []

/-! ### Reading -/

/-- The number without the exponent that `cs` starts with, and what follows it. A whole part has
    no leading zero, and a point is followed by a digit. -/
def ofDecimal? (negative : Bool) (cs : List Char) : Option (Number × List Char) :=
  let digits := cs.takeWhile Char.isDigit
  if digits = [] ∨ (digits.head? = some '0' ∧ digits ≠ ['0']) then none
  else
    let whole := Text.digitsValue digits
    match cs.dropWhile Char.isDigit with
    | '.' :: rest =>
      let fraction := rest.takeWhile Char.isDigit
      if fraction = [] then none
      else some (⟨negative, whole, some fraction, none⟩, rest.dropWhile Char.isDigit)
    | rest => some (⟨negative, whole, none, none⟩, rest)

/-- The exponent that `cs` writes behind its `e`. -/
def exponent? (cs : List Char) : Option Int :=
  match cs with
  | '-' :: digits => if Text.isNumeral digits then some (-(Text.digitsValue digits : Int)) else none
  | _ => (Text.literal? cs).map Int.ofNat

/-- The number `n` with what is written behind its digits: nothing, or an exponent. -/
def withExponent? (n : Number) : List Char → Option Number
  | [] => some n
  | e :: cs =>
    if e = 'e' ∨ e = 'E' then (exponent? cs).map fun i => { n with exponent := some i } else none

/-- The number that a literal writes. -/
def ofLiteral? (cs : List Char) : Option Number :=
  let decimal := match cs with
    | '-' :: digits => ofDecimal? true digits
    | _ => ofDecimal? false cs
  decimal.bind fun (n, rest) => n.withExponent? rest

/-! ### Magnitude -/

/-- The nearest number with 53 significant bits; a number halfway goes to the even neighbour. -/
def roundTo53Bits (n : Nat) : Nat :=
  let unit := Nat.pow 2 (n.log2 - 52)
  let quotient := n / unit
  let rest := n % unit
  if unit < 2 * rest ∨ (unit = 2 * rest ∧ quotient % 2 = 1) then (quotient + 1) * unit
  else quotient * unit

/-- The longest run of digits at the front whose value is below `2 ^ 64`, as its value and its
    length. -/
def significand (value length : Nat) : List Char → Nat × Nat
  | [] => (value, length)
  | d :: ds =>
    let next := 10 * value + (d.toNat - '0'.toNat)
    if next < UInt64.size then significand next (length + 1) ds else (value, length)

/-- The least magnitude that rounds to infinity. -/
def infinite : Nat := Nat.pow 2 1024 - Nat.pow 2 970

/-- Can a 64-bit binary floating-point number hold the magnitude? The digits that fit into 64 bits
    are taken, and multiplied by the power of ten that is left; both factors are rounded first. -/
def isFinite (n : Number) : Bool :=
  let wholeDigits := Nat.toDigits 10 n.whole
  let (value, length) := significand 0 0 (wholeDigits ++ n.fraction.getD [])
  let power : Int := wholeDigits.length - length + n.exponent.getD 0
  if value = 0 ∨ power < 0 then true
  else if 308 < power then false
  else roundTo53Bits value * roundTo53Bits (Nat.pow 10 power.toNat) < infinite

end Number

end MixAsm.Json
