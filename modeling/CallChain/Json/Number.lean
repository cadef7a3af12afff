/-
# Numbers in JSON

From a number literal to what it stands for. An integer of at most 64 bits is
read exactly. Any other number is read as a double: its digits are kept as
long as they fit into 64 bits, those after them only move the power of ten,
and the product of the two, each rounded to a double, must not be infinite.

Key definitions: `Json.readNumber`, `Json.Scaled.ofDigits`,
`Json.roundToDouble`.
-/
import CallChain.Json.Value
import CallChain.Text.Digits

namespace CallChain.Json

/-- A number as a significand and a power of ten. -/
structure Scaled where
  significand : Nat
  exponent : Int

/-- Digits added to a number as long as it fits into 64 bits, and how many of
them are left then. -/
def keepDigits (n : Nat) : List Char → Nat × Nat
  | [] => (n, 0)
  | d :: ds =>
    let next := n * 10 + (d.toNat - '0'.toNat)
    if next ≤ Text.maxNat64 then keepDigits next ds else (n, ds.length + 1)

/-- The number that digits before and after a point spell: digits left before
the point count as zeros, digits left after it do not count. -/
def Scaled.ofDigits (whole fraction : List Char) : Scaled :=
  let (n, zeros) := keepDigits 0 whole
  let (n, unused) := keepDigits n fraction
  ⟨n, zeros - (fraction.length - unused : Nat)⟩

/-- The double nearest to a whole number, of two as near the one with an even
significand: the first 53 binary digits stay. -/
def roundToDouble (n : Nat) : Nat :=
  let unit := Nat.pow 2 (n.log2 - 52)
  let down := n / unit
  let half := 2 * (n % unit)
  if half < unit || (half == unit && down % 2 == 0) then down * unit else (down + 1) * unit

example : roundToDouble 0x20000000000001 = 0x20000000000000 ∧
    roundToDouble 0x20000000000003 = 0x20000000000004 := by decide +kernel

/-- The least number that no finite double is nearest to. -/
def doubleBound : Nat := Nat.pow 2 1024 - Nat.pow 2 970

/-- The greatest power of ten that is a finite double. -/
def maxPowerOfTen : Nat := 308

/-- Whether a number is a finite double, read as the product of its
significand and its power of ten. A negative power divides. -/
def Scaled.isFinite (x : Scaled) : Bool :=
  x.significand == 0 || x.exponent < 0 ||
    (x.exponent ≤ maxPowerOfTen &&
      roundToDouble x.significand * roundToDouble (Nat.pow 10 x.exponent.toNat) < doubleBound)

/-- The digits after a point, if a point comes next. -/
def readFraction : List Char → Option (List Char × List Char)
  | '.' :: rest =>
    let ds := rest.takeWhile Char.isDigit
    if ds.isEmpty then none else some (ds, rest.dropWhile Char.isDigit)
  | cs => some ([], cs)

/-- The exponent, if one comes next. -/
def readExponent : List Char → Option (Option Int × List Char)
  | [] => some (none, [])
  | c :: rest =>
    if c == 'e' || c == 'E' then
      let (negative, rest) := match rest with
        | '-' :: r => (true, r)
        | '+' :: r => (false, r)
        | r => (false, r)
      let ds := rest.takeWhile Char.isDigit
      if ds.isEmpty then none
      else
        let n : Int := Text.digitsValue ds
        some (some (if negative then -n else n), rest.dropWhile Char.isDigit)
    else some (none, c :: rest)

/-- A number. An integer literal of at most 64 bits is a `num` (zero only
without a sign), any other a `real`. -/
def readNumber (cs : List Char) : Option (Json × List Char) := do
  let (negative, unsigned) := match cs with
    | '-' :: r => (true, r)
    | r => (false, r)
  let whole := unsigned.takeWhile Char.isDigit
  if whole.isEmpty || (whole.length > 1 && whole.head? == some '0') then none
  else
    let (fraction, rest) ← readFraction (unsigned.dropWhile Char.isDigit)
    let (exponent, rest) ← readExponent rest
    let n := Text.digitsValue whole
    if fraction.isEmpty && exponent.isNone && !negative && n ≤ Text.maxNat64 then
      some (.num n, rest)
    else if fraction.isEmpty && exponent.isNone && negative && 0 < n && n ≤ Text.maxNegated64 then
      some (.num (-n), rest)
    else
      let digits := Scaled.ofDigits whole fraction
      if Scaled.isFinite ⟨digits.significand, digits.exponent + exponent.getD 0⟩ then
        some (.real (String.ofList (cs.take (cs.length - rest.length))), rest)
      else some (.unreadable, rest)

end CallChain.Json
