/-
# Decimal digits

The number that decimal digits spell, and the numbers that fit into words of
64 and 32 bits.

Key definitions: `Text.digitsValue`, `Text.maxNat64`.
-/
namespace CallChain.Text

/-- The number that decimal digits spell. -/
def digitsValue (ds : List Char) : Nat := ds.foldl (fun n d => n * 10 + (d.toNat - '0'.toNat)) 0

/-- The greatest number without a sign in 64 bits. -/
def maxNat64 : Nat := 0xFFFFFFFFFFFFFFFF

/-- The greatest number without a sign in 32 bits. -/
def maxNat32 : Nat := 0xFFFFFFFF

/-- How far below zero numbers with a sign go in 64 bits. -/
def maxNegated64 : Nat := 0x8000000000000000

example : digitsValue ['0', '4', '2'] = 42 := by decide

end CallChain.Text
