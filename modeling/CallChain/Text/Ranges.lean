/-
# Ranges of code points

A property of characters as a table of ranges.

Key definition: `Text.Ranges.covers`.
-/
namespace CallChain.Text

/-- Ranges of code points, each with its first and its last. -/
abbrev Ranges := List (Nat × Nat)

/-- Whether a character lies in one of the ranges. -/
def Ranges.covers (rs : Ranges) (c : Char) : Bool := rs.any fun (a, b) => a ≤ c.toNat && c.toNat ≤ b

end CallChain.Text
