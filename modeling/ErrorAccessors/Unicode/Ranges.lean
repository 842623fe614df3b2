/-
# Sets of characters given by ranges

The Unicode character classes used by this library are tables of closed code
point ranges.  `Ranges` is such a table, kept in increasing order, and
`Ranges.contains` decides membership.  Because the ranges increase, the search
stops at the first range that starts above the character, so the common ASCII
characters are decided by the first few entries.
-/

namespace ErrorAccessors.Unicode

/-- A set of code points, written as closed ranges in increasing order. -/
abbrev Ranges := List (Nat × Nat)

namespace Ranges

/-- Consecutive ranges neither touch out of order nor overlap, and none is
empty.  This is what makes the early exit of `contains` correct. -/
def Increasing : Ranges → Bool
  | [] => true
  | [(low, high)] => low ≤ high
  | (low, high) :: (low', high') :: rest =>
    low ≤ high && high < low' && Increasing ((low', high') :: rest)

/-- Membership of a code point in an increasing table. -/
def containsCode : Ranges → Nat → Bool
  | [], _ => false
  | (low, high) :: rest, code =>
    if code < low then false
    else if code ≤ high then true
    else containsCode rest code

/-- Membership of a character in an increasing table. -/
def contains (ranges : Ranges) (c : Char) : Bool :=
  ranges.containsCode c.toNat

@[simp]
theorem containsCode_nil (code : Nat) : containsCode [] code = false := rfl

end Ranges

end ErrorAccessors.Unicode
