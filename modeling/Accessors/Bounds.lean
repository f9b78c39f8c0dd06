/-!
# Multiplicity bounds

How many partners an association end allows: a least number and, unless it is open, a greatest.  All that the accessors
of a role depend on is its `Multiplicity`, which says whether more than one partner is allowed.
-/
namespace Accessors

/-- Whether a role holds at most one partner or any number of them. -/
inductive Multiplicity where
  | one
  | many
deriving DecidableEq

def Multiplicity.text : Multiplicity → String
  | .one => "one"
  | .many => "many"

/-- The least number of partners and the greatest, which is absent where there is no limit. -/
structure Bounds where
  lower : Nat
  upper : Option Nat
deriving DecidableEq

namespace Bounds

/-- Exactly `n`. -/
def exactly (n : Nat) : Bounds := ⟨n, some n⟩

/-- Any number. -/
def any : Bounds := ⟨0, none⟩

/-- Bounds that never allow a second partner make a role single-valued. -/
def multiplicity (b : Bounds) : Multiplicity :=
  match b.upper with
  | some upper => if upper ≤ 1 then .one else .many
  | none => .many

/-- The shortest way to write the bounds: `*`, `2..*`, `3` or `0..1`. -/
def text (b : Bounds) : String :=
  match b.upper with
  | none => if b.lower = 0 then "*" else toString b.lower ++ "..*"
  | some upper => if b.lower = upper then toString b.lower else toString b.lower ++ ".." ++ toString upper

end Bounds

end Accessors
