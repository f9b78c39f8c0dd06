import Accessors.Text.LetterCase.Table
/-!
# Letter case

Which characters are capital and which are small letters, and what the other form of a letter is, one character at a
time and without regard to what stands around it.  On ASCII these are core's tests and mappings of `Char`; beyond it the
tables decide.
-/
namespace Accessors
namespace LetterCase

def isUpper (c : Char) : Bool := if c.toNat < 128 then c.isUpper else upperRuns.any (·.contains c.toNat)

def isLower (c : Char) : Bool := if c.toNat < 128 then c.isLower else lowerRuns.any (·.contains c.toNat)

/-- The characters that a table puts in the place of one: several of them, one elsewhere, or itself. -/
def mapped (long : List (Nat × List Nat)) (shifts : List CodeShift) (c : Char) : List Char :=
  match long.lookup c.toNat with
  | some codes => codes.map Char.ofNat
  | none =>
    match shifts.find? (·.run.contains c.toNat) with
    | some s => [Char.ofNat (Int.toNat (c.toNat + s.distance))]
    | none => [c]

/-- The capital form of a character: of `ß` it is `SS`. -/
def toUpper (c : Char) : List Char :=
  if c.toNat < 128 then [c.toUpper] else mapped longUppers toUpperShifts c

/-- The small form of a character. -/
def toLower (c : Char) : List Char :=
  if c.toNat < 128 then [c.toLower] else mapped longLowers toLowerShifts c

end LetterCase
end Accessors
