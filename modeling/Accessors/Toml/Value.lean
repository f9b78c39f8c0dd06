import Accessors.Decimal.Shortest
/-!
# TOML values

What a TOML document can hold.  Tables keep the order in which their entries come to be.
-/
namespace Accessors
namespace Toml

/-- A number with a fraction or an exponent, or one of the two that are not finite. -/
inductive Real where
  | finite (negative : Bool) (magnitude : Binary64)
  | infinite (negative : Bool)
  | nan
deriving DecidableEq

inductive Value where
  | text (s : String)
  | integer (n : Int)
  | real (x : Real)
  | boolean (b : Bool)
  /-- A date, a time of day, or both; only its form is looked at. -/
  | moment
  | array (items : List Value)
  | table (entries : List (String × Value))

/-- The digits that read back, with a point; what is not finite has a word. -/
def Real.text : Real → String
  | finite negative magnitude => (if negative then "-" else "") ++ magnitude.shortest.text
  | infinite negative => if negative then "-inf" else "inf"
  | nan => "NaN"

end Toml
end Accessors
