import Accessors.Span
import Accessors.Token
/-!
# What can be wrong with the writing of a model text

The causes that reading a text stops for, before any name in it is looked up, and the words for each.
-/
namespace Accessors

/-- What the grammar allows at some place of a text. -/
inductive Expectation where
  | mark (m : Mark)
  | name
  | definition
  | member
  | association
  | multiplicity
  | upperBound
deriving DecidableEq

/-- The words for an expectation.  At the end of the text the choices are cut short: nothing was found that could
have been mistaken for one of them. -/
def Expectation.describe (atEnd : Bool) : Expectation → String
  | .mark m => (Token.mark m).describe
  | .name => "identifier"
  | .definition => "'class', 'interface' or 'namespace'"
  | .member => if atEnd then (Token.mark .closeBrace).describe else "'isA', an association or '\x7d'"
  | .association => if atEnd then "association arrow" else "association arrow '--', '->' or '<-'"
  | .multiplicity => "multiplicity"
  | .upperBound => "upper bound"

inductive SyntaxFault where
  | numberTooLarge (digits : String)
  | unclosedComment
  | strayCharacter (c : Char)
  /-- Something other than what the grammar allows; nothing is `found` at the end of the text. -/
  | expected (what : Expectation) (found : Option Token)
  | secondNamespace
  | zeroUpperBound
  | invertedBounds (lower upper : Nat)
deriving DecidableEq

def SyntaxFault.message : SyntaxFault → String
  | numberTooLarge digits => "integer literal '" ++ digits ++ "' is out of range"
  | unclosedComment => "unterminated block comment"
  | strayCharacter c => "unexpected character '" ++ String.singleton c ++ "'"
  | expected what (some t) => "expected " ++ what.describe false ++ ", found " ++ t.describe
  | expected what none => "expected " ++ what.describe true ++ ", found end of file"
  | secondNamespace => "duplicate namespace declaration"
  | zeroUpperBound => "upper bound must be at least 1"
  | invertedBounds lower upper =>
    "lower bound " ++ toString lower ++ " exceeds upper bound " ++ toString upper

end Accessors
