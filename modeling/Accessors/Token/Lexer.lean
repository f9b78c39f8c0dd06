import Accessors.Source.Fault
/-!
# From characters to tokens

`Token.lex` cuts a text into its tokens.  Every step takes the longest piece that the front of the text can be: a gap
(a blank or a comment), a token, or what is at fault.  No token is empty, so the rest is always shorter.
-/
namespace Accessors
namespace Token

/-- Blanks separate tokens and mean nothing else. -/
def isBlank (c : Char) : Bool := c = ' ' || c = '\t' || c = '\r' || c = '\n' || c = '\x0c'

/-- A name starts with an ASCII letter or an underscore. -/
def isNameStart (c : Char) : Bool := c.isAlpha || c = '_'

def isNameChar (c : Char) : Bool := c.isAlphanum || c = '_'

/-- The greatest number that a bound may be. -/
def largestNumber : Nat := 4294967295

/-- The value of decimal digits. -/
def digitsValue (digits : List Char) : Nat := digits.foldl (fun n d => 10 * n + (d.toNat - '0'.toNat)) 0

/-- The token that a whole word is: a keyword or else a name. -/
def ofWord (word : List Char) : Token :=
  match Keyword.ofText? (String.ofList word) with
  | some k => .keyword k
  | none => .name (String.ofList word)

/-- The body of a block comment up to and with the first `*/`; absent where there is none. -/
def commentBody? : List Char → Option (List Char)
  | [] => none
  | '*' :: '/' :: _ => some ['*', '/']
  | c :: rest => (commentBody? rest).map (c :: ·)

/-- What the front of a text is. -/
inductive Piece where
  | gap
  | token (t : Token)
  | fault (f : SyntaxFault)

/-- The piece that a text `c :: rest` begins with, and its characters after `c`. -/
def front (c : Char) (rest : List Char) : Piece × List Char :=
  if isBlank c then (.gap, [])
  else if c = '/' && rest.head? = some '/' then (.gap, rest.takeWhile (· ≠ '\n'))
  else if c = '/' && rest.head? = some '*' then
    match commentBody? rest.tail with
    | some body => (.gap, '*' :: body)
    | none => (.fault .unclosedComment, rest)
  else if isNameStart c then
    let more := rest.takeWhile isNameChar
    (.token (ofWord (c :: more)), more)
  else if c.isDigit then
    let more := rest.takeWhile Char.isDigit
    let value := digitsValue (c :: more)
    if value ≤ largestNumber then (.token (.number value), more)
    else (.fault (.numberTooLarge (String.ofList (c :: more))), more)
  else
    match Mark.all.find? (fun m => m.chars.isPrefixOf (c :: rest)) with
    | some m => (.token (.mark m), m.chars.tail)
    | none => (.fault (.strayCharacter c), [])

/-- The tokens of a text that starts at byte `start`. -/
def lexFrom (start : Nat) : List Char → Except (Located SyntaxFault) (List (Located Token))
  | [] => .ok []
  | c :: rest =>
    let more := (front c rest).2
    let stop := start + byteWidth (c :: more)
    match (front c rest).1 with
    | .gap => lexFrom stop (rest.drop more.length)
    | .token t => (lexFrom stop (rest.drop more.length)).map (⟨t, ⟨start, stop⟩⟩ :: ·)
    | .fault f => .error ⟨f, ⟨start, stop⟩⟩
termination_by text => text.length
decreasing_by all_goals (simp only [List.length_drop, List.length_cons]; omega)

/-- The tokens of a text, or the first fault in it. -/
def lex (text : String) : Except (Located SyntaxFault) (List (Located Token)) := lexFrom 0 text.toList

end Token
end Accessors
