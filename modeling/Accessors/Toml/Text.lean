/-!
# Strings in TOML

The four forms of a string: in double quotes, where a backslash escapes, or in single quotes, where nothing does; within
one line, or over several lines in three quotes of a kind.  Each function reads what stands behind the opening quotes
and gives back the string with what stands behind the closing ones.
-/
namespace Accessors
namespace Toml

/-- Whether a character may stand for itself in a string or a comment: every one that is no control, and the tab. -/
def isPrintable (c : Char) : Bool := c = '\t' || (32 ≤ c.toNat && c.toNat ≠ 127)

def isWhite (c : Char) : Bool := c = ' ' || c = '\t'

def hexDigit? (c : Char) : Option Nat :=
  if c.isDigit then some (c.toNat - '0'.toNat)
  else if 'a' ≤ c ∧ c ≤ 'f' then some (c.toNat - 'a'.toNat + 10)
  else if 'A' ≤ c ∧ c ≤ 'F' then some (c.toNat - 'A'.toNat + 10)
  else none

def hexValue? (cs : List Char) : Option Nat := cs.foldlM (fun n c => (hexDigit? c).map (16 * n + ·)) 0

/-- The character with a code, unless no character has it. -/
def charOf? (code : Nat) : Option Char := if code.isValidChar then some (Char.ofNat code) else none

/-- The character that a letter behind a backslash stands for. -/
def escaped? : Char → Option Char
  | 'b' => some '\x08'
  | 't' => some '\t'
  | 'n' => some '\n'
  | 'f' => some '\x0c'
  | 'r' => some '\r'
  | '"' => some '"'
  | '\\' => some '\\'
  | _ => none

/-- What was read with a character in front of it. -/
def consResult (c : Char) (r : Option (List Char × List Char)) : Option (List Char × List Char) :=
  r.map fun (cs, rest) => (c :: cs, rest)

/-- A string in double quotes. -/
def basicString : List Char → Option (List Char × List Char)
  | [] => none
  | '"' :: rest => some ([], rest)
  | '\\' :: 'u' :: a :: b :: c :: d :: rest => do
    consResult (← charOf? (← hexValue? [a, b, c, d])) (basicString rest)
  | '\\' :: 'U' :: a :: b :: c :: d :: e :: f :: g :: h :: rest => do
    consResult (← charOf? (← hexValue? [a, b, c, d, e, f, g, h])) (basicString rest)
  | '\\' :: e :: rest => do consResult (← escaped? e) (basicString rest)
  | c :: rest => if isPrintable c && c ≠ '\\' then consResult c (basicString rest) else none

/-- A string in single quotes. -/
def literalString : List Char → Option (List Char × List Char)
  | [] => none
  | '\'' :: rest => some ([], rest)
  | c :: rest => if isPrintable c then consResult c (literalString rest) else none

/-- The text without the line break that it starts with, if it does. -/
def skipLineBreak : List Char → List Char
  | '\n' :: rest => rest
  | '\r' :: '\n' :: rest => rest
  | cs => cs

def startsWithLineBreak : List Char → Bool
  | '\n' :: _ => true
  | '\r' :: '\n' :: _ => true
  | _ => false

/-- What three closing quotes end: up to two more of them are the last characters of the string. -/
def closingQuotes (q : Char) : List Char → List Char × List Char
  | a :: b :: rest => if a = q then if b = q then ([q, q], rest) else ([q], b :: rest) else ([], a :: b :: rest)
  | [a] => if a = q then ([q], []) else ([], [a])
  | [] => ([], [])

/-- A string in three double quotes.  A backslash at the end of a line takes away all blanks and line breaks up to the
next other character; `skipping` says that this is going on. -/
def basicLines (skipping : Bool) : List Char → Option (List Char × List Char)
  | [] => none
  | '"' :: '"' :: '"' :: rest => some (closingQuotes '"' rest)
  | '\n' :: rest => if skipping then basicLines true rest else consResult '\n' (basicLines false rest)
  | '\r' :: '\n' :: rest => if skipping then basicLines true rest else consResult '\n' (basicLines false rest)
  | '\\' :: 'u' :: a :: b :: c :: d :: rest => do
    consResult (← charOf? (← hexValue? [a, b, c, d])) (basicLines false rest)
  | '\\' :: 'U' :: a :: b :: c :: d :: e :: f :: g :: h :: rest => do
    consResult (← charOf? (← hexValue? [a, b, c, d, e, f, g, h])) (basicLines false rest)
  | '\\' :: e :: rest =>
    match escaped? e with
    | some c => consResult c (basicLines false rest)
    | none =>
      if startsWithLineBreak ((e :: rest).dropWhile isWhite) && (isWhite e || e = '\n' || e = '\r') then
        basicLines true rest
      else none
  | c :: rest =>
    if skipping && isWhite c then basicLines true rest
    else if isPrintable c && c ≠ '\\' then consResult c (basicLines false rest)
    else none

/-- A string in three single quotes. -/
def literalLines : List Char → Option (List Char × List Char)
  | [] => none
  | '\'' :: '\'' :: '\'' :: rest => some (closingQuotes '\'' rest)
  | '\n' :: rest => consResult '\n' (literalLines rest)
  | '\r' :: '\n' :: rest => consResult '\n' (literalLines rest)
  | c :: rest => if isPrintable c then consResult c (literalLines rest) else none

/-- A string of any form; absent where the text does not start with one. -/
def string? : List Char → Option (List Char × List Char)
  | '"' :: '"' :: '"' :: rest => basicLines false (skipLineBreak rest)
  | '\'' :: '\'' :: '\'' :: rest => literalLines (skipLineBreak rest)
  | '"' :: rest => basicString rest
  | '\'' :: rest => literalString rest
  | _ => none

end Toml
end Accessors
