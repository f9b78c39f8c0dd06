/-!
# Tokens of a model text

The words and marks that a model text is made of, how each is spelled, and how a message refers to it.
-/
namespace Accessors

/-- The words that no name may be. -/
inductive Keyword where
  | namespaceWord
  | classWord
  | interfaceWord
  | isAWord
deriving DecidableEq

namespace Keyword

def text : Keyword → String
  | namespaceWord => "namespace"
  | classWord => "class"
  | interfaceWord => "interface"
  | isAWord => "isA"

def all : List Keyword := [namespaceWord, classWord, interfaceWord, isAWord]

/-- The keyword with this spelling. -/
def ofText? (s : String) : Option Keyword := all.find? (fun k => k.text = s)

end Keyword

/-- Punctuation. -/
inductive Mark where
  | dashes
  | arrow
  | backArrow
  | star
  | dots
  | dot
  | comma
  | semicolon
  | openBrace
  | closeBrace
deriving DecidableEq

namespace Mark

def chars : Mark → List Char
  | dashes => ['-', '-']
  | arrow => ['-', '>']
  | backArrow => ['<', '-']
  | star => ['*']
  | dots => ['.', '.']
  | dot => ['.']
  | comma => [',']
  | semicolon => [';']
  | openBrace => ['{']
  | closeBrace => ['}']

/-- Every mark, a longer one before its beginnings. -/
def all : List Mark :=
  [dashes, arrow, backArrow, dots, star, dot, comma, semicolon, openBrace, closeBrace]

end Mark

inductive Token where
  | keyword (k : Keyword)
  | name (text : String)
  | number (value : Nat)
  | mark (m : Mark)
deriving DecidableEq

/-- How a message refers to a token: a name only by its kind, a mark in single quotes. -/
def Token.describe : Token → String
  | .keyword k => k.text
  | .name _ => "identifier"
  | .number n => toString n
  | .mark m => "'" ++ String.ofList m.chars ++ "'"

end Accessors
