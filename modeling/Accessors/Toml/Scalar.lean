import Accessors.Toml.Value
/-!
# Bare scalars in TOML

Values that are written without quotes or brackets: truth values, whole numbers, numbers with a fraction or an exponent,
dates and times.  Each is a single run of characters, which is read as a whole; only a date and a time of day may be
parted by a blank.
-/
namespace Accessors
namespace Toml

/-- A character that a bare scalar can hold. -/
def isBare (c : Char) : Bool := c.isAlphanum || c = '_' || c = '+' || c = '-' || c = '.' || c = ':'

/-- Digits with single underscores between some of them; gives the digits. -/
def digits? (isDigit : Char → Bool) : List Char → Option (List Char)
  | [] => none
  | [c] => if isDigit c then some [c] else none
  | c :: '_' :: rest => if isDigit c then (digits? isDigit rest).map (c :: ·) else none
  | c :: rest => if isDigit c then (digits? isDigit rest).map (c :: ·) else none

/-- The value of digits in a base. -/
def valueIn (base : Nat) (digits : List Char) : Nat :=
  digits.foldl (fun n c => base * n + (if c.isDigit then c.toNat - '0'.toNat else c.toLower.toNat - 'a'.toNat + 10)) 0

def isHexDigit (c : Char) : Bool := c.isDigit || ('a' ≤ c.toLower && c.toLower ≤ 'f')

/-- Whole numbers are kept in 64 bits. -/
def inRange (n : Int) : Bool := -9223372036854775808 ≤ n && n ≤ 9223372036854775807

/-- Decimal digits that do not start with a zero that could be left out. -/
def decimal? (cs : List Char) : Option (List Char) :=
  match digits? Char.isDigit cs with
  | some ('0' :: _ :: _) => none
  | r => r

/-- A sign, if there is one, and what follows: whether the number is negative, and the rest. -/
def takeSign : List Char → Bool × List Char
  | '-' :: rest => (true, rest)
  | '+' :: rest => (false, rest)
  | cs => (false, cs)

def integer? (cs : List Char) : Option Int := do
  let n : Int ← match cs with
    | '0' :: 'x' :: ds => (digits? isHexDigit ds).map fun ds => Int.ofNat (valueIn 16 ds)
    | '0' :: 'o' :: ds => (digits? (fun c => '0' ≤ c && c ≤ '7') ds).map fun ds => Int.ofNat (valueIn 8 ds)
    | '0' :: 'b' :: ds => (digits? (fun c => c = '0' || c = '1') ds).map fun ds => Int.ofNat (valueIn 2 ds)
    | _ =>
      let (negative, ds) := takeSign cs
      (decimal? ds).map fun ds => if negative then -Int.ofNat (valueIn 10 ds) else Int.ofNat (valueIn 10 ds)
  if inRange n then some n else none

/-- The exponent behind the letter `e`. -/
def exponent? (cs : List Char) : Option Int :=
  let (negative, ds) := takeSign cs
  (digits? Char.isDigit ds).map fun ds => if negative then -Int.ofNat (valueIn 10 ds) else Int.ofNat (valueIn 10 ds)

/-- A fraction or an exponent or both, where `whole` are the digits before them. -/
def decimalOf? (whole : List Char) (rest : List Char) : Option Decimal :=
  let part := rest.tail.takeWhile fun c => c.isDigit || c = '_'
  match rest with
  | '.' :: _ => do
    let fraction ← digits? Char.isDigit part
    let e ← match rest.tail.drop part.length with
      | [] => some 0
      | c :: ds => if c = 'e' ∨ c = 'E' then exponent? ds else none
    return ⟨valueIn 10 (whole ++ fraction), e - Int.ofNat fraction.length⟩
  | c :: ds => if c = 'e' ∨ c = 'E' then (exponent? ds).map fun e => ⟨valueIn 10 whole, e⟩ else none
  | [] => none

/-- A number with a fraction or an exponent.  One that is too large is refused, but below zero it counts as infinite. -/
def real? (cs : List Char) : Option Real :=
  let (negative, body) := takeSign cs
  if body = "inf".toList then some (.infinite negative)
  else if body = "nan".toList then some .nan
  else do
    let part := body.takeWhile fun c => c.isDigit || c = '_'
    let whole ← decimal? part
    let d ← decimalOf? whole (body.drop part.length)
    match Binary64.ofDecimal? d with
    | some x => some (.finite negative x)
    | none => if negative then some (.infinite true) else none

/-- Two digits whose value lies between two bounds. -/
def pairWithin (low high : Nat) (a b : Char) : Bool :=
  a.isDigit && b.isDigit && low ≤ valueIn 10 [a, b] && valueIn 10 [a, b] ≤ high

def isLeapYear (year : Nat) : Bool := year % 4 = 0 && (year % 100 ≠ 0 || year % 400 = 0)

def daysIn (year month : Nat) : Nat :=
  if month = 2 then (if isLeapYear year then 29 else 28)
  else if month = 4 ∨ month = 6 ∨ month = 9 ∨ month = 11 then 30
  else 31

/-- What follows a date, `yyyy-mm-dd`; absent where the text does not start with one. -/
def afterDate? : List Char → Option (List Char)
  | y₁ :: y₂ :: y₃ :: y₄ :: '-' :: m₁ :: m₂ :: '-' :: d₁ :: d₂ :: rest =>
    if [y₁, y₂, y₃, y₄].all Char.isDigit && pairWithin 1 12 m₁ m₂
        && pairWithin 1 (daysIn (valueIn 10 [y₁, y₂, y₃, y₄]) (valueIn 10 [m₁, m₂])) d₁ d₂ then
      some rest
    else none
  | _ => none

/-- What follows a time of day, `hh:mm:ss` and perhaps a fraction. -/
def afterTime? : List Char → Option (List Char)
  | h₁ :: h₂ :: ':' :: m₁ :: m₂ :: ':' :: s₁ :: s₂ :: rest =>
    if pairWithin 0 23 h₁ h₂ && pairWithin 0 59 m₁ m₂ && pairWithin 0 60 s₁ s₂ then
      match rest with
      | '.' :: f :: more => if f.isDigit then some (more.dropWhile Char.isDigit) else none
      | _ => some rest
    else none
  | _ => none

/-- An offset from universal time, or nothing. -/
def isOffset : List Char → Bool
  | [] => true
  | ['Z'] => true
  | ['z'] => true
  | [sign, h₁, h₂, ':', m₁, m₂] => (sign = '+' || sign = '-') && pairWithin 0 23 h₁ h₂ && pairWithin 0 59 m₁ m₂
  | _ => false

/-- A time of day, which may have an offset if a date stands before it. -/
def isTime (cs : List Char) : Bool := (afterTime? cs).any isOffset

def isMoment (cs : List Char) : Bool :=
  match afterDate? cs with
  | some [] => true
  | some (c :: rest) => (c = 'T' || c = 't') && isTime rest
  | none => afterTime? cs = some []

/-- The value of a run of bare characters. -/
def bareValue? (cs : List Char) : Option Value :=
  if cs = "true".toList then some (.boolean true)
  else if cs = "false".toList then some (.boolean false)
  else if isMoment cs then some .moment
  else
    match real? cs with
    | some x => some (.real x)
    | none => (integer? cs).map .integer

/-- A bare scalar at the start of a text, and what follows.  A time of day behind a date and one blank goes with it. -/
def scalar? (cs : List Char) : Option (Value × List Char) :=
  let run := cs.takeWhile isBare
  let rest := cs.drop run.length
  let second := rest.tail.takeWhile isBare
  if rest.head? = some ' ' && afterDate? run = some [] && isTime second then
    some (.moment, rest.tail.drop second.length)
  else (bareValue? run).map (·, rest)

end Toml
end Accessors
