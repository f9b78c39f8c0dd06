/-!
# Spans of a model text

A span is a range of byte offsets into the UTF-8 form of a model text, end excluded.  Everything a model text gives
rise to (tokens, definitions, faults) carries one, so that a report can point at the words it is about.
-/
namespace Accessors

/-- A range of byte offsets, `stop` excluded. -/
structure Span where
  start : Nat
  stop : Nat
deriving DecidableEq

/-- The span of whatever was not read from a text. -/
def Span.zero : Span := ⟨0, 0⟩

/-- The smallest span that covers both. -/
def Span.cover (a b : Span) : Span := ⟨min a.start b.start, max a.stop b.stop⟩

/-- The empty span right behind another. -/
def Span.after (s : Span) : Span := ⟨s.stop, s.stop⟩

/-- A value and where it was read. -/
structure Located (α : Type) where
  value : α
  span : Span
deriving DecidableEq

/-- A value that was not read from a text. -/
def Located.unplaced {α : Type} (a : α) : Located α := ⟨a, Span.zero⟩

/-- The number of bytes that a text takes in UTF-8. -/
def byteWidth : List Char → Nat
  | [] => 0
  | c :: rest => c.utf8Size + byteWidth rest

theorem byteWidth_append (a b : List Char) : byteWidth (a ++ b) = byteWidth a + byteWidth b := by
  induction a with
  | nil => simp [byteWidth]
  | cons c rest ih => simp only [List.cons_append, byteWidth, ih]; omega

end Accessors
