import Accessors.Source.Grammar
/-!
# Phrases of a model text

The grammar as data: a type for each kind of phrase, whose values are the phrases of that kind.  A phrase holds where
each of its words and marks stands, and what the grammar asks of its bounds and of the number of namespaces.  `tokens`
writes a phrase down; what it says is a part of a `Source`.
-/
namespace Accessors

/-- The same place, with something else there. -/
def Located.map {α β : Type} (f : α → β) (a : Located α) : Located β := ⟨f a.value, a.span⟩

/-- The word that opens a definition of this kind. -/
def DefinitionKind.keyword : DefinitionKind → Keyword
  | ofClass => .classWord
  | ofInterface => .interfaceWord

def Direction.mark : Direction → Mark
  | both => .dashes
  | forward => .arrow
  | backward => .backArrow

/-! ## Names -/

/-- `name`, or nothing. -/
def nameIfAnyTokens (name : Option (Located String)) : Tokens := name.toList.map (Located.map .name)

/-- A separator and the name behind it. -/
def separatedTokens (separator : Mark) (name : Span × Located String) : Tokens :=
  [⟨.mark separator, name.1⟩, name.2.map .name]

/-- `name (separator name)* ;` -/
structure NamesPhrase where
  first : Located String
  /-- The further names, each with the place of the separator before it. -/
  more : List (Span × Located String)
  close : Span

namespace NamesPhrase

def tokens (separator : Mark) (p : NamesPhrase) : Tokens :=
  p.first.map .name :: (p.more.flatMap (separatedTokens separator) ++ [⟨.mark .semicolon, p.close⟩])

def names (p : NamesPhrase) : List (Located String) := p.first :: p.more.map Prod.snd

theorem names_ne_nil (p : NamesPhrase) : p.names ≠ [] := List.cons_ne_nil _ _

/-- The namespace that these segments name, behind a word that stands at `start`. -/
def namespaceName (start : Span) (p : NamesPhrase) : Located String :=
  ⟨".".intercalate (p.names.map Located.value), start.cover (p.names.getLast p.names_ne_nil).span⟩

end NamesPhrase

/-! ## Bounds -/

/-- `*`, `n`, `n..*` or `n..m`, where some partner must be allowed, and as many as there must be. -/
inductive BoundsPhrase where
  | any (star : Span)
  | exactly (n : Located Nat) (pos : 1 ≤ n.value)
  | atLeast (lower : Located Nat) (dots star : Span)
  | between (lower : Located Nat) (dots : Span) (upper : Located Nat) (pos : 1 ≤ upper.value)
      (le : lower.value ≤ upper.value)

namespace BoundsPhrase

def tokens : BoundsPhrase → Tokens
  | any star => [⟨.mark .star, star⟩]
  | exactly n _ => [n.map .number]
  | atLeast lower dots star => [lower.map .number, ⟨.mark .dots, dots⟩, ⟨.mark .star, star⟩]
  | between lower dots upper _ _ => [lower.map .number, ⟨.mark .dots, dots⟩, upper.map .number]

def bounds : BoundsPhrase → Located Bounds
  | any star => ⟨.any, star⟩
  | exactly n _ => n.map .exactly
  | atLeast lower _ star => ⟨⟨lower.value, none⟩, lower.span.cover star⟩
  | between lower _ upper _ _ => ⟨⟨lower.value, some upper.value⟩, lower.span.cover upper.span⟩

end BoundsPhrase

/-! ## Definitions -/

/-- `bounds [name] arrow bounds name [name] ;` -/
structure AssociationPhrase where
  ownerBounds : BoundsPhrase
  ownerRole : Option (Located String)
  arrow : Located Direction
  targetBounds : BoundsPhrase
  target : Located String
  targetRole : Option (Located String)
  close : Span

namespace AssociationPhrase

def tokens (p : AssociationPhrase) : Tokens :=
  p.ownerBounds.tokens ++ (nameIfAnyTokens p.ownerRole ++ p.arrow.map (fun d => .mark d.mark) ::
    (p.targetBounds.tokens ++ p.target.map .name :: (nameIfAnyTokens p.targetRole ++ [⟨.mark .semicolon, p.close⟩])))

def association (p : AssociationPhrase) : Located Association :=
  ⟨⟨p.ownerBounds.bounds, p.ownerRole, p.arrow.value, p.targetBounds.bounds, p.target, p.targetRole⟩,
    p.ownerBounds.bounds.span.cover p.close⟩

end AssociationPhrase

inductive MemberPhrase where
  /-- The word `isA`, and names with commas between them. -/
  | isA (word : Span) (names : NamesPhrase)
  | ofAssociation (a : AssociationPhrase)

namespace MemberPhrase

def tokens : MemberPhrase → Tokens
  | isA word names => ⟨.keyword .isAWord, word⟩ :: names.tokens .comma
  | ofAssociation a => a.tokens

def supertypes : MemberPhrase → List (Located String)
  | isA _ names => names.names
  | ofAssociation _ => []

def association? : MemberPhrase → Option (Located Association)
  | isA _ _ => none
  | ofAssociation a => some a.association

end MemberPhrase

/-- `member* }` -/
structure BodyPhrase where
  members : List MemberPhrase
  close : Span

namespace BodyPhrase

def tokens (p : BodyPhrase) : Tokens := p.members.flatMap MemberPhrase.tokens ++ [⟨.mark .closeBrace, p.close⟩]

def body (p : BodyPhrase) : Source.Body :=
  ⟨p.members.flatMap MemberPhrase.supertypes, p.members.filterMap MemberPhrase.association?, p.close⟩

end BodyPhrase

/-- `name { body` -/
structure DefinitionPhrase where
  name : Located String
  brace : Span
  body : BodyPhrase

namespace DefinitionPhrase

def tokens (p : DefinitionPhrase) : Tokens := p.name.map .name :: ⟨.mark .openBrace, p.brace⟩ :: p.body.tokens

/-- What is defined, behind a word that stands at `start`. -/
def definition (start : Span) (kind : DefinitionKind) (p : DefinitionPhrase) : Located Definition :=
  ⟨⟨kind, p.name, p.body.body.supertypes, p.body.body.associations⟩, start.cover p.body.close⟩

end DefinitionPhrase

/-! ## Whole texts -/

inductive ItemPhrase where
  /-- The word `namespace`, and names with dots between them. -/
  | ofNamespace (word : Span) (segments : NamesPhrase)
  /-- The word for the kind of definition, and the rest of it. -/
  | ofDefinition (word : Located DefinitionKind) (d : DefinitionPhrase)

namespace ItemPhrase

def tokens : ItemPhrase → Tokens
  | ofNamespace word segments => ⟨.keyword .namespaceWord, word⟩ :: segments.tokens .dot
  | ofDefinition word d => word.map (fun k => .keyword k.keyword) :: d.tokens

def namespaceName? : ItemPhrase → Option (Located String)
  | ofNamespace word segments => some (segments.namespaceName word)
  | ofDefinition _ _ => none

def definition? : ItemPhrase → Option (Located Definition)
  | ofNamespace _ _ => none
  | ofDefinition word d => some (d.definition word.span word.value)

end ItemPhrase

/-- Namespaces and definitions in any order, of namespaces one at most. -/
structure SourcePhrase where
  items : List ItemPhrase
  single : (items.filterMap ItemPhrase.namespaceName?).length ≤ 1

namespace SourcePhrase

def tokens (p : SourcePhrase) : Tokens := p.items.flatMap ItemPhrase.tokens

def source (p : SourcePhrase) : Source :=
  ⟨(p.items.filterMap ItemPhrase.namespaceName?).head?, p.items.filterMap ItemPhrase.definition?⟩

end SourcePhrase
end Accessors
