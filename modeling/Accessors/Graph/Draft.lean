import Accessors.Graph.Linking
/-!
# Drafts: sources that are built and not read

The steps that build a source without a text.  Such a source has no places in a text, and its names are arbitrary;
`Graph.ofDraft` refuses only a type whose name could never be written, and goes on as for any source.
-/
namespace Accessors

namespace Definition

/-- A definition of a type with an empty body. -/
def draft (kind : DefinitionKind) (name : String) : Definition := ⟨kind, .unplaced name, [], []⟩

def withSupertype (d : Definition) (parent : String) : Definition :=
  { d with supertypes := d.supertypes ++ [.unplaced parent] }

def withAssociation (d : Definition) (a : Association) : Definition :=
  { d with associations := d.associations ++ [.unplaced a] }

/-- Adds a role that only this type can reach: `1 -> bounds target name;` -/
def withRole (d : Definition) (name target : String) (bounds : Bounds) : Definition :=
  d.withAssociation ⟨.unplaced (.exactly 1), none, .forward, .unplaced bounds, .unplaced target, some (.unplaced name)⟩

end Definition

namespace Source

def withNamespace (s : Source) (name : String) : Source := { s with namespaceName := some (.unplaced name) }

def withDefinition (s : Source) (d : Definition) : Source :=
  { s with definitions := s.definitions ++ [.unplaced d] }

end Source

/-- The graph of a source that was not read from a text, in which a type's name might be a keyword. -/
def Graph.ofDraft (s : Source) : Linked Graph :=
  match s.definitions.find? (fun d => (Keyword.ofText? d.value.name.value).isSome) with
  | some d => .error ⟨.keywordName d.value.name.value, d.value.name.span⟩
  | none => Graph.ofSource s

end Accessors
