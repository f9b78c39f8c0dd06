import Accessors.Proofs.JavaDefinitions
import Accessors.Proofs.PythonDefinitions
/-!
# Each accessor is defined once

A type gets a file only if its methods have names of their own (`Graph.collisions_eq_nil_iff_nodup`), and the names in a
graph that is read from a text are words, which hold nothing that the languages would read as the end of a name.  So the
text of a file defines just the methods of its type, each in one place, and what is set up before them
(`Backend.emit_defines_once`).
-/
namespace Accessors
namespace Backend

/-- **Each method is defined once** in the text that this backend writes for a type. -/
def DefinesOnce (b : Backend) (g : Graph) (n : TypeNode) (ms : List Method) (text : String) : Prop :=
  match b with
  | python => Python.DefinesOnce ms text
  | java => Java.DefinesOnce g n ms text

theorem definesOnce_render {g : Graph} (hg : g.Worded) {n : TypeNode} (hn : n ∈ g.types) {ms : List Method}
    (hms : ∀ m ∈ ms, IsWord m.role) {b : Backend} (hnodup : (ms.map b.methodName).Nodup) :
    b.DefinesOnce g n ms (b.render g n ms) := by
  cases b with
  | python => exact Python.definesOnce hg hn hms hnodup
  | java => exact Java.definesOnce hg hn hms hnodup

/-- **Every file defines each method of its type once**, and no others. -/
theorem emit_defines_once {text : String} {g : Graph} (h : Graph.parse text = .ok g) (b : Backend) {f : GeneratedFile}
    (hf : f ∈ (b.emit g g.report).files) : ∃ n ∈ g.types, ∃ ms, (g.reportOn n.id).methods? = some ms ∧
      f = b.fileOf g n ms ∧ b.DefinesOnce g n ms f.contents := by
  obtain ⟨ts, s, -, -, hs⟩ := Graph.parse_eq_ok.1 h
  have hg := Graph.worded_of_parse h
  rw [files_emit] at hf
  obtain ⟨t, -, hf⟩ := List.mem_flatMap.1 hf
  obtain ⟨n, ms, hn, hms, hcollisions, rfl⟩ := mem_filesFor.1 hf
  have hmem : n ∈ g.types := List.mem_of_getElem? hn
  have hid : n.id = t := (Graph.wellFormed_of_ofSource hs).id_eq t.index n hn
  have hnodup := (Graph.collisions_eq_nil_iff_nodup hms b).1 hcollisions
  refine ⟨n, hmem, ms, hid ▸ hms, rfl, ?_⟩
  exact definesOnce_render hg hmem (fun m hm => hg.isWord_role hms hm) hnodup

end Backend

/-- Teams, and players whose roles have names that begin alike. -/
def Source.leagueText : String :=
  "interface Member { 1 -> 0..1 Team team; } class Player { isA Member; 1 -> * Team teams; } class Team {}"

def Graph.league : Graph := (Graph.parse Source.leagueText).toOption.getD ⟨none, []⟩

theorem Graph.parse_leagueText : Graph.parse Source.leagueText = .ok .league := by with_unfolding_all decide

namespace Backend

/-- A player gets `team` and `teams`. -/
theorem emit_defines_once_league : Graph.parse Source.leagueText = .ok .league ∧
    ∃ f ∈ (python.emit .league Graph.league.report).files, f.path = "py/player.py" ∧
      ∃ n ∈ Graph.league.types, ∃ ms, (Graph.league.reportOn n.id).methods? = some ms ∧
        f = python.fileOf .league n ms ∧ python.DefinesOnce .league n ms f.contents := by
  have hfile : "py/player.py" ∈ (python.emit .league Graph.league.report).files.map GeneratedFile.path := by
    decide +kernel
  obtain ⟨f, hf, hpath⟩ := List.mem_map.1 hfile
  exact ⟨Graph.parse_leagueText, f, hf, hpath, emit_defines_once Graph.parse_leagueText python hf⟩

end Backend
end Accessors
