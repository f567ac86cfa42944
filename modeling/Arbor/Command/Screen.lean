import Arbor.Text.Blank

/-! # Commands that are never run

A command that walks the whole file system or damages the host is refused by how it starts, also
behind any number of programs that only run another one. -/

namespace Arbor.Command

open Arbor.Text

/-- How a refused command starts, and what is said of it. -/
structure Hazard where
  start : String
  hint : String
  deriving DecidableEq, Repr

/-- The refused commands, in the order in which they are looked for. -/
def hazards : List Hazard :=
  [⟨"find /", "search inside the project instead"⟩,
    ⟨"grep -r /", "search inside the project instead"⟩,
    ⟨"grep -rn /", "search inside the project instead"⟩,
    ⟨"grep -R /", "search inside the project instead"⟩,
    ⟨"ls -laR /", "list a project directory instead"⟩,
    ⟨"du -sh /", "measure a project directory instead"⟩,
    ⟨"du -a /", "measure a project directory instead"⟩,
    ⟨"rm -rf /", "this would destroy the host"⟩,
    ⟨"rm -rf ~", "this would destroy the home directory"⟩,
    ⟨"dd if=/dev/", "raw disk access is blocked"⟩]

/-- The wording of a refusal. -/
def Hazard.message (h : Hazard) : String :=
  "Blocked command pattern '" ++ h.start ++ "': " ++ h.hint

/-- Programs that run the rest of the command, with the blank behind them. -/
def wrappers : List String := ["sudo ", "time ", "nice ", "nohup ", "env "]

/-- The command without one wrapper in front, if it has one. -/
def unwrap? (cs : List Char) : Option (List Char) :=
  (wrappers.find? fun w => w.toList.isPrefixOf cs).map fun w =>
    trimStartChars (cs.drop w.length)

/-- No wrapper is empty. -/
theorem length_pos_of_mem_wrappers {w : String} (h : w ∈ wrappers) : 0 < w.length := by
  simp only [wrappers, List.mem_cons, List.not_mem_nil, or_false] at h
  obtain rfl | rfl | rfl | rfl | rfl := h <;> decide

/-- A wrapper takes something away. -/
theorem length_unwrap?_lt {cs rest : List Char} (h : unwrap? cs = some rest) :
    rest.length < cs.length := by
  obtain ⟨w, hw, rfl⟩ := Option.map_eq_some_iff.1 h
  have hfound := List.find?_some hw
  have hle := (List.isPrefixOf_iff_prefix.1 hfound).length_le
  have hpos := length_pos_of_mem_wrappers (List.mem_of_find?_eq_some hw)
  have hdrop : (trimStartChars (cs.drop w.length)).length ≤ (cs.drop w.length).length :=
    (List.dropWhile_sublist isBlank).length_le
  rw [String.length_toList] at hle
  rw [List.length_drop] at hdrop
  omega

/-- The command behind all wrappers. -/
def bareCommand (cs : List Char) : List Char :=
  match h : unwrap? cs with
  | none => cs
  | some rest =>
    have := length_unwrap?_lt h
    bareCommand rest
  termination_by cs.length

/-- **Screens a command.** -/
def screen (command : String) : Except Hazard Unit :=
  let bare := bareCommand (trimChars command.toList)
  match hazards.find? fun h => h.start.toList.isPrefixOf bare with
  | some h => .error h
  | none => .ok ()

end Arbor.Command
