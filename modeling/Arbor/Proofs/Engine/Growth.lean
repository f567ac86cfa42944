import Arbor.Proofs.Engine.Tending

/-! # Growing and shrinking the tree agrees with building it anew

Between two turns nothing is left to be applied, and the agents are those that a roster of the files
would have.

* `Opened.tended_follow`: along every run in which entries are made and removed the agents are as far
  as they are to be.
* `growth_agrees`: the agents are those of a roster that is built anew. -/

namespace Arbor

open FileSystem Turn

variable {e : Engine} {home : Location}

namespace Opened

theorem tended (h : Opened home e) : Tended home e := by
  have hidle : ∀ s ∈ e.slots, s.phase.pending = [] := fun s hs => (h.launched.idle hs).2.2
  have hhelpers : ∀ s ∈ e.slots, s.agent.helpers = [] := fun s hs =>
    (h.launched.newborn hs).unused.helpers
  cases h with
  | @intro project files first now next roster templates world systemRole grounded sound build =>
    have htidy := tidy_of_build sound grounded rfl build
    obtain ⟨-, -, -, who, mirror, -⟩ := mirror_of_rooted sound grounded.rooted build
    refine ⟨htidy, hhelpers, .done who hidle (mirror.congr (congrArg _ ?_))⟩
    simp [Engine.agents, Engine.launch, List.filter_map, Function.comp_def]

/-- Along every such run the agents are as far as they are to be. -/
theorem tended_follow (h : Opened home e) {moves : List Move}
    (tends : ∀ ran m, ran ++ [m] <+: moves → Tends (e.follow ran) m) :
    Tended home (e.follow moves) := by
  induction moves using List.reverseRecOn with
  | nil => exact h.tended
  | append_singleton ran m ih =>
    rw [Engine.follow_concat]
    refine (ih fun ran' m' hp => tends ran' m' (hp.trans (List.prefix_append _ _))).step
      (h.launched.orderly.follow ran) (tends ran m List.prefix_rfl)

end Opened

/-- **Growing and shrinking the tree agrees with building it anew.** Managers make and remove entries
one after the other, in a project without links, and no file operation fails. Whenever nothing is left
to be applied, the roster of the files can be built, which changes none of them, and its agents are
those of the engine up to the choice of identities: with the same names, kinds and scopes, the same
agents above them and the same agents of their entries. -/
theorem growth_agrees (opened : Opened home e) {moves : List Move}
    (tends : ∀ ran m, ran ++ [m] <+: moves → Tends (e.follow ran) m)
    (settled : ∀ s ∈ (e.follow moves).slots, s.phase.pending = []) (first now : Nat) :
    ∃ roster next, Roster.build e.project (e.follow moves).world.site first now =
        .ok (roster, (e.follow moves).world.site, next) ∧
      ∃ f, Alike f (e.follow moves).agents roster.agents := by
  have htended := opened.tended_follow tends
  have hproject := opened.launched.orderly.project_follow moves
  cases htended.upkeep with
  | adopts who mem pending => exact absurd (settled _ mem) (by rw [pending]; simp)
  | releases who mem pending => exact absurd (settled _ mem) (by rw [pending]; simp)
  | done who idle mirror =>
    have tidy := htended.tidy
    rw [hproject] at tidy mirror
    obtain ⟨roster, next, build⟩ := build_of_notes tidy.sound tidy.grounded tidy.notes first now
    obtain ⟨-, -, -, who', mirror', -⟩ :=
      mirror_of_rooted tidy.sound tidy.grounded.rooted build
    exact ⟨roster, next, build, mirror.alike mirror'⟩

/-! ### A folder more and a file less -/

/-- The manager of the shed makes a folder, and then removes the file. -/
def shedSprout : List Move :=
  [Move.enterRun ⟨0⟩ "go", .admitRun 0, .registerRun 0, .dispatchRun 0] ++
  List.replicate 4 (Move.advance ⟨0⟩) ++ [Move.answer ⟨0⟩ (.ok "CREATE FOLDER \"s\"")] ++
  List.replicate 4 (Move.advance ⟨0⟩) ++
  [Move.answer ⟨0⟩ (.ok "DELETE FILE \"a\""), .advance ⟨0⟩]

theorem shedSprout_tends (ran : List Move) (m : Move) (hran : ran ++ [m] <+: shedSprout) :
    Tends (shedStart.follow ran) m := by
  have hall : ∀ x ∈ shedSprout.inits,
      x.getLast?.all (shedStart.follow x.dropLast).tends = true := by
    decide +kernel
  have htends := hall _ ((List.mem_inits _ shedSprout).mpr hran)
  have hmem : m ∈ shedSprout := hran.subset (by simp)
  rw [List.getLast?_concat, List.dropLast_concat] at htends
  refine .of_tends htends ?_ ?_
  · rintro systemRole rfl
    simp [shedSprout] at hmem
  · rintro world rfl
    simp [shedSprout] at hmem

/-- The manager makes a folder and removes the file: the agents are the two managers of the folders,
as in a roster that is built anew. -/
theorem growth_agrees_shed : Opened ["p"] shedStart ∧
    (∀ ran m, ran ++ [m] <+: shedSprout → Tends (shedStart.follow ran) m) ∧
    (∀ s ∈ (shedStart.follow shedSprout).slots, s.phase.pending = []) ∧
    (shedStart.follow shedSprout).agents.map (fun a => (a.name, a.kind)) =
      [(".", .manager), ("s", .manager)] ∧
    ∃ roster next, Roster.build shedProject (shedStart.follow shedSprout).world.site 0 0 =
        .ok (roster, (shedStart.follow shedSprout).world.site, next) ∧
      ∃ f, Alike f (shedStart.follow shedSprout).agents roster.agents := by
  have settled : ∀ s ∈ (shedStart.follow shedSprout).slots, s.phase.pending = [] := by
    decide +kernel
  exact ⟨shed_opened, shedSprout_tends, settled, by decide +kernel,
    growth_agrees shed_opened shedSprout_tends settled 0 0⟩

end Arbor
