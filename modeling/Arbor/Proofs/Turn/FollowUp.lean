import Arbor.Proofs.Turn.Queue

/-! # The follow-up of a turn

A turn leaves one prompt for the next one, or none: it is silent where the agent waits for a report,
and where its own report ends the task. Every other outcome of a verb, refusals included, has
something to say.

* `Waits`, `Concludes`: the two replies that leave nothing to say.
* `perform_silent`: what the outcome of a silent verb is.
* `complete_finishes`: a turn reports the end of the task exactly if it concludes.
* `complete_followUp`: the follow-up of every turn. -/

namespace Arbor.Turn

open Directive Act

variable {project : Project} {d : Desk} {k : Dialect}

/-- The outcome of a verb has something to say. -/
def Speaks (r : Except AgentError Step) : Prop := ∀ effects, r ≠ .ok ⟨.silent, effects⟩

/-- The human can be asked, and ends the session by the reply. -/
def Dismisses (report : String) (d : Desk) : Prop :=
  ∃ reply, (d.world.ask report).1 = .ok reply ∧ isSessionEnd reply = true

/-- The directive is a report that ends the task: nothing is outstanding, and the human, who hears
the master's report, does not go on. -/
def Ends (x : Directive k) (d : Desk) : Prop :=
  ∃ report, x = .finish report ∧ d.agent.busy? = none ∧ (k = .master → Dismisses report d)

/-- The reply asks to wait, and there is something to wait for. -/
def Waits (response : String) (d : Desk) : Prop :=
  Directive.parse d.agent.kind.dialect response = .ok .wait ∧ d.agent.hasActiveWork = true

/-- The reply is a report that ends the task. -/
def Concludes (response : String) (d : Desk) : Prop :=
  ∃ x, Directive.parse d.agent.kind.dialect response = .ok x ∧ Ends x d

/-! ### Outcomes -/

theorem speaks_error (e : AgentError) : Speaks (.error e) := by
  intro effects h
  cases h

theorem speaks_succeeded (note : String) (effects : List Effect) :
    Speaks (.ok ⟨.succeeded note, effects⟩) := by
  intro effects h
  cases h

theorem speaks_prompt (text : String) (effects : List Effect) :
    Speaks (.ok ⟨.prompt text, effects⟩) := by
  intro effects h
  cases h

theorem speaks_map {r : Except AgentError (List Effect)} {note : List Effect → String} :
    Speaks (r.map fun effects => ⟨.succeeded (note effects), effects⟩) := by
  cases r with
  | error e => exact speaks_error e
  | ok effects => exact speaks_succeeded _ _

/-- A verb leaves no prompt exactly if its outcome has nothing to say. -/
theorem followUpPrompt?_eq_none {verb : Verb} {r : Except AgentError Step} :
    followUpPrompt? verb r = none ↔ ∃ effects, r = .ok ⟨.silent, effects⟩ := by
  constructor
  · intro h
    match r, h with
    | .ok ⟨.silent, effects⟩, _ => exact ⟨effects, rfl⟩
  · rintro ⟨effects, rfl⟩
    rfl

/-! ### Verbs -/

theorem change_speaks (content : String) : Speaks ((change project content).run d).1 := by
  rcases change_cases project content d with ⟨e, h⟩ | ⟨file, files, note, -, -, h⟩
  · rw [h]; exact speaks_error e
  · rw [h]; exact speaks_succeeded note []

theorem writeDoc_speaks (content : String) : Speaks ((writeDoc project content).run d).1 := by
  rcases writeDoc_cases project content d with ⟨e, h⟩ | ⟨doc, files, note, -, -, h⟩
  · rw [h]; exact speaks_error e
  · rw [h]; exact speaks_succeeded note []

theorem create_speaks (t : Target) (content : Option String) :
    Speaks ((create project t content).run d).1 := by
  have h := create_run project t content d
  generalize ((create project t content).run d : Except AgentError Step × Desk) = out at h ⊢
  cases h with
  | refused e => exact speaks_error e
  | noteless e => exact speaks_error _
  | made note => exact speaks_succeeded note _

theorem delete_speaks (t : Target) : Speaks ((delete project t).run d).1 := by
  have h := delete_run project t d
  generalize ((delete project t).run d : Except AgentError Step × Desk) = out at h ⊢
  cases h with
  | refused e => exact speaks_error e
  | unlinked note => exact speaks_succeeded note _
  | linked note => exact speaks_succeeded note _

theorem spawn_speaks (orders : List HelperOrder) : Speaks ((spawn project orders).run d).1 := by
  rcases spawn_cases project orders d with ⟨h, -⟩ | ⟨-, r, after, -, h⟩
  · rw [h]; exact speaks_error _
  · rw [h]; exact speaks_map

theorem read_speaks (targets : List Target) : Speaks ((read project targets).run d).1 := by
  rcases read_cases project targets d with ⟨e, h⟩ | ⟨memory, note, h⟩
  · rw [h]; exact speaks_error e
  · rw [h]; exact speaks_succeeded note []

theorem run_speaks (command : String) : Speaks ((run project command).run d).1 := by
  unfold run
  cases project.config.policy.check command with
  | error reason => exact speaks_error _
  | ok _ =>
    simp only [run_bind, run_get, run_execute]
    cases (d.world.execute command (d.agent.baseDir project)).1 with
    | error text => exact speaks_error _
    | ok output =>
      simp only
      split
      · exact speaks_succeeded _ _
      · exact speaks_error _

theorem message_speaks (question : String) : Speaks ((message question).run d).1 := by
  rcases message_cases question d with ⟨e, h⟩ | ⟨note, h⟩
  · rw [h]; exact speaks_error e
  · rw [h]; exact speaks_succeeded note []

theorem assign_speaks (assignments : List (Target × String)) :
    Speaks ((assign assignments).run d).1 := by
  rcases assign_cases assignments d with ⟨e, h⟩ | ⟨children, note, -, h⟩
  · rw [h]; exact speaks_error e
  · rw [h]; exact speaks_succeeded note _

theorem delegateToRoot_speaks (prompt : String) : Speaks ((delegateToRoot prompt).run d).1 := by
  rcases delegateToRoot_cases prompt d with ⟨e, h⟩ | ⟨entry, root, rest, note, -, h⟩
  · rw [h]; exact speaks_error e
  · rw [h]; exact speaks_succeeded note _

/-- The outcome reports the end of the task, and the agent has none any more. -/
def Over (out : Except AgentError Step × Desk) : Prop :=
  ∃ ending, out.1 = .ok ⟨.silent, [.finish ending]⟩ ∧ out.2.agent.isActive = false

theorem finish_outcome (project : Project) (report : String) (d : Desk) :
    (d.agent.busy? ≠ none ∧ Speaks ((finish project report).run d).1) ∨
    (d.agent.busy? = none ∧ Over ((finish project report).run d)) := by
  rcases finish_cases project report d with ⟨e, busy, h⟩ | ⟨payload, idle, h⟩
  · rw [h, busy]
    exact Or.inl ⟨Option.some_ne_none e, speaks_error e⟩
  · refine Or.inr ⟨idle, _, by rw [h], ?_⟩
    rw [h, released, (releaseScratch_cases _ _).1]
    rfl

theorem finishMaster_outcome (report : String) (d : Desk) :
    (¬ (d.agent.busy? = none ∧ Dismisses report d) ∧ Speaks ((finishMaster report).run d).1) ∨
    ((d.agent.busy? = none ∧ Dismisses report d) ∧ Over ((finishMaster report).run d)) := by
  simp only [finishMaster, run_bind, run_get]
  by_cases hd : (!d.agent.delegated.isEmpty) = true
  · rw [if_pos hd]
    exact Or.inl ⟨fun h => by simp [Agent.busy?, hd] at h, speaks_error _⟩
  rw [if_neg hd]
  by_cases hh : (!d.agent.helpers.isEmpty) = true
  · rw [if_pos hh]
    exact Or.inl ⟨fun h => by simp [Agent.busy?, hd, hh] at h, speaks_error _⟩
  rw [if_neg hh]
  have idle : d.agent.busy? = none := by rw [Agent.busy?, if_neg hd, if_neg hh]
  simp only [run_bind, run_ask, run_touch]
  cases hreply : (d.world.ask report).1 with
  | error text =>
    refine Or.inl ⟨fun h => ?_, speaks_error _⟩
    obtain ⟨-, reply, hr, -⟩ := h
    cases hreply.symm.trans hr
  | ok reply =>
    simp only
    by_cases he : isSessionEnd reply = true
    · rw [if_pos he]
      refine Or.inr ⟨⟨idle, reply, hreply, he⟩, ?_⟩
      rcases endTask_cases report (touched (questioned d report)) with ⟨e, busy, -⟩ | ⟨-, h⟩
      · cases idle.symm.trans busy
      · change Over ((endTask report).run (touched (questioned d report)))
        rw [h]
        exact ⟨_, rfl, rfl⟩
    · rw [if_neg he]
      refine Or.inl ⟨fun h => ?_, speaks_prompt reply []⟩
      obtain ⟨-, other, hr, hend⟩ := h
      cases hreply.symm.trans hr
      exact he hend

/-- A report either ends the task in silence or has something to say. -/
theorem report_outcome (project : Project) (report : String) (d : Desk) :
    (¬ Ends (.finish report : Directive k) d ∧
      Speaks ((perform project (.finish report : Directive k)).run d).1) ∨
    (Ends (.finish report : Directive k) d ∧
      Over ((perform project (.finish report : Directive k)).run d)) := by
  cases k with
  | coder =>
    rcases finish_outcome project report d with ⟨busy, speaks⟩ | ⟨idle, ended⟩
    · exact Or.inl ⟨fun ⟨_, _, idle, _⟩ => busy idle, speaks⟩
    · exact Or.inr ⟨⟨report, rfl, idle, fun hk => by cases hk⟩, ended⟩
  | manager =>
    rcases finish_outcome project report d with ⟨busy, speaks⟩ | ⟨idle, ended⟩
    · exact Or.inl ⟨fun ⟨_, _, idle, _⟩ => busy idle, speaks⟩
    · exact Or.inr ⟨⟨report, rfl, idle, fun hk => by cases hk⟩, ended⟩
  | master =>
    rcases finishMaster_outcome report d with ⟨stays, speaks⟩ | ⟨⟨idle, dismissed⟩, ended⟩
    · refine Or.inl ⟨fun h => ?_, speaks⟩
      obtain ⟨_, hx, idle, dismissed⟩ := h
      cases hx
      exact stays ⟨idle, dismissed rfl⟩
    · exact Or.inr ⟨⟨report, rfl, idle, fun _ => dismissed⟩, ended⟩

/-- How a directive comes to have nothing to say. -/
inductive Silence (x : Directive k) (d : Desk) : List Effect → Prop where
  | waits (verb : x = .wait) (work : d.agent.hasActiveWork = true) : Silence x d []
  | ends {ending : Ending} (ends : Ends x d) : Silence x d [.finish ending]

/-- **Only waiting and ending the task are silent.** -/
theorem perform_silent (project : Project) (x : Directive k) (d : Desk) {effects : List Effect}
    (silent : ((perform project x).run d : Except AgentError Step × Desk).1 =
      .ok ⟨.silent, effects⟩) : Silence x d effects := by
  cases x with
  | wait =>
    rw [perform] at silent
    rcases wait_cases d with ⟨work, h⟩ | ⟨-, h⟩
    · rw [h] at silent
      cases silent
      exact .waits rfl work
    · rw [h] at silent
      cases silent
  | finish report =>
    rcases report_outcome project report d with ⟨-, speaks⟩ | ⟨ends, ending, h, -⟩
    · exact absurd silent (speaks effects)
    · cases h.symm.trans silent
      exact .ends ends
  | read targets =>
    rw [perform, run_bind, touchFirst_run] at silent
    exact absurd silent (read_speaks targets effects)
  | run command =>
    rw [perform, run_bind, touchFirst_run] at silent
    exact absurd silent (run_speaks command effects)
  | spawn orders =>
    rw [perform, run_bind, touchFirst_run] at silent
    exact absurd silent (spawn_speaks orders effects)
  | delegate prompt =>
    rw [perform, run_bind, run_touch] at silent
    exact absurd silent (delegateToRoot_speaks prompt effects)
  | change content => exact absurd silent (change_speaks content effects)
  | create t content => exact absurd silent (create_speaks t content effects)
  | delete t => exact absurd silent (delete_speaks t effects)
  | assign assignments => exact absurd silent (assign_speaks assignments effects)
  | updateReadme content => exact absurd silent (writeDoc_speaks content effects)
  | updateDocumentation content => exact absurd silent (writeDoc_speaks content effects)
  | message question => exact absurd silent (message_speaks question effects)

theorem over_of_ends (project : Project) {x : Directive k} (h : Ends x d) :
    Over ((perform project x).run d) := by
  obtain ⟨report, rfl, -⟩ := id h
  rcases report_outcome project report d with ⟨stays, -⟩ | ⟨-, ended⟩
  · exact absurd h stays
  · exact ended

/-- A verb leaves no prompt exactly where the agent waits or its task ends. -/
theorem perform_leaves_none (project : Project) (x : Directive k) (d : Desk) :
    followUpPrompt? x.verb ((perform project x).run d : Except AgentError Step × Desk).1 = none ↔
      (x = .wait ∧ d.agent.hasActiveWork = true) ∨ Ends x d := by
  rw [followUpPrompt?_eq_none]
  constructor
  · rintro ⟨effects, silent⟩
    cases perform_silent project x d silent with
    | waits verb work => exact Or.inl ⟨verb, work⟩
    | ends ends => exact Or.inr ends
  · rintro (⟨rfl, work⟩ | ends)
    · rw [perform]
      rcases wait_cases d with ⟨-, h⟩ | ⟨idle, -⟩
      · exact ⟨[], congrArg Prod.fst h⟩
      · cases work.symm.trans idle
    · obtain ⟨ending, h, -⟩ := over_of_ends project ends
      exact ⟨_, h⟩

/-- A directive reports the end of the task exactly if it ends it. -/
theorem perform_finishes (project : Project) (x : Directive k) (d : Desk) :
    (effectsOf ((perform project x).run d : Except AgentError Step × Desk).1).any
      Effect.isFinish = true ↔ Ends x d := by
  constructor
  · intro reported
    have talk := perform_talk project x d
    have silent := @perform_silent k project x d
    generalize ((perform project x).run d : Except AgentError Step × Desk) = out
      at talk reported silent
    cases talk with
    | goesOn unfinished => cases reported.symm.trans unfinished
    | ends =>
      cases silent rfl with
      | ends ends => exact ends
  · intro ends
    obtain ⟨ending, h, -⟩ := over_of_ends project ends
    rw [h]
    rfl

/-! ### Turns -/

/-- The reply is recorded before it is carried out, which is no concern of either condition. -/
theorem leftover?_eq_none (project : Project) (prompt response : String) (d : Desk) :
    leftover? project prompt response d = none ↔ Waits response d ∨ Concludes response d := by
  unfold leftover? Waits Concludes
  cases Directive.parse d.agent.kind.dialect response with
  | error e => simp
  | ok x =>
    refine (perform_leaves_none project x (recorded prompt response d)).trans ?_
    constructor
    · rintro (⟨rfl, work⟩ | ends)
      · exact Or.inl ⟨rfl, work⟩
      · exact Or.inr ⟨x, rfl, ends⟩
    · rintro (⟨h, work⟩ | ⟨y, h, ends⟩)
      · cases h
        exact Or.inl ⟨rfl, work⟩
      · cases h
        exact Or.inr ends

/-- A turn reports the end of the task exactly if it concludes. -/
theorem complete_finishes (project : Project) (prompt response : String) (d : Desk) :
    (complete project prompt response d).1.any Effect.isFinish = true ↔ Concludes response d := by
  unfold complete Concludes
  simp only
  cases Directive.parse d.agent.kind.dialect response with
  | error e => simp
  | ok x =>
    refine (perform_finishes project x (recorded prompt response d)).trans ?_
    constructor
    · exact fun ends => ⟨x, rfl, ends⟩
    · rintro ⟨y, h, ends⟩
      cases h
      exact ends

/-- Who ended the task reports it, and is without a task. -/
theorem interpret_of_ends {x : Directive k} (h : Ends x d) : ∃ ending,
    (interpret project x d).1 = [.finish ending] ∧
      (interpret project x d).2.agent.isActive = false := by
  have ended := over_of_ends project h
  unfold interpret
  generalize ((perform project x).run d : Except AgentError Step × Desk) = out at ended ⊢
  obtain ⟨outcome, after⟩ := out
  obtain ⟨ending, rfl, idle⟩ := ended
  exact ⟨ending, rfl, idle⟩

theorem complete_of_concludes (project : Project) (prompt : String) {response : String}
    (h : Concludes response d) : ∃ ending,
      (complete project prompt response d).1 = [.finish ending] ∧
        (complete project prompt response d).2.agent.isActive = false := by
  obtain ⟨x, hx, ends⟩ := h
  have ends' : Ends x (recorded prompt response d) := ends
  unfold complete
  simp only [hx]
  exact interpret_of_ends ends'

/-- The desk of an agent whose reply is no directive, and who is told so. -/
def misread (prompt response : String) (e : ParseError) (d : Desk) : Desk :=
  { d with agent := { d.agent with
    context := d.agent.context ++ [⟨prompt, response⟩]
    queue := ["PARSING FAILED: " ++ e.message]
    stalled := false } }

/-- What a turn leaves of the talk, with the desk and the effects that it ends in. -/
structure FollowedUp (prompt response : String) (d : Desk) (out : List Effect × Desk) : Prop where
  /-- The turn is not in flight any more. -/
  landed : out.2.agent.stalled = false
  single : out.2.agent.queue.length ≤ 1
  /-- Nothing is left to say exactly where the agent waits or its task ends. -/
  quiet : out.2.agent.queue = [] ↔ Waits response d ∨ Concludes response d
  /-- The turn is recorded as long as the task goes on. -/
  recorded : ¬ Concludes response d → out.2.agent.context = d.agent.context ++ [⟨prompt, response⟩]
  /-- The end of the task is reported and leaves nothing of the talk. -/
  ended : Concludes response d → out.2.agent.context = [] ∧ out.2.agent.isActive = false ∧
    ∃ ending, out.1 = [.finish ending]
  unended : ¬ Concludes response d → out.1.any Effect.isFinish = false
  /-- A reply that is no directive asks nothing of others and changes nothing around the agent. -/
  misread : ∀ e, Directive.parse d.agent.kind.dialect response = .error e →
    out = ([], misread prompt response e d)

/-- **Every turn has one follow-up,** but for those that wait or end the task, which have none. -/
theorem complete_followUp (project : Project) (prompt response : String) (d : Desk) :
    FollowedUp prompt response d (complete project prompt response d) := by
  have left := leftover?_eq_none project prompt response d
  have finishes := complete_finishes project prompt response d
  rcases complete_talk project prompt response d with ⟨unfinished, talk⟩ | ⟨finished, talk⟩
  · have stays : ¬ Concludes response d := fun h => by cases unfinished.symm.trans (finishes.mpr h)
    obtain ⟨hqueue, hcontext⟩ := Prod.mk.inj talk
    refine ⟨complete_stalled project prompt response d, ?_, ?_, fun _ => hcontext,
      fun h => absurd h stays, fun _ => unfinished, fun e he => ?_⟩
    · rw [hqueue]
      cases leftover? project prompt response d <;> simp
    · rw [hqueue, ← left]
      cases leftover? project prompt response d <;> simp
    · unfold complete
      simp only [he]
      rfl
  · have ends : Concludes response d := finishes.mp finished
    obtain ⟨hqueue, hcontext⟩ := Prod.mk.inj talk
    obtain ⟨ending, heffects, idle⟩ := complete_of_concludes project prompt ends
    refine ⟨complete_stalled project prompt response d, ?_, ?_, fun h => absurd ends h,
      fun _ => ⟨hcontext, idle, ending, heffects⟩, fun h => absurd ends h, fun e he => ?_⟩
    · rw [hqueue]
      exact Nat.zero_le 1
    · exact ⟨fun _ => Or.inr ends, fun _ => hqueue⟩
    · obtain ⟨x, hx, -⟩ := ends
      cases hx.symm.trans he

end Arbor.Turn
