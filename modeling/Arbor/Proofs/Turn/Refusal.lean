import Arbor.Proofs.Turn.Confinement

/-! # Refused directives

A verb that asks for no new agents looks at everything that can be wrong before it changes
anything. So where it is refused, the desk is as before: what is left is the prompt that says so, the
time at which the master was last active, and what the executor and the human were asked.

* `refused_run`: the desk that a refused verb leaves.
* `refused_read_iff`, `refused_assign_iff`: one target that is wrong, wherever it stands in the list,
  refuses all of them.
* `refused_finish_iff`: exactly when an agent cannot end its task.
* `refused_traceless`: all of this for a whole directive. -/

namespace Arbor.Turn

open Directive Act

variable {project : Project} {d d' : Desk} {k : Dialect}

/-- The directive asks for new agents, and makes their files. -/
def Recruits : Directive k → Prop
  | .create _ _ => True
  | .spawn _ => True
  | _ => False

/-- The directive is refused. -/
def Refused (project : Project) (x : Directive k) (d : Desk) : Prop :=
  ∃ e, ((perform project x).run d).1 = .error e

/-- Whoever was carried out was not refused. -/
theorem not_refused_of_isOk {x : Directive k} (h : ((perform project x).run d).1.isOk = true) :
    ¬ Refused project x d := by
  rintro ⟨e, he⟩
  rw [he] at h
  cases h

theorem not_refused_of_run {x : Directive k} {step : Step}
    (h : (perform project x).run d = (.ok step, d')) : ¬ Refused project x d :=
  not_refused_of_isOk (by rw [h]; rfl)

/-- What is not refused is carried out. -/
theorem run_of_not_refused {x : Directive k} (h : ¬ Refused project x d) :
    ∃ step after, (perform project x).run d = (.ok step, after) := by
  cases hrun : ((perform project x).run d : Except AgentError Step × Desk) with
  | mk outcome after =>
    cases outcome with
    | error e => exact absurd ⟨e, by rw [hrun]⟩ h
    | ok step => exact ⟨step, after, rfl⟩

/-- The target of a reading leads to nothing that can be read. -/
def Unreadable (project : Project) (d : Desk) (t : Target) : Prop :=
  ∃ e, locate project d.world.site.files (d.agent.baseDir project) t = .error e

/-- No child is meant by the target. -/
def Childless (d : Desk) (t : Target) : Prop := ∃ e, childOf d.agent t = .error e

/-- The human cannot be asked. -/
def Unheard (question : String) (d : Desk) : Prop := ∃ text, (d.world.ask question).1 = .error text

/-- **The directive leaves no trace:** nobody else is asked for anything, the files and the claimed
scratch files are as before, and so is the agent but for its queue and its last activity. -/
structure Traceless (project : Project) (x : Directive k) (d : Desk) : Prop where
  effects : (interpret project x d).1 = []
  site : (interpret project x d).2.world.site = d.world.site
  number : (interpret project x d).2.world.nextNumber = d.world.nextNumber
  agent : ∃ (e : AgentError) (now : Nat), ((perform project x).run d).1 = .error e ∧
    (interpret project x d).2.agent = { d.agent with
      queue := d.agent.queue ++ [x.verb.text ++ " failed: " ++ e.message]
      lastActivity := now }

/-! ### What a refused verb leaves -/

/-- The desk is as before, but for the last activity and what was run and asked. -/
structure Unmarked (d d' : Desk) : Prop where
  site : d'.world.site = d.world.site
  number : d'.world.nextNumber = d.world.nextNumber
  agent : ∃ now, d'.agent = d.agent.touch now

theorem Unmarked.refl (d : Desk) : Unmarked d d := ⟨rfl, rfl, d.agent.lastActivity, rfl⟩

theorem unmarked_readied (k : Dialect) (d : Desk) : Unmarked d (readied k d) := by
  unfold readied
  split
  · exact ⟨rfl, rfl, d.world.now, rfl⟩
  · exact .refl d

/-- **A refused verb has changed nothing,** unless it asks for new agents. -/
theorem refused_run {x : Directive k} {e : AgentError} (settled : ¬ Recruits x)
    (h : (perform project x).run d = (.error e, d')) : Unmarked d d' := by
  cases x with
  | read targets =>
    rw [perform, run_bind, touchFirst_run] at h
    rcases read_cases project targets (readied k d) with ⟨e', hrun⟩ | ⟨memory, note, hrun⟩
    · cases hrun.symm.trans h
      exact unmarked_readied k d
    · cases hrun.symm.trans h
  | run command =>
    rw [perform, run_bind, touchFirst_run] at h
    rcases run_cases project command (readied k d) with ⟨e', hrun⟩ | ⟨r, hrun, -⟩
    · cases hrun.symm.trans h
      exact unmarked_readied k d
    · -- the command may have run: only the executor knows what it did
      cases hrun.symm.trans h
      exact ⟨(unmarked_readied k d).site, (unmarked_readied k d).number,
        (unmarked_readied k d).agent⟩
  | wait =>
    rw [perform] at h
    rcases wait_cases d with ⟨-, hrun⟩ | ⟨-, hrun⟩
    · cases hrun.symm.trans h
    · cases hrun.symm.trans h
      exact .refl d
  | finish report =>
    have lasting : ∀ {out}, (finish project report).run d = out → out = (.error e, d') →
        Unmarked d d' := by
      rintro out hrun rfl
      rcases finish_cases project report d with ⟨e', -, hcase⟩ | ⟨payload, -, hcase⟩
      · cases hcase.symm.trans hrun
        exact .refl d
      · cases hcase.symm.trans hrun
    cases k with
    | coder => exact lasting rfl h
    | manager => exact lasting rfl h
    | master =>
      have hreport := finishMaster_run report d
      rw [show (finishMaster report).run d = (.error e, d') from h] at hreport
      cases hreport with
      | rootActive working => exact .refl d
      | helpersActive => exact .refl d
      | unheard text => exact ⟨rfl, rfl, d.agent.lastActivity, rfl⟩
  | change content =>
    rw [perform] at h
    rcases change_cases project content d with ⟨e', hrun⟩ | ⟨file, files, note, -, -, hrun⟩
    · cases hrun.symm.trans h
      exact .refl d
    · cases hrun.symm.trans h
  | updateReadme content | updateDocumentation content =>
    rw [perform] at h
    rcases writeDoc_cases project content d with ⟨e', hrun⟩ | ⟨doc, files, note, -, -, hrun⟩
    · cases hrun.symm.trans h
      exact .refl d
    · cases hrun.symm.trans h
  | delete t =>
    have hdeletion := delete_run project t d
    rw [show (delete project t).run d = (.error e, d') from h] at hdeletion
    cases hdeletion
    exact .refl d
  | assign assignments =>
    rw [perform] at h
    rcases assign_cases assignments d with ⟨e', hrun⟩ | ⟨children, note, -, hrun⟩
    · cases hrun.symm.trans h
      exact .refl d
    · cases hrun.symm.trans h
  | delegate prompt =>
    rw [perform, run_bind, run_touch] at h
    rcases delegateToRoot_cases prompt (touched d) with ⟨e', hrun⟩ | ⟨entry, root, rest, note, -, hrun⟩
    · cases hrun.symm.trans h
      exact ⟨rfl, rfl, d.world.now, rfl⟩
    · cases hrun.symm.trans h
  | message question =>
    rw [perform] at h
    rcases message_cases question d with ⟨e', hrun⟩ | ⟨note, hrun⟩
    · cases hrun.symm.trans h
      exact ⟨rfl, rfl, d.agent.lastActivity, rfl⟩
    · cases hrun.symm.trans h
  | create t content => exact absurd trivial settled
  | spawn orders => exact absurd trivial settled

/-- Of the agent, carrying out a directive changes the queue besides what its verb changes. -/
theorem interpret_of_run {x : Directive k} {outcome : Except AgentError Step}
    (h : (perform project x).run d = (outcome, d')) :
    interpret project x d = (effectsOf outcome, { d' with agent := { d'.agent with
      queue := d'.agent.queue ++ (followUpPrompt? x.verb outcome).toList } }) := by
  unfold interpret
  rw [h]
  cases hprompt : followUpPrompt? x.verb outcome <;> simp [hprompt, Agent.enqueue]

/-- A directive is refused without a trace if its verb is. -/
theorem traceless_of_refused {x : Directive k} (settled : ¬ Recruits x)
    (refused : Refused project x d) : Traceless project x d := by
  obtain ⟨e, he⟩ := refused
  have hrun : (perform project x).run d = (.error e, ((perform project x).run d).2) :=
    Prod.ext he rfl
  obtain ⟨site, number, now, agent⟩ := refused_run settled hrun
  have hinterpret := interpret_of_run hrun
  refine ⟨by rw [hinterpret]; rfl, by rw [hinterpret]; exact site, by rw [hinterpret]; exact number,
    e, now, he, ?_⟩
  rw [hinterpret, agent]
  rfl

/-! ### One wrong target refuses all -/

/-- **A reading is refused** exactly if one of its targets cannot be read. -/
theorem refused_read_iff (targets : List Target) :
    Refused project (.read targets : Directive k) d ↔ ∃ t ∈ targets, Unreadable project d t := by
  have hbase : (readied k d).agent.baseDir project = d.agent.baseDir project := by
    unfold readied
    split <;> rfl
  have hfiles : (readied k d).world.site.files = d.world.site.files := by
    unfold readied
    split <;> rfl
  unfold Refused
  rw [perform, run_bind, touchFirst_run, read]
  simp only [run_bind, run_get, run_lift, hbase, hfiles, Unreadable]
  rw [← mapM_eq_error_iff]
  cases targets.mapM (locate project d.world.site.files (d.agent.baseDir project)) with
  | error e => exact iff_of_true ⟨e, rfl⟩ ⟨e, rfl⟩
  | ok paths =>
    refine iff_of_false ?_ ?_ <;> rintro ⟨_, h⟩ <;> cases h

/-- **Handing out prompts is refused** exactly if one of the targets means no child. -/
theorem refused_assign_iff (assignments : List (Target × String)) :
    Refused project (.assign assignments) d ↔ ∃ order ∈ assignments, Childless d order.1 := by
  unfold Refused Childless
  rw [perform, assign]
  simp only [run_bind, run_get, run_lift]
  rw [← mapM_eq_error_iff]
  cases assignments.mapM (fun order => childOf d.agent order.1) with
  | error e => exact iff_of_true ⟨e, rfl⟩ ⟨e, rfl⟩
  | ok children =>
    simp only [handOut_run]
    refine iff_of_false ?_ ?_ <;> rintro ⟨_, h⟩ <;> cases h

/-! ### Who cannot end its task -/

/-- The master cannot report while somebody works for it, or where the human cannot be asked. -/
theorem finishMaster_refused_iff (report : String) :
    (∃ e, ((finishMaster report).run d).1 = .error e) ↔
      d.agent.busy? ≠ none ∨ Unheard report d := by
  simp only [finishMaster, run_bind, run_get]
  by_cases hd : (!d.agent.delegated.isEmpty) = true
  · have busy : d.agent.busy? ≠ none := by simp [Agent.busy?, hd]
    rw [if_pos hd]
    exact iff_of_true ⟨_, rfl⟩ (Or.inl busy)
  rw [if_neg hd]
  by_cases hh : (!d.agent.helpers.isEmpty) = true
  · have busy : d.agent.busy? ≠ none := by simp [Agent.busy?, hd, hh]
    rw [if_pos hh]
    exact iff_of_true ⟨_, rfl⟩ (Or.inl busy)
  rw [if_neg hh]
  have idle : d.agent.busy? = none := by rw [Agent.busy?, if_neg hd, if_neg hh]
  simp only [run_bind, run_ask, run_touch, Unheard]
  cases (d.world.ask report).1 with
  | error text => exact iff_of_true ⟨_, rfl⟩ (Or.inr ⟨text, rfl⟩)
  | ok reply =>
    -- whatever the human says, the report was heard
    refine iff_of_false ?_ (by simp [idle])
    rintro ⟨e, he⟩
    simp only at he
    split at he
    · rcases endTask_cases report (touched (questioned d report)) with ⟨e', busy, -⟩ | ⟨-, h⟩
      · exact absurd (idle.symm.trans busy) (by simp)
      · have hend : ((endTask report).run (touched (questioned d report))).1 = .error e := he
        rw [h] at hend
        cases hend
    · cases he

theorem hasActiveWork_iff {a : Agent} : a.hasActiveWork = true ↔ a.busy? ≠ none := by
  unfold Agent.hasActiveWork Agent.busy?
  cases a.delegated.isEmpty <;> cases a.helpers.isEmpty <;> simp

/-- **An agent cannot end its task** exactly as long as somebody works for it; the master cannot
either where the human is not to be asked. -/
theorem refused_finish_iff (report : String) :
    Refused project (.finish report : Directive k) d ↔
      d.agent.hasActiveWork = true ∨ (k = .master ∧ Unheard report d) := by
  rw [hasActiveWork_iff]
  have lasting : (∃ e, ((finish project report).run d).1 = .error e) ↔ d.agent.busy? ≠ none := by
    rcases finish_cases project report d with ⟨e, busy, h⟩ | ⟨payload, idle, h⟩
    · rw [h, busy]
      exact iff_of_true ⟨e, rfl⟩ (by simp)
    · rw [h, idle]
      exact iff_of_false (fun ⟨_, he⟩ => by cases he) (fun hne => hne rfl)
  cases k with
  | coder => exact lasting.trans ⟨Or.inl, fun h => h.resolve_right fun hm => by cases hm.1⟩
  | manager => exact lasting.trans ⟨Or.inl, fun h => h.resolve_right fun hm => by cases hm.1⟩
  | master =>
    exact (finishMaster_refused_iff report).trans
      ⟨fun h => h.imp_right fun unheard => ⟨rfl, unheard⟩, fun h => h.imp_right And.right⟩

/-! ### Any directive -/

/-- **Refused directives leave no trace,** whatever they say and whoever gives them, unless they ask
for new agents. One target that cannot be read, or that is no child, refuses a whole list of them
wherever it stands; and a task cannot be ended exactly as long as a child or a helper works for the
agent, or, for the master, where the human cannot be asked. -/
theorem refused_traceless (project : Project) (k : Dialect) (d : Desk) :
    (∀ x : Directive k, ¬ Recruits x → Refused project x d → Traceless project x d) ∧
    (∀ targets, Refused project (.read targets : Directive k) d ↔
      ∃ t ∈ targets, Unreadable project d t) ∧
    (∀ assignments, Refused project (.assign assignments) d ↔
      ∃ order ∈ assignments, Childless d order.1) ∧
    (∀ report, Refused project (.finish report : Directive k) d ↔
      d.agent.hasActiveWork = true ∨ (k = .master ∧ Unheard report d)) :=
  ⟨fun _ settled refused => traceless_of_refused settled refused, refused_read_iff,
    refused_assign_iff, refused_finish_iff⟩

/-- A file that is there and one that is not. -/
def cellarReading : Directive .manager := .read [⟨"a.py", false⟩, ⟨"b.py", false⟩]

/-- The file that is there is not remembered, because the other one is not there. -/
theorem refused_traceless_cellar :
    ¬ Recruits cellarReading ∧ Refused cellarProject cellarReading cellarDesk ∧
    (interpret cellarProject cellarReading cellarDesk).1 = [] ∧
    (interpret cellarProject cellarReading cellarDesk).2.agent.memory = [] := by
  obtain ⟨traceless, reads, -⟩ := refused_traceless cellarProject .manager cellarDesk
  have absent : Unreadable cellarProject cellarDesk ⟨"b.py", false⟩ :=
    ⟨.io "read" "b.py" .absent, by decide +kernel⟩
  have refused : Refused cellarProject cellarReading cellarDesk :=
    (reads _).mpr ⟨⟨"b.py", false⟩, by simp, absent⟩
  obtain ⟨effects, -, -, e, now, -, agent⟩ := traceless cellarReading id refused
  refine ⟨id, refused, effects, ?_⟩
  rw [agent]
  simp only [cellarDesk, Agent.fresh]

end Arbor.Turn
