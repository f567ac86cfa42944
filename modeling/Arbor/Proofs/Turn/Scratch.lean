import Arbor.Proofs.FileSystem
import Arbor.Proofs.Turn.Queue

/-! # Scratch files over a turn

The helpers of a coder share a scratch file that the coder owns; any other helper has one of its own.
An agent lets go of its scratch file when its task ends, and removes it if it owns it.

* `complete_cases`: a turn is carrying out a directive, or says that there is none.
* `complete_nature`: a turn leaves alone what an agent is.
* `complete_scratch`: the scratch files of an agent and of the helpers it starts.
* `complete_hired`: each helper that a turn lists is one that it starts.
* `complete_finish`: ending a task lets go of the scratch file.
* `releaseScratch_owned`: a scratch file that is let go by its owner is gone. -/

namespace Arbor

/-- What an agent is, whatever it does. -/
structure Nature where
  id : AgentId
  kind : Kind
  name : String
  scope : Scope
  parent : Option AgentId

/-- What the agent is. -/
def Agent.nature (a : Agent) : Nature := ⟨a.id, a.kind, a.name, a.scope, a.parent⟩

/-- **The scratch file is one that a helper of the agent works in:** the coder's own, or one that the
helper owns. -/
def Scratch.Suits (scratch : Scratch) (a : Agent) : Prop :=
  if a.kind = .coder then scratch.owned = false ∧ a.scratch = some ⟨scratch.path, true⟩
  else scratch.owned = true

/-- The scratch file of a helper that is to be started suits the agent. -/
def Effect.Suits (a : Agent) : Effect → Prop
  | .spawn _ _ _ scratch => scratch.Suits a
  | _ => True

/-- The agent has the scratch file it had, or is a coder that has come by one. -/
def Agent.KeepsScratch (a a' : Agent) : Prop :=
  a'.scratch = a.scratch ∨
    a.kind = .coder ∧ ∃ path, a'.scratch = some ⟨path, true⟩ ∧ ∀ s ∈ a.scratch, s.path = path

theorem Agent.KeepsScratch.owned {a a' : Agent} (h : a.KeepsScratch a') {path : Path}
    (own : a.scratch = some ⟨path, true⟩) : a'.scratch = some ⟨path, true⟩ := by
  rcases h with h | ⟨-, path', h, hpath⟩
  · exact h.trans own
  · rw [h, ← hpath ⟨path, true⟩ own]

namespace Turn

open Directive

variable {project : Project} {d d' : Desk}

/-! ### Turns as directives -/

/-- **A turn is carrying out a directive,** or leaves a prompt that says that there is none. -/
theorem complete_cases (project : Project) (prompt response : String) (d : Desk) :
    (∃ queue, complete project prompt response d =
      ([], { d with agent :=
        { (recorded prompt response d).agent with queue := queue, stalled := false } })) ∨
    ∃ x out queue, Directive.parse d.agent.kind.dialect response = .ok x ∧
      out = ((perform project x).run (recorded prompt response d) :
        Except AgentError Step × Desk) ∧
      complete project prompt response d = (effectsOf out.1,
        { out.2 with agent := { out.2.agent with queue := queue, stalled := false } }) := by
  unfold complete
  simp only
  cases hparse : Directive.parse d.agent.kind.dialect response with
  | error e => exact Or.inl ⟨_, rfl⟩
  | ok x =>
    refine Or.inr ⟨x, (perform project x).run (recorded prompt response d), ?_⟩
    simp only [interpret]
    rw [← recorded]
    generalize ((perform project x).run (recorded prompt response d) :
      Except AgentError Step × Desk) = out
    obtain ⟨outcome, after⟩ := out
    cases hnote : followUpPrompt? x.verb outcome with
    | none => exact ⟨after.agent.queue, trivial, trivial, by simp [hnote]⟩
    | some text => exact ⟨after.agent.queue ++ [text], trivial, trivial, by simp [hnote, Agent.enqueue]⟩

/-! ### What an agent is -/

theorem Unmoved.nature (h : Unmoved d d') : d'.agent.nature = d.agent.nature := by
  obtain ⟨memory, now, ha⟩ := h.agent
  rw [ha]
  rfl

theorem Unmoved.scratch (h : Unmoved d d') : d'.agent.scratch = d.agent.scratch := by
  obtain ⟨memory, now, ha⟩ := h.agent
  rw [ha]

theorem handedOut_frame (orders : List (AgentId × String)) (d : Desk) :
    (handedOut orders d).agent.nature = d.agent.nature ∧
      (handedOut orders d).agent.scratch = d.agent.scratch := by
  obtain ⟨delegated, h⟩ := handedOut_delegated orders d
  rw [h]
  exact ⟨rfl, rfl⟩

theorem spawning_nature {orders : List HelperOrder} {out : Except AgentError (List Effect) × Desk}
    (h : Spawning project orders d out) : out.2.agent.nature = d.agent.nature := by
  obtain ⟨own, helpers, ha⟩ := h.agent
  rw [ha]
  rfl

theorem released_agent (d : Desk) : (released d).agent = { d.agent with scratch := none } :=
  (releaseScratch_cases d.agent d.world.site).1

theorem perform_nature {k : Dialect} (project : Project) (x : Directive k) (d : Desk) :
    ((perform project x).run d).2.agent.nature = d.agent.nature := by
  have h := perform_performed project x d
  generalize ((perform project x).run d : Except AgentError Step × Desk) = out at h ⊢
  cases h with
  | quiet still silent => exact still.nature
  | wrote own write => rfl
  | created target creation => cases creation <;> rfl
  | deleted target deletion => cases deletion <;> rfl
  | spawned still notHelper spawning verb => exact (spawning_nature spawning).trans still.nature
  | handed still children => exact (handedOut_frame _ _).1.trans still.nature
  | finished idle =>
    simp only [released_agent]
    rfl
  | ended still idle master => exact still.nature

/-- **A turn leaves alone what an agent is.** -/
theorem complete_nature (project : Project) (prompt response : String) (d : Desk) :
    (complete project prompt response d).2.agent.nature = d.agent.nature := by
  rcases complete_cases project prompt response d with ⟨queue, h⟩ | ⟨x, out, queue, -, rfl, h⟩
  · rw [h]
    rfl
  · rw [h]
    exact perform_nature project x (recorded prompt response d)

/-! ### The scratch files of helpers -/

theorem scratchTaken_suits {scratch : Scratch} (h : ScratchTaken project d scratch d') :
    d.agent.KeepsScratch d'.agent ∧ scratch.Suits d'.agent := by
  cases h with
  | @shared path files isCoder shares write =>
    refine ⟨Or.inr ⟨isCoder, path, rfl, fun s hs => ?_⟩, ?_⟩
    · have hs' : d.agent.scratch = some s := hs
      simpa [sharedPath?, hs'] using shares
    · rw [Scratch.Suits, if_pos isCoder]
      exact ⟨rfl, rfl⟩
  | numbered notCoder write =>
    refine ⟨Or.inl rfl, ?_⟩
    rw [Scratch.Suits, if_neg notCoder]

theorem Scratch.Suits.keeps {scratch : Scratch} {a a' : Agent} (h : scratch.Suits a)
    (keeps : a.KeepsScratch a') (kind : a'.kind = a.kind) : scratch.Suits a' := by
  unfold Scratch.Suits at h ⊢
  rw [kind]
  split
  · next hk =>
    rw [if_pos hk] at h
    exact ⟨h.1, keeps.owned h.2⟩
  · next hk =>
    rw [if_neg hk] at h
    exact h

theorem KeepsScratch.trans {a b c : Agent} (h : a.KeepsScratch b) (h' : b.KeepsScratch c)
    (kind : b.kind = a.kind) : a.KeepsScratch c := by
  rcases h' with h' | ⟨hk, path, h', hpath⟩
  · rcases h with h | ⟨hk, path, h, hpath⟩
    · exact Or.inl (h'.trans h)
    · exact Or.inr ⟨hk, path, h'.trans h, hpath⟩
  · refine Or.inr ⟨kind ▸ hk, path, h', fun s hs => ?_⟩
    rcases h with h | ⟨-, path', h, hpath'⟩
    · exact hpath s (h ▸ hs)
    · exact (hpath' s hs).trans (hpath _ h)

/-- **Starting helpers:** the agent keeps its scratch file, and what is started works in a file that
suits it. -/
theorem spawning_suits {orders : List HelperOrder} {out : Except AgentError (List Effect) × Desk}
    (h : Spawning project orders d out) :
    d.agent.KeepsScratch out.2.agent ∧ ∀ effects, out.1 = .ok effects → ∀ effect ∈ effects,
      ∃ id kind prompt scratch, effect = .spawn id kind prompt scratch ∧
        scratch.Suits out.2.agent := by
  induction h with
  | done d =>
    refine ⟨Or.inl rfl, ?_⟩
    rintro effects ⟨⟩ effect he
    cases he
  | refused order rest d e =>
    refine ⟨Or.inl rfl, ?_⟩
    rintro effects ⟨⟩
  | @next order rest d d' after scratch r ht hmore ih =>
    obtain ⟨hkeeps, hsuits⟩ := ih
    obtain ⟨htaken, hfirst⟩ := scratchTaken_suits ht
    have hkind : d'.agent.kind = d.agent.kind := by cases ht <;> rfl
    have hafter : after.agent.kind = d'.agent.kind := congrArg Nature.kind (spawning_nature hmore)
    have hlast : d'.agent.KeepsScratch after.agent := hkeeps
    refine ⟨KeepsScratch.trans htaken hlast hkind, fun effects hok effect he => ?_⟩
    obtain ⟨more, rfl, rfl⟩ := map_eq_ok.mp hok
    rcases List.mem_cons.mp he with rfl | he
    · exact ⟨_, _, _, _, rfl, Scratch.Suits.keeps hfirst hlast hafter⟩
    · exact hsuits more rfl effect he

/-- **The scratch file of an agent over a directive,** and those of the helpers that it starts. -/
theorem perform_scratch {k : Dialect} (project : Project) (x : Directive k) (d : Desk) :
    (d.agent.KeepsScratch ((perform project x).run d).2.agent ∨
      (((perform project x).run d).2.agent.scratch = none ∧
        ∃ ending, effectsOf ((perform project x).run d).1 = [.finish ending])) ∧
    ∀ effect ∈ effectsOf ((perform project x).run d).1,
      effect.Suits ((perform project x).run d).2.agent := by
  have h := perform_performed project x d
  generalize ((perform project x).run d : Except AgentError Step × Desk) = out at h ⊢
  cases h with
  | quiet still silent =>
    rw [silent]
    exact ⟨Or.inl (Or.inl still.scratch), by simp⟩
  | wrote own write => exact ⟨Or.inl (Or.inl rfl), fun effect he => by cases he⟩
  | created target creation =>
    refine ⟨Or.inl (Or.inl ?_), fun effect he => ?_⟩
    · cases creation <;> rfl
    · cases creation with
      | refused e => cases he
      | noteless e => cases he
      | made =>
        rw [List.mem_singleton.mp he]
        trivial
  | deleted target deletion =>
    refine ⟨Or.inl (Or.inl ?_), fun effect he => ?_⟩
    · cases deletion <;> rfl
    · cases deletion with
      | refused e => cases he
      | unlinked => cases he
      | linked =>
        rw [List.mem_singleton.mp he]
        trivial
  | @spawned orders d' after r note still notHelper spawning verb =>
    obtain ⟨hkeeps, hsuits⟩ := spawning_suits spawning
    have hkind : d'.agent.kind = d.agent.kind := congrArg Nature.kind still.nature
    refine ⟨Or.inl (KeepsScratch.trans (Or.inl still.scratch) hkeeps hkind), fun effect he => ?_⟩
    cases r with
    | error e => cases he
    | ok effects =>
      obtain ⟨id, kind, prompt, scratch, rfl, h⟩ := hsuits effects rfl effect he
      exact h
  | handed still children =>
    refine ⟨Or.inl (Or.inl ((handedOut_frame _ _).2.trans still.scratch)), fun effect he => ?_⟩
    obtain ⟨order, -, task, rfl⟩ := mem_tasksFrom he
    trivial
  | finished idle =>
    refine ⟨Or.inr ⟨?_, _, rfl⟩, fun effect he => ?_⟩
    · rw [released_agent]
    · rw [List.mem_singleton.mp he]
      trivial
  | ended still idle master =>
    refine ⟨Or.inl (Or.inl still.scratch), fun effect he => ?_⟩
    rw [List.mem_singleton.mp he]
    trivial

/-- **The scratch file of an agent over a turn,** and those of the helpers that it starts. -/
theorem complete_scratch (project : Project) (prompt response : String) (d : Desk) :
    (d.agent.KeepsScratch (complete project prompt response d).2.agent ∨
      ((complete project prompt response d).2.agent.scratch = none ∧
        ∃ ending, (complete project prompt response d).1 = [.finish ending])) ∧
    ∀ effect ∈ (complete project prompt response d).1,
      effect.Suits (complete project prompt response d).2.agent := by
  rcases complete_cases project prompt response d with ⟨queue, h⟩ | ⟨x, out, queue, -, rfl, h⟩
  · rw [h]
    exact ⟨Or.inl (Or.inl rfl), fun effect he => by cases he⟩
  · rw [h]
    obtain ⟨hkeeps, hsuits⟩ := perform_scratch project x (recorded prompt response d)
    refine ⟨hkeeps, fun effect he => ?_⟩
    have heffect := hsuits effect he
    cases effect with
    | spawn id kind prompt scratch => exact heffect
    | _ => trivial

/-! ### Coming by a scratch file -/

/-- The agent has no scratch file, or has come by the one that is named after its file. -/
def MayName (project : Project) (site : Site) (a a' : Agent) : Prop :=
  a'.scratch = none ∨
    ∃ file, a.scope.file? = some file ∧ a'.scratch = some ⟨project.coderScratch site file, true⟩

theorem sharedPath?_bare {path : Path} (bare : d.agent.scratch = none)
    (shares : sharedPath? project d = some path) :
    ∃ file, d.agent.scope.file? = some file ∧ path = project.coderScratch d.world.site file := by
  unfold sharedPath? at shares
  rw [bare] at shares
  cases hfile : d.agent.scope.file? with
  | none =>
    rw [hfile] at shares
    cases shares
  | some file =>
    rw [hfile] at shares
    exact ⟨file, rfl, (Option.some.inj shares).symm⟩

theorem spawning_names {orders : List HelperOrder} {out : Except AgentError (List Effect) × Desk}
    (h : Spawning project orders d out) (coder : d.agent.kind = .coder)
    (bare : d.agent.scratch = none) : MayName project d.world.site d.agent out.2.agent := by
  cases h with
  | done d => exact Or.inl bare
  | refused order rest d e => exact Or.inl bare
  | @next order rest d d' after scratch r taken more =>
    cases taken with
    | numbered notCoder write => exact absurd coder notCoder
    | @shared path files isCoder shares write =>
      obtain ⟨file, hfile, rfl⟩ := sharedPath?_bare bare shares
      exact Or.inr ⟨file, hfile, (spawning_suits more).1.owned rfl⟩

theorem perform_names {k : Dialect} (project : Project) (x : Directive k) (d : Desk)
    (coder : d.agent.kind = .coder) (bare : d.agent.scratch = none) :
    MayName project d.world.site d.agent ((perform project x).run d).2.agent := by
  have h := perform_performed project x d
  generalize ((perform project x).run d : Except AgentError Step × Desk) = out at h ⊢
  cases h with
  | quiet still silent => exact Or.inl (still.scratch.trans bare)
  | wrote own write => exact Or.inl bare
  | created target creation => cases creation <;> exact Or.inl bare
  | deleted target deletion => cases deletion <;> exact Or.inl bare
  | @spawned orders d' after r note still notHelper spawning verb =>
    have hnames := spawning_names spawning (Eq.trans (congrArg Nature.kind still.nature) coder)
      (still.scratch.trans bare)
    rwa [MayName, still.site, show d'.agent.scope = d.agent.scope from
      congrArg Nature.scope still.nature] at hnames
  | handed still children => exact Or.inl ((handedOut_frame _ _).2.trans (still.scratch.trans bare))
  | finished idle =>
    rw [released_agent]
    exact Or.inl rfl
  | ended still idle master => exact Or.inl (still.scratch.trans bare)

/-- **A coder comes by the scratch file that is named after its file.** -/
theorem complete_names (project : Project) (prompt response : String) (d : Desk)
    (coder : d.agent.kind = .coder) (bare : d.agent.scratch = none) :
    MayName project d.world.site d.agent (complete project prompt response d).2.agent := by
  rcases complete_cases project prompt response d with ⟨queue, h⟩ | ⟨x, out, queue, -, rfl, h⟩
  · rw [h]
    exact Or.inl bare
  · rw [h]
    exact perform_names project x (recorded prompt response d) coder bare

/-! ### Helpers that are started -/

/-- **A reply orders helpers, and a scratch file for one of them cannot be made.** -/
def spawnFails (project : Project) (response : String) (d : Desk) : Bool :=
  match Directive.parse d.agent.kind.dialect response with
  | .ok (.spawn orders) => !d.agent.kind.isHelper &&
    ((perform project (.spawn orders : Directive d.agent.kind.dialect)).run d).1.toOption.isNone
  | _ => false

theorem spawnFails_eq_true {response : String} {orders : List HelperOrder} {error : AgentError}
    (lasting : d.agent.kind.isHelper = false)
    (parsed : Directive.parse d.agent.kind.dialect response = .ok (.spawn orders))
    (failed : ((perform project (.spawn orders : Directive d.agent.kind.dialect)).run d).1 =
      .error error) : spawnFails project response d = true := by
  unfold spawnFails
  rw [parsed]
  simp only [lasting, failed]
  rfl

/-- Each new helper is one that an effect starts. -/
theorem perform_hired {k : Dialect} {x : Directive k} {d : Desk}
    (fine : ∀ orders, x = .spawn orders → d.agent.kind.isHelper = false →
      ∀ error, ((perform project x).run d).1 ≠ .error error) {c : AgentId}
    (hc : c ∈ ((perform project x).run d).2.agent.helpers) :
    c ∈ d.agent.helpers ∨ ∃ kind prompt scratch,
      .spawn c kind prompt scratch ∈ effectsOf ((perform project x).run d).1 := by
  have h := perform_performed project x d
  generalize ((perform project x).run d : Except AgentError Step × Desk) = out at h hc fine ⊢
  cases h with
  | quiet still silent =>
    have hsame : _ = d.agent.helpers := congrArg Books.helpers still.books
    exact Or.inl (hsame ▸ hc)
  | wrote own write => exact Or.inl hc
  | created target creation => cases creation <;> exact Or.inl hc
  | deleted target deletion => cases deletion <;> exact Or.inl hc
  | @spawned orders d' after r note still notHelper spawning verb =>
    obtain ⟨n, hbooks, -, hids⟩ := spawning_books spawning
    have hhelpers : after.agent.helpers =
        d'.agent.helpers ++ freshIds d'.world.nextNumber n := congrArg Books.helpers hbooks
    have hsame : d'.agent.helpers = d.agent.helpers := congrArg Books.helpers still.books
    rw [hhelpers, hsame] at hc
    rcases List.mem_append.mp hc with hc | hc
    · exact Or.inl hc
    · cases r with
      | error e => exact absurd rfl (fine orders verb notHelper e)
      | ok effects =>
        have hmem : some c ∈ effects.map Effect.helper? := by
          rw [hids effects rfl]
          exact List.mem_map_of_mem hc
        obtain ⟨effect, he, hnew⟩ := List.mem_map.mp hmem
        cases effect with
        | spawn id kind prompt scratch =>
          obtain rfl := Option.some.inj hnew
          exact Or.inr ⟨kind, prompt, scratch, he⟩
        | _ => cases hnew
  | @handed orders d' note still children =>
    have hbooks := (handedOut_books orders d').1
    rw [Books.handAll_eq] at hbooks
    have hsame : (handedOut orders d').agent.helpers = d.agent.helpers :=
      (congrArg Books.helpers hbooks).trans (congrArg Books.helpers still.books)
    exact Or.inl (hsame ▸ hc)
  | @finished payload idle =>
    have hsame : (released { d with agent := d.agent.retire }).agent.helpers = d.agent.helpers :=
      congrArg Books.helpers (released_books { d with agent := d.agent.retire })
    exact Or.inl (hsame ▸ hc)
  | @ended payload d' still idle master =>
    have hsame : d'.agent.helpers = d.agent.helpers := congrArg Books.helpers still.books
    exact Or.inl (hsame ▸ hc)

/-- **Each helper that a turn puts on the list is one that it starts,** unless a scratch file cannot
be made. -/
theorem complete_hired {prompt response : String} {d : Desk}
    (fine : spawnFails project response (recorded prompt response d) = false) {c : AgentId}
    (hc : c ∈ (complete project prompt response d).2.agent.helpers) :
    c ∈ d.agent.helpers ∨ ∃ kind text scratch,
      .spawn c kind text scratch ∈ (complete project prompt response d).1 := by
  rcases complete_cases project prompt response d with ⟨queue, h⟩ | ⟨x, out, queue, hparse, rfl, h⟩
  · rw [h] at hc
    exact Or.inl hc
  · rw [h] at hc ⊢
    refine perform_hired (d := recorded prompt response d) ?_ hc
    rintro orders rfl lasting error failed
    rw [spawnFails_eq_true (d := recorded prompt response d) lasting hparse failed] at fine
    cases fine

/-- **A helper, which has no children, asks nothing of others but to report,** and starts no helpers. -/
theorem perform_helper {x : Directive .coder} {d : Desk} (helper : d.agent.kind.isHelper = true)
    (childless : d.agent.children = []) :
    (effectsOf ((perform project x).run d).1 = [] ∨
      ∃ ending, effectsOf ((perform project x).run d).1 = [.finish ending]) ∧
    ((perform project x).run d).2.agent.helpers = d.agent.helpers := by
  have h := perform_performed project x d
  generalize ((perform project x).run d : Except AgentError Step × Desk) = out at h ⊢
  cases h with
  | quiet still silent => exact ⟨Or.inl silent, congrArg Books.helpers still.books⟩
  | wrote own write => exact ⟨Or.inl rfl, rfl⟩
  | created target creation =>
    rw [target?_of_coder rfl x] at target
    cases target
  | deleted target deletion =>
    rw [target?_of_coder rfl x] at target
    cases target
  | spawned still notHelper spawning verb =>
    rw [helper] at notHelper
    cases notHelper
  | @handed orders d' note still children =>
    cases orders with
    | nil => exact ⟨Or.inl rfl, congrArg Books.helpers still.books⟩
    | cons order rest =>
      obtain ⟨entry, link, hget, -⟩ := children order List.mem_cons_self
      rw [childless] at hget
      cases hget
  | finished idle =>
    exact ⟨Or.inr ⟨_, rfl⟩, congrArg Books.helpers (released_books { d with agent := d.agent.retire })⟩
  | ended still idle master => exact ⟨Or.inr ⟨_, rfl⟩, congrArg Books.helpers still.books⟩

theorem complete_helper (project : Project) (prompt response : String) (d : Desk)
    (helper : d.agent.kind.isHelper = true) (childless : d.agent.children = []) :
    ((complete project prompt response d).1 = [] ∨
      ∃ ending, (complete project prompt response d).1 = [.finish ending]) ∧
    (complete project prompt response d).2.agent.helpers = d.agent.helpers := by
  have hdialect : d.agent.kind.dialect = .coder := by
    cases hk : d.agent.kind with
    | helper kind => rfl
    | _ => rw [hk] at helper; cases helper
  rcases complete_cases project prompt response d with ⟨queue, h⟩ | ⟨x, out, queue, -, rfl, h⟩
  · rw [h]
    exact ⟨Or.inl rfl, rfl⟩
  · rw [h]
    revert x
    rw [hdialect]
    intro x _
    exact perform_helper (d := recorded prompt response d) helper childless

/-! ### The end of a task -/

theorem perform_finish {k : Dialect} {x : Directive k} {d : Desk} (lasting : k ≠ .master)
    {ending : Ending} (hm : .finish ending ∈ effectsOf ((perform project x).run d).1) :
    ((perform project x).run d).2 = released { d with agent := d.agent.retire } := by
  have h := perform_performed project x d
  generalize ((perform project x).run d : Except AgentError Step × Desk) = out at h hm ⊢
  cases h with
  | quiet still silent =>
    rw [silent] at hm
    cases hm
  | wrote own write => cases hm
  | created target creation =>
    cases creation with
    | refused e => cases hm
    | noteless e => cases hm
    | made => cases List.mem_singleton.mp hm
  | deleted target deletion =>
    cases deletion with
    | refused e => cases hm
    | unlinked => cases hm
    | linked => cases List.mem_singleton.mp hm
  | @spawned orders d' after r note still notHelper spawning verb =>
    cases r with
    | error e => cases hm
    | ok effects =>
      obtain ⟨id, kind, prompt, scratch, heq, -⟩ := (spawning_suits spawning).2 effects rfl _ hm
      cases heq
  | handed still children =>
    obtain ⟨order, -, task, heq⟩ := mem_tasksFrom hm
    cases heq
  | finished idle => rfl
  | ended still idle master => exact absurd master lasting

/-- **A turn that ends the task lets go of the scratch file.** -/
theorem complete_finish {prompt response : String} {d : Desk} (lasting : d.agent.kind ≠ .master)
    {ending : Ending} (hm : .finish ending ∈ (complete project prompt response d).1) :
    (complete project prompt response d).2.agent.scratch = none ∧
      (complete project prompt response d).2.world.site =
        (releaseScratch d.agent d.world.site).2 := by
  have hdialect : d.agent.kind.dialect ≠ .master := by
    cases hk : d.agent.kind with
    | master => exact absurd hk lasting
    | _ => simp [Kind.dialect]
  rcases complete_cases project prompt response d with ⟨queue, h⟩ | ⟨x, out, queue, -, rfl, h⟩
  · rw [h] at hm
    cases hm
  · rw [h] at hm ⊢
    simp only [perform_finish hdialect hm, released_agent]
    refine ⟨trivial, ?_⟩
    exact releaseScratch_site (a := d.agent) (b := (recorded prompt response d).agent.retire)
      d.world.site rfl

/-- **A scratch file that its owner lets go of is gone,** unless it cannot be removed. -/
theorem releaseScratch_owned {a : Agent} {site : Site} {path : Path}
    (own : a.scratch = some ⟨path, true⟩)
    (removable : ∀ error, site.files.removeFile path = .error error → error = .notFound) :
    (releaseScratch a site).2.files.exists? path = false ∧
      (releaseScratch a site).2.isScratch path = false := by
  unfold releaseScratch
  rw [own]
  simp only
  cases hr : site.files.removeFile path with
  | ok files =>
    exact ⟨FileSystem.exists?_of_removeFile hr, by simp [Site.isScratch, Site.forget]⟩
  | error error =>
    obtain rfl := removable error hr
    exact ⟨FileSystem.exists?_of_removeFile_notFound hr, by simp [Site.isScratch, Site.forget]⟩

/-- A scratch file that somebody else owns stays as it is. -/
theorem releaseScratch_shared {a : Agent} (site : Site)
    (other : ∀ path, a.scratch ≠ some ⟨path, true⟩) : (releaseScratch a site).2 = site := by
  unfold releaseScratch
  split
  · next path hs => exact absurd hs (other path)
  · rfl

end Turn

end Arbor
