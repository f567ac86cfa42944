import Arbor.Proofs.Census
import Arbor.Proofs.Engine.Lifecycle

/-! # Who owns a scratch file

A coder owns the scratch file that its helpers share, and any other helper owns its own. A scratch file
is taken when a turn starts helpers, and from then on its place only moves: from an order to the helper
that is started, until its owner lets go of it. So two agents own one file only where a turn takes a
file that is owned already.

* `Slot.stakes`, `Engine.stakes`: the scratch files that are owned, each as often as it is.
* `Slot.takes`, `Engine.Encroaches`: what a turn takes, and that it takes what is owned already.
* `Orderly.stakes_step`: a move adds to the stakes only what it takes.
* `sole_owners_iff`: scratch files have one owner exactly if no move encroaches.
* `Project.coderScratch_namesake`: how a coder comes to take the file of another. -/

namespace Arbor

open Turn

variable {e e' : Engine} {m : Move} {s s' t mid : Slot} {deed : Deed} {errand : Errand} {n : Nat}

/-! ### Stakes -/

/-- The scratch file that somebody owns by the record, as scratch files in use are kept. -/
def Scratch.stake? (scratch : Scratch) : Option Path :=
  if scratch.owned then some scratch.path.normalize else none

/-- The scratch file that the agent owns. -/
def Agent.stake? (a : Agent) : Option Path := a.scratch.bind Scratch.stake?

theorem Agent.stake?_of_owned {a : Agent} {path : Path} (own : a.scratch = some ⟨path, true⟩) :
    a.stake? = some path.normalize := by
  rw [stake?, own]
  rfl

theorem Agent.stake?_of_bare {a : Agent} (bare : a.scratch = none) : a.stake? = none := by
  rw [stake?, bare]
  rfl

/-- The scratch file that a helper will own. -/
def Effect.stake? : Effect → Option Path
  | .spawn _ _ _ scratch => scratch.stake?
  | _ => none

namespace Slot

/-- The scratch file that the agent owns, as long as it is on the list. -/
def ownStake (s : Slot) : List Path := if s.listed then s.agent.stake?.toList else []

/-- **The scratch files that are owned by the agent,** and by helpers that it is yet to start. -/
def stakes (s : Slot) : List Path := s.ownStake ++ s.phase.pending.filterMap Effect.stake?

/-- **What the agent takes by a deed:** a turn can give it a scratch file of its own if it has none,
and gives one to each helper that it orders and that does not share it. -/
def takes (e : Engine) (s : Slot) : Deed → List Path
  | .complete prompt response =>
    let done := complete e.project prompt response ⟨{ s.agent with failures := 0 }, e.world⟩
    (if s.agent.stake? = none then ownStake { s with agent := done.2.agent } else []) ++
      done.1.filterMap Effect.stake?
  | _ => []

end Slot

namespace Engine

/-- **The scratch files that are owned,** each as often as it is. -/
def stakes (e : Engine) : List Path := e.slots.flatMap Slot.stakes

/-- **Every scratch file has one owner:** a live agent, or a helper that is yet to be started. -/
def SoleOwners (e : Engine) : Prop := e.stakes.Nodup

/-- What a move takes. -/
def taken (e : Engine) (m : Move) : List Path :=
  e.slots.flatMap fun s => s.takes e (e.deed m s.id)

/-- **A move encroaches:** it takes a scratch file that is owned already, or one of them twice. -/
def Encroaches (e : Engine) (m : Move) : Prop :=
  ¬ (e.taken m).Nodup ∨ ∃ path ∈ e.taken m, path ∈ e.stakes

instance (e : Engine) : Decidable e.SoleOwners := inferInstanceAs (Decidable (List.Nodup _))

instance (e : Engine) (m : Move) : Decidable (e.Encroaches m) :=
  inferInstanceAs (Decidable (_ ∨ _))

/-- Two live agents own different scratch files, where each has one owner. -/
theorem SoleOwners.apart (h : e.SoleOwners) (hs : s ∈ e.slots) (ht : t ∈ e.slots) (ne : s ≠ t)
    {path : Path} (own : path ∈ s.stakes) : path ∉ t.stakes :=
  fun own' => ne (eq_of_nodup_flatMap h hs ht own own')

/-- What encroaches leaves a scratch file with two owners. -/
theorem nodup_stakes_taken_iff (h : e.SoleOwners) :
    (e.stakes ++ e.taken m).Nodup ↔ ¬ e.Encroaches m := by
  rw [List.nodup_append, Encroaches, not_or, not_not]
  constructor
  · rintro ⟨-, htaken, happart⟩
    refine ⟨htaken, ?_⟩
    rintro ⟨path, htake, howned⟩
    exact happart path howned path htake rfl
  · rintro ⟨htaken, happart⟩
    refine ⟨h, htaken, ?_⟩
    rintro path howned other htake rfl
    exact happart ⟨path, htake, howned⟩

end Engine

/-! ### What an agent's step makes of its stakes -/

theorem Agent.KeepsScratch.stake {a a' : Agent} (h : a.KeepsScratch a') {path : Path}
    (own : a.stake? = some path) : a'.stake? = some path := by
  rcases h with h | ⟨-, path', h, hpath⟩
  · rw [Agent.stake?, h]
    exact own
  · obtain ⟨scratch, hscratch, hstake⟩ := Option.bind_eq_some_iff.mp own
    unfold Scratch.stake? at hstake
    split at hstake
    · rw [Agent.stake?_of_owned h, ← hpath scratch hscratch]
      exact hstake
    · cases hstake

/-- A turn keeps the scratch file of its agent, or ends the task and does nothing else. -/
theorem turn_keeps_or_ends {prompt response : String} {done : List Effect × Desk}
    (complete : Turn.complete e.project prompt response
      ⟨{ s.agent with failures := 0 }, e.world⟩ = done) :
    s.agent.KeepsScratch done.2.agent ∨
      (done.2.agent.scratch = none ∧ ∃ ending, done.1 = [.finish ending]) := by
  rw [← complete]
  exact (complete_scratch e.project prompt response ⟨{ s.agent with failures := 0 }, e.world⟩).1

/-- A turn that does not end the task adds to the stakes just what it takes. -/
theorem stakes_completed {call : Call} {prompt response : String} {deadline : Option Nat}
    {done : List Effect × Desk} (phase : s.phase = .calling call prompt deadline)
    (complete : Turn.complete e.project prompt response
      ⟨{ s.agent with failures := 0 }, e.world⟩ = done)
    (keeps : s.agent.KeepsScratch done.2.agent) :
    ({ s with agent := done.2.agent, phase := .applying done.1 false } : Slot).stakes =
      s.stakes ++ s.takes e (.complete prompt response) := by
  simp only [Slot.stakes, Slot.takes, complete, phase, Phase.pending_calling, List.filterMap_nil,
    List.append_nil, Phase.pending_applying, ← List.append_assoc]
  congr 1
  unfold Slot.ownStake
  cases hown : s.agent.stake? with
  | none => simp
  | some path => simp [keeps.stake hown]

/-- What an agent lets go of, or passes on, is no stake of it any more. -/
theorem Slot.stakes_sublist (listed : s'.listed = true → s.listed = true)
    (scratch : s'.agent.scratch = s.agent.scratch ∨ s'.agent.scratch = none)
    (pending : (s'.phase.pending.filterMap Effect.stake?).Sublist
      (s.phase.pending.filterMap Effect.stake?)) : s'.stakes.Sublist s.stakes := by
  refine List.Sublist.append ?_ pending
  unfold Slot.ownStake
  split
  · next hlisted =>
    rw [if_pos (listed hlisted), Agent.stake?, Agent.stake?]
    rcases scratch with h | h <;> simp [h]
  · exact List.nil_sublist _

/-- Whoever gives up keeps its scratch file or lets go of it, and has nothing to start. -/
theorem GivesUp.stakes {a a' : Agent} {phase : Phase} (h : GivesUp a a' phase)
    (scratch : a.scratch = s.agent.scratch) :
    ({ s with agent := a', phase := phase } : Slot).stakes.Sublist s.stakes := by
  cases h with
  | stuck busy => exact Slot.stakes_sublist id (Or.inl scratch) (List.nil_sublist _)
  | ended idle payload => exact Slot.stakes_sublist id (Or.inr rfl) (List.nil_sublist _)

theorem Slot.stakes_newborn (a : Agent) (systemRole : Bool) (inbox : List Envelope) :
    (newborn a systemRole inbox).stakes = a.stake?.toList :=
  List.append_nil _

/-- **A step adds to the stakes of an agent and of whom it adds only what it takes.** -/
theorem Acts.stakes (h : Acts e s deed mid errand n) (path : Path) :
    mid.stakes.count path + (errand.added.flatMap Slot.stakes).count path ≤
      s.stakes.count path + (s.takes e deed).count path := by
  have quiet : errand.added.flatMap Slot.stakes = [] → mid.stakes.Sublist s.stakes →
      mid.stakes.count path + (errand.added.flatMap Slot.stakes).count path ≤
        s.stakes.count path + (s.takes e deed).count path := by
    intro hadded hsub
    rw [hadded, List.count_nil]
    exact Nat.le_add_right_of_le (hsub.count_le path)
  have struck : ∀ {first : Effect} {rest : List Effect}, s.phase.pending = first :: rest →
      (rest.filterMap Effect.stake?).Sublist (s.phase.pending.filterMap Effect.stake?) := by
    intro first rest hpending
    rw [hpending]
    exact (List.sublist_cons_self first rest).filterMap _
  cases h with
  | passed passes =>
    refine quiet rfl (Slot.stakes_sublist id (Or.inl rfl) ?_)
    rw [passes.pending]
  | heard phase inbox =>
    exact quiet rfl (Slot.stakes_sublist id (Or.inl (s.agent.receive_frame _ _).2)
      (List.Sublist.refl _))
  | began phase begun =>
    obtain ⟨-, -, rfl⟩ := begin_eq_some begun
    exact quiet rfl (Slot.stakes_sublist id (Or.inl rfl) (List.nil_sublist _))
  | completed phase complete =>
    rcases turn_keeps_or_ends complete with hkeeps | ⟨hnone, ending, heffects⟩
    · rw [stakes_completed phase complete hkeeps, List.count_append]
      exact Nat.le_refl _
    · refine quiet rfl (Slot.stakes_sublist id (Or.inr hnone) ?_)
      rw [Phase.pending_applying, heffects]
      exact List.nil_sublist _
  | retried turn few =>
    exact quiet rfl (Slot.stakes_sublist id (Or.inl rfl) (List.nil_sublist _))
  | despaired turn many gives => exact quiet rfl (gives.stakes rfl)
  | revived phase text now =>
    exact quiet rfl (Slot.stakes_sublist id (Or.inl rfl) (List.nil_sublist _))
  | abandoned phase gives => exact quiet rfl (gives.stakes rfl)
  | @started helper kind prompt name scratch rest retiring phase =>
    -- the stake of the order goes to the helper
    have hpending : s.phase.pending.filterMap Effect.stake? =
        scratch.stake?.toList ++ rest.filterMap Effect.stake? := by
      rw [phase]
      exact filterMap_cons_toList Effect.stake? _ rest
    have hstakes : s.stakes = s.ownStake ++ (scratch.stake?.toList ++ rest.filterMap Effect.stake?) :=
      congrArg (s.ownStake ++ ·) hpending
    have hrest : Slot.stakes { s with phase := .applying rest retiring } =
      s.ownStake ++ rest.filterMap Effect.stake? := rfl
    rw [hstakes, hrest, Errand.added, List.flatMap_singleton, Slot.stakes_newborn]
    simp only [List.count_append]
    change _ + scratch.stake?.toList.count path ≤ _
    omega
  | @reported ending rest retiring phase =>
    have hsub : (s.concluded rest retiring).stakes.Sublist s.stakes :=
      Slot.stakes_sublist (fun h => (Bool.and_eq_true_iff.mp h).1) (Or.inl rfl)
        (struck (Slot.pending_of_ending phase))
    refine quiet ?_ hsub
    rcases Report.errand_cases (e.swap (s.concluded rest retiring)) (ending.report? s) with
      h | ⟨r, id, -, -, h⟩ | ⟨r, h⟩ <;> rw [h] <;> rfl
  | missed phase gone =>
    exact quiet rfl (Slot.stakes_sublist id (Or.inl rfl) (struck (by rw [phase]; rfl)))
  | handed phase accepts =>
    exact quiet rfl (Slot.stakes_sublist id (Or.inl rfl) (struck (by rw [phase]; rfl)))
  | adopted phase =>
    exact quiet rfl (Slot.stakes_sublist id (Or.inl rfl) (struck (by rw [phase]; rfl)))
  | released phase subtree =>
    exact quiet rfl (Slot.stakes_sublist id (Or.inl rfl) (struck (by rw [phase]; rfl)))

/-! ### What a move makes of the stakes -/

theorem Errand.touch_stakes (errand : Errand) (t : Slot) :
    (errand.touch t).stakes.Sublist t.stakes := by
  unfold Errand.touch
  split
  · split <;> exact List.Sublist.refl _
  · split
    · exact Slot.stakes_sublist (fun h => by cases h) (Or.inl rfl) (List.Sublist.refl _)
    · exact List.Sublist.refl _
  · exact List.Sublist.refl _

theorem Engine.taken_of_idle (idle : ∀ id, e.deed m id = .other) : e.taken m = [] := by
  refine List.flatMap_eq_nil_iff.mpr fun t _ => ?_
  rw [idle]
  rfl

/-- Only the actor of a move takes anything. -/
theorem Engine.taken_of_actor (distinct : e.ids.Nodup) (hs : s ∈ e.slots)
    (actor : m.actor? = some s.id) : e.taken m = s.takes e (e.deed m s.id) := by
  obtain ⟨before, behind, hsplit, -, hother⟩ := swap_split distinct hs (rfl : s.id = s.id)
  have hnone : ∀ {l : List Slot}, (∀ t ∈ l, t.id ≠ s.id) →
      l.flatMap (fun t => t.takes e (e.deed m t.id)) = [] := by
    intro l hl
    refine List.flatMap_eq_nil_iff.mpr fun t ht => ?_
    rw [Engine.deed_eq_other fun h => hl t ht (Option.some.inj (h.symm.trans actor))]
    rfl
  rw [Engine.taken, hsplit, List.flatMap_append, List.flatMap_cons,
    hnone fun t ht => hother t (Or.inl ht), hnone fun t ht => hother t (Or.inr ht),
    List.nil_append, List.append_nil]

/-- What is owned behind the step of an agent. -/
theorem Acted.stakes (distinct : e.ids.Nodup) (hs : s ∈ e.slots) (actor : m.actor? = some s.id)
    (h : Acted e s (e.deed m s.id) e') (path : Path) :
    e'.stakes.count path ≤ e.stakes.count path + (e.taken m).count path := by
  obtain @⟨mid, errand, acts, slots, -, -, -, -, -⟩ := h
  have htouched : (((e.swap mid).slots.map errand.touch).flatMap Slot.stakes).count path ≤
      ((e.swap mid).slots.flatMap Slot.stakes).count path := by
    rw [List.flatMap_map]
    exact (List.Sublist.flatMap_right _ fun t _ => errand.touch_stakes t).count_le path
  have hswap := count_swap (k := path) Slot.stakes distinct hs acts.id_eq
  have hown := acts.stakes path
  rw [Engine.taken_of_actor distinct hs actor, Engine.stakes, slots, Errand.run_slots,
    List.flatMap_append, List.count_append, Engine.stakes]
  omega

/-- **A move adds to what is owned only what it takes.** -/
theorem Orderly.stakes_step (o : Orderly e) (m : Move) (path : Path) :
    (e.step m).stakes.count path ≤ e.stakes.count path + (e.taken m).count path := by
  have same : ∀ {e' : Engine}, e'.stakes = e.stakes →
      e'.stakes.count path ≤ e.stakes.count path + (e.taken m).count path := fun h =>
    h ▸ Nat.le_add_right _ _
  have change := step_change o.distinct m
  generalize e.step m = e' at change
  cases change with
  | still slots idle number closed => exact same (by rw [Engine.stakes, slots]; rfl)
  | posted outside slots number closed source =>
    refine same ?_
    rw [Engine.stakes, slots]
    refine flatMap_map_eq Slot.stakes e.slots fun t => ?_
    split <;> rfl
  | crowned outside present number closed slots named =>
    refine same ?_
    rw [Engine.stakes, slots, List.flatMap_append, flatMap_crowned e Slot.stakes _ fun _ => rfl]
    exact List.append_nil _
  | acted mem actor acted => exact acted.stakes o.distinct mem actor path

/-- **What a move takes is owned behind it,** on top of what was owned. -/
theorem Orderly.stakes_taken (o : Orderly e) {m : Move} (takes : e.taken m ≠ []) (path : Path) :
    (e.step m).stakes.count path = e.stakes.count path + (e.taken m).count path := by
  have change := step_change o.distinct m
  generalize e.step m = e' at change ⊢
  have idle : m.actor? = none → False := fun h =>
    takes (Engine.taken_of_idle fun id => Engine.deed_eq_other (by rw [h]; simp))
  cases change with
  | still slots idle number closed => exact absurd (Engine.taken_of_idle idle) takes
  | posted outside => exact (idle outside).elim
  | crowned outside => exact (idle outside).elim
  | @acted s mem actor acted =>
    obtain @⟨mid, errand, acts, slots, -, -, -, -, -⟩ := acted
    have hswap := count_swap (k := path) Slot.stakes o.distinct mem acts.id_eq
    rw [Engine.taken_of_actor o.distinct mem actor] at takes ⊢
    generalize e.deed m s.id = deed at acts takes ⊢
    generalize e'.world.nextNumber = n at acts
    cases acts with
    | @completed call prompt response deadline done phase complete =>
      rcases turn_keeps_or_ends complete with hkeeps | ⟨hnone, ending, heffects⟩
      · have hslots : e'.stakes = (e.swap _).slots.flatMap Slot.stakes :=
          congrArg (List.flatMap Slot.stakes) slots
        rw [stakes_completed phase complete hkeeps, List.count_append] at hswap
        rw [hslots, Engine.stakes]
        omega
      · refine absurd ?_ takes
        simp [Slot.takes, complete, heffects, Slot.ownStake, Agent.stake?, hnone, Effect.stake?]
    | _ => exact absurd rfl takes

/-! ### Runs -/

namespace Engine

/-- A move that does not encroach leaves every scratch file with one owner. -/
theorem SoleOwners.step (o : Orderly e) (h : e.SoleOwners) (free : ¬ e.Encroaches m) :
    (e.step m).SoleOwners := by
  have hnodup := List.nodup_iff_count_le_one.mp ((nodup_stakes_taken_iff h).mpr free)
  refine List.nodup_iff_count_le_one.mpr fun path => (o.stakes_step m path).trans ?_
  rw [← List.count_append]
  exact hnodup path

/-- A move that encroaches does not. -/
theorem Encroaches.step (o : Orderly e) (h : e.SoleOwners) (encroaches : e.Encroaches m) :
    ¬ (e.step m).SoleOwners := by
  intro h'
  refine (nodup_stakes_taken_iff h).mp ?_ encroaches
  have htakes : e.taken m ≠ [] := by
    rcases encroaches with htwice | ⟨path, hpath, -⟩
    · exact fun hnil => htwice (hnil ▸ List.nodup_nil)
    · exact List.ne_nil_of_mem hpath
  refine List.nodup_iff_count_le_one.mpr fun path => ?_
  rw [List.count_append, ← o.stakes_taken htakes path]
  exact List.nodup_iff_count_le_one.mp h' path

end Engine

/-- Nobody owns anything at the start. -/
theorem Launched.soleOwners (launched : Launched e) : e.SoleOwners := by
  have hnone : e.stakes = [] := by
    refine List.flatMap_eq_nil_iff.mpr fun s hs => ?_
    have hscratch : s.agent.scratch = none := by
      cases launched with
      | intro build number =>
        obtain ⟨a, ha, rfl⟩ := List.mem_map.mp hs
        exact Roster.scratchless_of_build build a ha
    simp [Slot.stakes, Slot.ownStake, Agent.stake?, hscratch, (launched.newborn hs).phase]
  rw [Engine.SoleOwners, hnone]
  exact List.nodup_nil

/-- Along a run in which no move encroaches every scratch file has one owner. -/
theorem Launched.soleOwners_follow (launched : Launched e) {moves : List Move}
    (free : ∀ ran m, ran ++ [m] <+: moves → ¬ (e.follow ran).Encroaches m) :
    (e.follow moves).SoleOwners := by
  induction moves using List.reverseRecOn with
  | nil => exact launched.soleOwners
  | append_singleton ran m ih =>
    rw [Engine.follow_concat]
    refine (ih fun ran' m' hp => free ran' m' (hp.trans (List.prefix_append _ _))).step
      (launched.orderly.follow ran) (free ran m List.prefix_rfl)

/-! ### What a coder takes -/

/-- **A coder takes the scratch file that is named after its file, or nothing.** Whether somebody else
has taken it does not matter. -/
theorem Orderly.taken_of_coder (o : Orderly e) (hs : s ∈ e.slots) (coder : s.agent.kind = .coder)
    (bare : s.agent.scratch = none) {prompt response : String}
    (deed : e.deed m s.id = .complete prompt response) :
    e.taken m = [] ∨ ∃ file, s.agent.scope.file? = some file ∧
      e.taken m = [(e.project.coderScratch e.world.site file).normalize] := by
  have actor : m.actor? = some s.id := by
    by_contra h
    rw [Engine.deed_eq_other h] at deed
    cases deed
  rw [Engine.taken_of_actor o.distinct hs actor, deed]
  simp only [Slot.takes, Agent.stake?_of_bare bare, if_true]
  have hkind := congrArg Nature.kind (complete_nature e.project prompt response
    ⟨{ s.agent with failures := 0 }, e.world⟩)
  have hscratch := (complete_scratch e.project prompt response
    ⟨{ s.agent with failures := 0 }, e.world⟩).2
  have hnames := complete_names e.project prompt response
    ⟨{ s.agent with failures := 0 }, e.world⟩ coder bare
  generalize complete e.project prompt response ⟨{ s.agent with failures := 0 }, e.world⟩ = done at *
  -- the helpers of a coder own nothing
  have heffects : done.1.filterMap Effect.stake? = [] := by
    refine List.filterMap_eq_nil_iff.mpr fun effect he => ?_
    have hsuits := hscratch effect he
    have hcoder : done.2.agent.kind = .coder := hkind.trans coder
    cases effect with
    | spawn id kind text scratch =>
      rw [Effect.Suits, Scratch.Suits, if_pos hcoder] at hsuits
      simp [Effect.stake?, Scratch.stake?, hsuits.1]
    | _ => rfl
  rw [heffects, List.append_nil, Slot.ownStake]
  split
  · rcases hnames with h | ⟨file, hfile, h⟩
    · exact Or.inl (by rw [Agent.stake?_of_bare h, Option.toList_none])
    · exact Or.inr ⟨file, hfile, by rw [Agent.stake?_of_owned h, Option.toList_some]⟩
  · exact Or.inl rfl

/-- **So a coder encroaches on its namesake:** on one whose scratch file is named alike, if it takes
anything while that owns the file. -/
theorem Orderly.encroaches_of_namesake (o : Orderly e) (hs : s ∈ e.slots) (ht : t ∈ e.slots)
    (coder : s.agent.kind = .coder) (bare : s.agent.scratch = none) {prompt response : String}
    (deed : e.deed m s.id = .complete prompt response) (takes : e.taken m ≠ []) {file other : Path}
    (scope : s.agent.scope = .file file)
    (alike : e.project.coderScratch e.world.site other = e.project.coderScratch e.world.site file)
    (listed : t.listed = true)
    (own : t.agent.scratch = some ⟨e.project.coderScratch e.world.site other, true⟩) :
    e.Encroaches m := by
  obtain ⟨file', hfile, htaken⟩ := (o.taken_of_coder hs coder bare deed).resolve_left takes
  obtain rfl : file = file' := by
    rw [scope] at hfile
    exact Option.some.inj hfile
  refine Or.inr ⟨_, htaken ▸ List.mem_singleton.mpr rfl, List.mem_flatMap.mpr ⟨t, ht, ?_⟩⟩
  refine List.mem_append_left _ ?_
  rw [Slot.ownStake, if_pos listed, Agent.stake?_of_owned own, alike, Option.toList_some]
  exact List.mem_singleton.mpr rfl

/-! ### Letting go -/

/-- **Letting go of a scratch file spares another:** that stays in use, and on the disk if no link leads
to the file that is let go. -/
def Slot.Spares (s : Slot) (site site' : Site) (path : Path) : Prop :=
  (path ∈ site.scratch → path ∈ site'.scratch) ∧
  ∀ own loc : Location, s.agent.scratch = some ⟨FileSystem.pathOf own, true⟩ → own.Named →
    site.files.Clear own → site.files.IsTree → loc.Named → path = FileSystem.pathOf loc →
    site'.files.find? loc = site.files.find? loc

theorem Turn.releaseScratch_spares {site : Site} {path : Path} (other : s.agent.stake? ≠ some path) :
    s.Spares site (releaseScratch s.agent site).2 path := by
  have stake : ∀ {own}, s.agent.scratch = some ⟨own, true⟩ → path ≠ own.normalize := by
    rintro own hown rfl
    exact other (Agent.stake?_of_owned hown)
  have keeps : ∀ {own} {site' : Site}, s.agent.scratch = some ⟨own, true⟩ →
      path ∈ site'.scratch → path ∈ (site'.forget own).scratch := by
    intro own site' hown hpath
    exact List.mem_filter.mpr ⟨hpath, by simpa using stake hown⟩
  unfold releaseScratch
  split
  · next own hown =>
    split
    · next files hremove =>
      refine ⟨keeps hown, fun l loc hl hnamed hclear htree hloc hpath => ?_⟩
      obtain rfl : own = FileSystem.pathOf l := by
        rw [hown] at hl
        exact congrArg Scratch.path (Option.some.inj hl)
      refine (FileSystem.edit_removeFile htree hnamed hclear hremove).same loc ?_
      rintro rfl
      exact stake hown (hpath.trans (Path.normalize_pathOf hnamed).symm)
    · exact ⟨keeps hown, fun _ _ _ _ _ _ _ _ => rfl⟩
    · exact ⟨id, fun _ _ _ _ _ _ _ _ => rfl⟩
  · exact ⟨id, fun _ _ _ _ _ _ _ _ => rfl⟩

/-- **Who ends a task spares the scratch files of the others,** where each has one owner. -/
theorem Engine.SoleOwners.spares (o : Orderly e) (h : e.SoleOwners) (hs : s ∈ e.slots)
    (listed : s.listed = true) (lasting : s.agent.kind ≠ .master) (hs' : s' ∈ (e.step m).slots)
    (id : s'.id = s.id) (ends : s.Ends s') (ht : t ∈ e.slots) (ne : t ≠ s) {path : Path}
    (own : path ∈ t.stakes) : s.Spares e.world.site (e.step m).world.site path := by
  rw [(o.ends_site hs hs' id ends lasting).2]
  refine releaseScratch_spares fun hstake => h.apart ht hs ne own ?_
  refine List.mem_append_left _ ?_
  rw [Slot.ownStake, if_pos listed, hstake]
  exact List.mem_singleton.mpr rfl

/-- **Scratch files have one owner in all states of a run exactly if no move of it encroaches.** Where
they have, no two live agents own one file, and whoever ends a task spares the files that others own. -/
theorem sole_owners_iff (launched : Launched e) (moves : List Move) :
    ((∀ ran, ran <+: moves → (e.follow ran).SoleOwners) ↔
      ∀ ran m, ran ++ [m] <+: moves → ¬ (e.follow ran).Encroaches m) ∧
    ∀ ran, ran <+: moves → (e.follow ran).SoleOwners →
      (∀ s ∈ (e.follow ran).slots, ∀ t ∈ (e.follow ran).slots, s ≠ t → s.listed = true →
        t.listed = true → ∀ path, s.agent.stake? = some path → t.agent.stake? ≠ some path) ∧
      ∀ s ∈ (e.follow ran).slots, s.listed = true → s.agent.kind ≠ .master →
        ∀ m, ∀ s' ∈ ((e.follow ran).step m).slots, s'.id = s.id → s.Ends s' →
          ∀ t ∈ (e.follow ran).slots, t ≠ s → ∀ path ∈ t.stakes,
            s.Spares (e.follow ran).world.site ((e.follow ran).step m).world.site path := by
  have o := launched.orderly
  refine ⟨⟨fun sole ran m hran encroaches => ?_, fun free ran hran => ?_⟩,
    fun ran hran sole => ⟨fun s hs t ht ne listed listed' path hown hown' => ?_, ?_⟩⟩
  · refine encroaches.step (o.follow ran) (sole ran ((List.prefix_append _ _).trans hran)) ?_
    rw [← Engine.follow_concat]
    exact sole _ hran
  · exact launched.soleOwners_follow fun ran' m hp => free ran' m (hp.trans hran)
  · have howned : path ∈ s.stakes := List.mem_append_left _ (by simp [Slot.ownStake, listed, hown])
    refine sole.apart hs ht ne howned (List.mem_append_left _ ?_)
    simp [Slot.ownStake, listed', hown']
  · intro s hs listed lasting m s' hs' id ends t ht ne path own
    exact sole.spares (o.follow ran) hs listed lasting hs' id ends ht ne own

/-! ### Two coders and one scratch file -/

open FileSystem

/-- A project with a file and its namesake with the extension of scratch files. -/
def loft : FileSystem :=
  ⟨[(["p"], .folder), (["p", "a"], .file "".toUTF8), (["p", "a.py"], .file "".toUTF8),
    (["p", "p_README.md"], .file "".toUTF8)]⟩

/-- Its manager and its coders. -/
def loftRoster : Roster where
  agents :=
    [{ Agent.fresh ⟨0⟩ .manager "." (.folder ⟨"/p"⟩) none 0 with
        children := [("a", ⟨⟨1⟩, .coder⟩), ("a.py", ⟨⟨2⟩, .coder⟩)] },
      Agent.fresh ⟨1⟩ .coder "a" (.file ⟨"/p/a"⟩) (some ⟨0⟩) 0,
      Agent.fresh ⟨2⟩ .coder "a.py" (.file ⟨"/p/a.py"⟩) (some ⟨0⟩) 0]
  root := ⟨0⟩

/-- The engine of the project. -/
def loftStart : Engine :=
  .launch shedProject { absent := [] } (.start loft [] [] 3) loftRoster true

theorem loft_build :
    Roster.build shedProject ⟨loft, []⟩ 0 0 = .ok (loftRoster, ⟨loft, []⟩, 3) := by
  have hwalk : loft.walk .followed shedProject.root = .ok ["p"] := by decide +kernel
  have hchildren : loft.children ["p"] =
      [("a", .file "".toUTF8), ("a.py", .file "".toUTF8), ("p_README.md", .file "".toUTF8)] :=
    children_of_pairwise rfl (by decide +kernel)
  have hwalkNotes : loft.walk .followed (Project.docPath shedProject.root) =
      .ok ["p", "p_README.md"] := by
    decide +kernel
  have hnotes := exists?_of_walk hwalkNotes (by decide +kernel)
  refine Eq.trans (Roster.build_eq (Roster.prepare_of_notes hnotes) hwalk) ?_
  rw [hchildren]
  rfl

/-- Both coders are given a task and start a tester. -/
def loftRun : List Move :=
  [Move.enterRun ⟨1⟩ "one", .admitRun 0, .registerRun 0, .dispatchRun 0] ++
    List.replicate 4 (Move.advance ⟨1⟩) ++
    [Move.enterRun ⟨2⟩ "two", .admitRun 1, .registerRun 1, .dispatchRun 1] ++
    List.replicate 4 (Move.advance ⟨2⟩) ++
    [Move.answer ⟨1⟩ (.ok "SPAWN TESTER PROMPT=\"t\""),
      .answer ⟨2⟩ (.ok "SPAWN TESTER PROMPT=\"t\"")]

/-- The testers begin their work, that of the first coder reports, and the first coder ends its
task. -/
def loftLoss : List Move :=
  loftRun ++ [Move.advance ⟨1⟩, .advance ⟨2⟩] ++ List.replicate 4 (Move.advance ⟨5⟩) ++
    List.replicate 4 (Move.advance ⟨6⟩) ++
    [Move.answer ⟨5⟩ (.ok "FINISH PROMPT=\"ok\""), .advance ⟨5⟩] ++
    List.replicate 4 (Move.advance ⟨1⟩) ++ [Move.answer ⟨1⟩ (.ok "FINISH PROMPT=\"done\"")]

/-- Somebody encroaches along the run. -/
theorem sole_owners_iff_loft : Launched loftStart ∧
    ∃ ran m, ran ++ [m] <+: loftRun ∧ (loftStart.follow ran).Encroaches m := by
  have launched : Launched loftStart := .intro loft_build rfl
  refine ⟨launched, ?_⟩
  by_contra free
  have sole := (sole_owners_iff launched loftRun).1.mpr fun ran m hran encroaches =>
    free ⟨ran, m, hran, encroaches⟩
  exact absurd (sole loftRun List.prefix_rfl) (by decide +kernel)

/-- **Two live coders own one scratch file.** When the first ends its task the file is gone, while the
tester of the second works in it. -/
theorem loft_scratch_lost :
    ((loftStart.follow loftRun).slots.filter fun s => s.listed &&
      decide (s.agent.scratch = some ⟨⟨"/p/a_scratch.py"⟩, true⟩)).map Slot.id = [⟨1⟩, ⟨2⟩] ∧
    (∃ t ∈ (loftStart.follow loftLoss).slots, t.listed = true ∧ t.agent.parent = some ⟨2⟩ ∧
      t.agent.task ≠ none ∧ t.agent.scratch = some ⟨⟨"/p/a_scratch.py"⟩, false⟩) ∧
    (loftStart.follow loftLoss).world.site.files.exists? ⟨"/p/a_scratch.py"⟩ = false ∧
    (loftStart.follow loftLoss).world.site.scratch = [] := by
  decide +kernel

end Arbor
