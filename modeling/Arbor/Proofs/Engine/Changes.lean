import Arbor.Proofs.Engine.Deeds

/-! # Every move is a change

The functions of the engine are gone through one by one: turns, what an effect asks of others, the
watchdog, the steps of an agent, the answer to a call, and what comes from outside.

* `acted_stepSlot?`, `answer_cases`, `step_of_actor`: the steps of an agent.
* `step_change`: any move, where identities are distinct.
* `step_frame`: what no move changes. -/

namespace Arbor

open Turn

variable {e e' : Engine} {m : Move} {s : Slot}

/-! ### Slots that change -/

namespace Engine

/-- Where identities are distinct, changing a slot puts another one in its place. -/
theorem modifySlot_eq_swap {f : Slot → Slot} (distinct : e.ids.Nodup) (hs : s ∈ e.slots)
    (id : (f s).id = s.id) : e.modifySlot s.id f = e.swap (f s) := by
  have hmap : (e.slots.map fun t => if t.id = s.id then f t else t) =
      e.slots.map fun t => if t.id = (f s).id then f s else t := by
    refine List.map_congr_left fun t ht => ?_
    rw [id]
    by_cases h : t.id = s.id
    · rw [if_pos h, if_pos h, eq_of_id_eq distinct hs ht h]
    · rw [if_neg h, if_neg h]
  rw [modifySlot, swap, hmap]

end Engine

/-- What starting a turn can give. -/
theorem begin_eq_some {project : Project} {templates : Templates} {site : Site} {a a' : Agent}
    {request : Turn.Request}
    (h : Turn.begin project templates site a = .ok (some (request, a'))) :
    a.queue ≠ [] ∧ request.prompt = joinedQueue a ∧ a' = { a with stalled := true } := by
  unfold Turn.begin at h
  split at h
  · cases h
  · next hq =>
    obtain ⟨system, -, h⟩ := bind_eq_ok.mp h
    obtain ⟨user, -, h⟩ := bind_eq_ok.mp h
    cases h
    exact ⟨by simpa using hq, rfl, rfl⟩

theorem begin_eq_none {project : Project} {templates : Templates} {site : Site} {a : Agent}
    (h : Turn.begin project templates site a = .ok none) : a.queue = [] := by
  unfold Turn.begin at h
  split at h
  · next hq => simpa using hq
  · obtain ⟨system, -, h⟩ := bind_eq_ok.mp h
    obtain ⟨user, -, h⟩ := bind_eq_ok.mp h
    cases h

theorem GivesUp.id_eq {a a' : Agent} {phase : Phase} (h : GivesUp a a' phase) : a'.id = a.id := by
  cases h <;> rfl

theorem Acts.id_eq {deed : Deed} {s' : Slot} {errand : Errand} {n : Nat}
    (h : Acts e s deed s' errand n) : s'.id = s.id := by
  cases h with
  | heard phase inbox =>
    exact (congrArg Books.id (s.agent.books_receive _ _)).trans (s.agent.books.receive_id _)
  | began phase begun =>
    obtain ⟨-, -, rfl⟩ := begin_eq_some begun
    rfl
  | @completed call prompt response deadline done phase complete =>
    exact (booked_of_completed complete).id_eq
  | despaired turn many gives => exact gives.id_eq
  | abandoned phase gives => exact gives.id_eq
  | _ => rfl

/-- A step that changes nothing but the agent's own slot. -/
theorem acted_modifySlot {f : Slot → Slot} {deed : Deed} (distinct : e.ids.Nodup)
    (hs : s ∈ e.slots) (acts : Acts e s deed (f s) .none e'.world.nextNumber)
    (slots : e'.slots = (e.modifySlot s.id f).slots) (runs : e'.runs = e.runs)
    (closed : e'.closed = e.closed) (awaited : e'.awaited = e.awaited)
    (site : s.Leaves e (f s) e'.world.site deed)
    (frame : e'.project = e.project ∧ e'.root = e.root) : Acted e s deed e' :=
  .intro acts (by rw [slots, Engine.modifySlot_eq_swap distinct hs acts.id_eq]; rfl) runs closed
    awaited site frame

theorem acted_enter {phase : Phase} (distinct : e.ids.Nodup) (hs : s ∈ e.slots)
    (passes : Passes e s phase) : Acted e s .other (e.enter s.id phase) :=
  acted_modifySlot (f := fun t => { t with phase := phase }) distinct hs (.passed passes) rfl rfl rfl
    rfl rfl ⟨rfl, rfl⟩

/-! ### Turns -/

/-- Giving up changes the agent's own slot, and lets go of its scratch file if the task ends. -/
theorem giveUp_eq (e : Engine) (s : Slot) (a : Agent) (payload : String)
    (scratch : a.scratch = s.agent.scratch) :
    ∃ a' phase, GivesUp a a' phase ∧
      e.giveUp s a payload = { e with world := { e.world with site :=
          if phase.pending = [] then e.world.site
          else (releaseScratch s.agent e.world.site).2 } }.modifySlot s.id
        fun t => { t with agent := a', phase := phase } := by
  unfold Engine.giveUp Agent.deactivate
  cases hb : a.busy? with
  | some error => exact ⟨a, .waiting, .stuck hb, rfl⟩
  | none =>
    have hbare := (releaseScratch_cases a.retire e.world.site).1
    have hsite := releaseScratch_site (b := a.retire) e.world.site scratch
    refine ⟨_, _, .ended hb payload, ?_⟩
    simp only [hbare, hsite, Phase.pending_applying, reduceCtorEq, if_false]

theorem acted_failTurn (error : String) (distinct : e.ids.Nodup) (hs : s ∈ e.slots)
    (turn : s.AtTurn) : Acted e s (.fail error) (e.failTurn s error) := by
  unfold Engine.failTurn
  simp only
  split
  · next few =>
    exact acted_modifySlot (f := fun t => { t with
        agent := s.failed.enqueue ("ERROR: " ++ error)
        phase := .delivering }) distinct hs (.retried turn few) rfl rfl rfl rfl rfl ⟨rfl, rfl⟩
  · next many =>
    obtain ⟨a, phase, gives, heq⟩ := giveUp_eq e s { s.failed with queue := [] }
      ("gave up after " ++ Nat.repr e.project.config.maxFailures ++ " failed turns: " ++ error) rfl
    have heq' := heq
    rw [Slot.failed] at heq'
    rw [heq']
    exact acted_modifySlot (f := fun t => { t with agent := a, phase := phase }) distinct hs
      (.despaired turn (Nat.le_of_not_lt many) gives) rfl rfl rfl rfl rfl ⟨rfl, rfl⟩

theorem acted_beginTurn (distinct : e.ids.Nodup) (hs : s ∈ e.slots) (phase : s.phase = .ready) :
    Acted e s (s.stride e) (e.beginTurn s) := by
  unfold Engine.beginTurn Slot.stride
  simp only [phase]
  cases hb : Turn.begin e.project e.templates e.world.site s.agent with
  | error unknown => exact acted_failTurn _ distinct hs (Or.inl phase)
  | ok begun =>
    cases begun with
    | none => exact acted_enter distinct hs (.idles phase (begin_eq_none hb))
    | some turn =>
      obtain ⟨request, a⟩ := turn
      exact acted_modifySlot (f := fun t => { t with agent := a, phase := _ }) distinct hs
        (.began phase hb) rfl rfl rfl rfl rfl ⟨rfl, rfl⟩

theorem acted_endTurn {call : Call} {prompt : String} {deadline : Option Nat} (response : String)
    (distinct : e.ids.Nodup) (hs : s ∈ e.slots) (phase : s.phase = .calling call prompt deadline) :
    Acted e s (.complete prompt response) (e.endTurn s prompt response) := by
  unfold Engine.endTurn
  simp only
  generalize hdone : complete e.project prompt response _ = done
  exact acted_modifySlot (f := fun t => { t with
      agent := done.2.agent
      phase := .applying done.1 false }) distinct hs (.completed phase hdone) rfl rfl rfl
    rfl (hdone ▸ rfl) ⟨rfl, rfl⟩

/-! ### Effects -/

/-- An agent that goes on with its effects accepts what it accepted before. -/
theorem accepts_enter {phase : Phase} (c : AgentId) (distinct : e.ids.Nodup) (hs : s ∈ e.slots)
    (going : s.phase ≠ .stopped) (still : phase ≠ .stopped) :
    (e.enter s.id phase).accepts c = e.accepts c := by
  have hfind : (e.enter s.id phase).listed? c =
      (e.listed? c).map fun t => if t.id = s.id then { t with phase := phase } else t :=
    e.listed?_modifySlot (f := fun t => { t with phase := phase }) (fun _ => rfl) (fun _ => rfl) s.id c
  unfold Engine.accepts
  rw [hfind, Option.any_map]
  cases hc : e.listed? c with
  | none => rfl
  | some t =>
    simp only [Option.any_some]
    by_cases hid : t.id = s.id
    · obtain rfl := Engine.eq_of_id_eq distinct hs (List.mem_of_find?_eq_some hc) hid
      rw [if_pos rfl, bne_iff_ne.mpr still, bne_iff_ne.mpr going]
    · rw [if_neg hid]

theorem slots_handOver_gone {child : AgentId} {task : Task} {rest : List Effect} {retiring : Bool}
    (distinct : e.ids.Nodup) (hs : s ∈ e.slots) (going : s.phase ≠ .stopped)
    (gone : e.accepts child = false) :
    ((e.enter s.id (.applying rest retiring)).handOver s.id child task).slots =
      (e.modifySlot s.id fun t => t.bereft child rest retiring).slots := by
  rw [Engine.handOver, accepts_enter child distinct hs going (by simp), gone, if_neg (by simp)]
  simp only [Engine.modifyAgent, Engine.enter, Engine.modifySlot, List.map_map]
  congr 1
  funext t
  simp only [Function.comp_apply]
  by_cases hid : t.id = s.id
  · simp only [if_pos hid]
    exact if_pos hid
  · simp only [if_neg hid]

/-- A helper leaves the list before it reports. -/
theorem concluded_eq (rest : List Effect) (retiring : Bool) (distinct : e.ids.Nodup)
    (hs : s ∈ e.slots) :
    (if s.agent.kind.isHelper then e.unlist [s.id] else e).enter s.id
      (.applying rest (retiring || s.agent.kind.isHelper)) =
      e.swap (s.concluded rest retiring) := by
  cases hk : s.agent.kind.isHelper with
  | false =>
    refine (Engine.modifySlot_eq_swap distinct hs rfl).trans ?_
    simp [Slot.concluded, hk]
  | true =>
    have hmap : ((e.unlist [s.id]).slots.map fun t => if t.id = s.id then
          { t with phase := .applying rest (retiring || true) } else t) =
        e.slots.map fun t => if t.id = s.id then s.concluded rest retiring else t := by
      rw [Engine.unlist, List.map_map]
      refine List.map_congr_left fun t ht => ?_
      by_cases h : t.id = s.id
      · obtain rfl := Engine.eq_of_id_eq distinct hs ht h
        simp [Slot.id, Slot.concluded, hk]
      · simp [h]
    rw [if_pos rfl, Engine.enter, Engine.modifySlot, hmap]
    rfl

/-- **Reporting the end of a task** is an errand of the agent that has reported. -/
theorem conclude_eq (ending : Ending) (rest : List Effect) (retiring : Bool)
    (distinct : e.ids.Nodup) (hs : s ∈ e.slots) :
    e.conclude s ending rest retiring =
      ((ending.report? s).elim .none (Report.errand (e.swap (s.concluded rest retiring)))).run
        (e.swap (s.concluded rest retiring)) := by
  unfold Engine.conclude Ending.report?
  simp only [concluded_eq rest retiring distinct hs]
  cases ending.task with
  | none => rfl
  | some task =>
    simp only [Option.map_some, Option.elim_some]
    unfold Engine.route Report.errand
    simp only
    cases ending.origin with
    | none => rfl
    | some id =>
      simp only
      split <;> rfl

/-- Errands do not depend on the world. -/
theorem Errand.run_withWorld (e : Engine) (world : World) (errand : Errand) :
    errand.run { e with world := world } = { errand.run e with world := world } := by
  cases errand with
  | answer r =>
    simp only [Errand.run, Engine.answerRun]
    split
    · rfl
    · split <;> rfl
  | _ => rfl

theorem Errand.run_frame (e : Engine) (errand : Errand) :
    (errand.run e).world = e.world ∧ (errand.run e).closed = e.closed ∧
      (errand.run e).project = e.project ∧ (errand.run e).root = e.root := by
  cases errand with
  | answer r =>
    simp only [Errand.run, Engine.answerRun]
    split
    · exact ⟨rfl, rfl, rfl, rfl⟩
    · split <;> exact ⟨rfl, rfl, rfl, rfl⟩
  | _ => exact ⟨rfl, rfl, rfl, rfl⟩

theorem acted_conclude {ending : Ending} {rest : List Effect} {retiring : Bool} (world : World)
    (distinct : e.ids.Nodup) (hs : s ∈ e.slots)
    (phase : s.phase = .applying (.finish ending :: rest) retiring ∨
      ∃ call doc, s.phase = .refreshing call doc ending rest retiring)
    (number : world.nextNumber = e.world.nextNumber)
    (site : s.Leaves e (s.concluded rest retiring) world.site (.report ending)) :
    Acted e s (.report ending) ({ e with world := world }.conclude s ending rest retiring) := by
  have heq : { e with world := world }.conclude s ending rest retiring =
      { ((ending.report? s).elim .none (Report.errand (e.swap (s.concluded rest retiring)))).run
        (e.swap (s.concluded rest retiring)) with world := world } := by
    refine (conclude_eq (e := { e with world := world }) ending rest retiring distinct hs).trans ?_
    exact Errand.run_withWorld (e.swap (s.concluded rest retiring)) world _
  rw [heq]
  have hframe := Errand.run_frame (e.swap (s.concluded rest retiring))
    ((ending.report? s).elim .none (Report.errand (e.swap (s.concluded rest retiring))))
  exact .intro (number ▸ .reported phase) rfl rfl hframe.2.1 rfl site hframe.2.2

/-- What is refreshed is what the agent keeps. -/
theorem docRequest?_doc {a : Agent} {ending : Ending} {doc : Path} {request : Model.Request}
    (h : e.docRequest? a ending = some (doc, request)) : a.docPath? e.project = some doc := by
  unfold Engine.docRequest? at h
  split at h
  · obtain ⟨found, hfound, h⟩ := Option.bind_eq_some_iff.mp h
    obtain ⟨text, -, h⟩ := Option.bind_eq_some_iff.mp h
    cases h
    exact hfound
  · cases h

/-- **What applying an effect does.** -/
theorem acted_applyEffect {effect : Effect} {rest : List Effect} {retiring : Bool}
    (distinct : e.ids.Nodup) (hs : s ∈ e.slots)
    (phase : s.phase = .applying (effect :: rest) retiring) :
    Acted e s (s.stride e) (e.applyEffect s effect rest retiring) := by
  have hgoing : s.phase ≠ .stopped := by
    rw [phase]
    simp
  have henter : e.enter s.id (.applying rest retiring) =
      e.swap { s with phase := .applying rest retiring } :=
    Engine.modifySlot_eq_swap distinct hs rfl
  unfold Engine.applyEffect Slot.stride
  cases effect with
  | delegate child task =>
    simp only [phase]
    cases hacc : e.accepts child with
    | true =>
      rw [Engine.handOver, accepts_enter child distinct hs hgoing (by simp), hacc, if_pos rfl,
        if_pos rfl, henter]
      exact .intro (.handed phase hacc) rfl rfl rfl rfl rfl ⟨rfl, rfl⟩
    | false =>
      have hslots : ((e.enter s.id (.applying rest retiring)).handOver s.id child task).slots =
          (e.modifySlot s.id fun t => t.bereft child rest retiring).slots :=
        slots_handOver_gone distinct hs hgoing hacc
      rw [if_neg (by simp)]
      rw [Engine.handOver, accepts_enter child distinct hs hgoing (by simp), hacc,
        if_neg (by simp)] at hslots ⊢
      exact acted_modifySlot (f := fun t => t.bereft child rest retiring) distinct hs
        (.missed phase hacc) hslots rfl rfl rfl rfl ⟨rfl, rfl⟩
  | spawn helper kind prompt scratch =>
    simp only [phase, henter]
    have acts := @Acts.started e s helper kind prompt (Engine.helperName e.project kind scratch)
      scratch rest retiring phase
    exact .intro acts rfl rfl rfl rfl rfl ⟨rfl, rfl⟩
  | adopt child kind path =>
    simp only [phase, henter]
    exact .intro (.adopted phase) rfl rfl rfl rfl rfl ⟨rfl, rfl⟩
  | release child =>
    simp only [phase, henter, Engine.release]
    refine .intro (.released phase ?_) rfl rfl rfl rfl rfl ⟨rfl, rfl⟩
    rw [Engine.swap, List.length_map]
  | finish ending =>
    simp only [phase]
    unfold Engine.finish
    cases hdoc : e.docRequest? s.agent ending with
    | none => exact acted_conclude e.world distinct hs (Or.inl phase) rfl (Or.inl rfl)
    | some found =>
      obtain ⟨doc, request⟩ := found
      exact acted_modifySlot (f := fun t => { t with phase := _ }) distinct hs
        (.passed (.refreshes phase (docRequest?_doc hdoc))) rfl rfl rfl rfl rfl ⟨rfl, rfl⟩

/-! ### Any move -/

theorem acted_expire? {call : Call} {prompt : String} {deadline : Option Nat}
    (distinct : e.ids.Nodup) (hs : s ∈ e.slots) (phase : s.phase = .calling call prompt deadline)
    (going : e.closed = false) (h : e.expire? s = some e') : Acted e s (s.stride e) e' := by
  unfold Engine.expire? at h
  unfold Slot.stride
  cases deadline with
  | none =>
    rw [phase] at h
    cases h
  | some deadline =>
    simp only [phase] at h
    simp only [phase, going, Bool.false_or, decide_eq_true_eq]
    split at h
    · cases h
    · next late =>
      rw [if_neg late]
      cases hlook : Watchdog.look e.project.config.watchdogInterval e.world.now s.agent with
      | wait later =>
        simp only [hlook] at h
        split at h
        · cases h
        · cases h
          exact acted_enter distinct hs (.postponed phase)
      | reset =>
        simp only [hlook] at h
        cases h
        unfold Engine.afterReset
        simp only
        split
        · next text htext =>
          exact acted_modifySlot (f := fun t => { t with agent := _, phase := .delivering })
            distinct hs (.revived phase text _) rfl rfl rfl rfl rfl ⟨rfl, rfl⟩
        · obtain ⟨a, after, gives, heq⟩ := giveUp_eq
            { e with world := (e.world.ask
              (Engine.resetQuestion e.project.config.watchdogInterval)).2 }
            s (Watchdog.reset s.agent) ("master reset after " ++
              Text.duration e.project.config.watchdogInterval ++ " without activity") rfl
          rw [heq]
          exact acted_modifySlot (f := fun t => { t with agent := a, phase := after }) distinct hs
            (.abandoned phase gives) rfl rfl rfl rfl rfl ⟨rfl, rfl⟩

/-- **What a step of an agent does.** -/
theorem acted_stepSlot? (distinct : e.ids.Nodup) (hs : s ∈ e.slots)
    (h : e.stepSlot? s = some e') : Acted e s (s.stride e) e' := by
  unfold Engine.stepSlot? at h
  cases hphase : s.phase with
  | stopped =>
    rw [hphase] at h
    cases h
  | waiting =>
    have hstride : s.stride e = .other := by rw [Slot.stride, hphase]
    simp only [hphase] at h
    rw [hstride]
    split at h
    · next hdone =>
      cases h
      exact acted_enter distinct hs (.stops hphase (by simpa using hdone))
    · split at h
      · cases h
      · next hmail =>
        cases h
        exact acted_enter distinct hs (.wakes hphase (by simpa using hmail))
  | delivering =>
    simp only [hphase] at h
    cases hinbox : s.inbox with
    | nil =>
      have hstride : s.stride e = .other := by rw [Slot.stride, hphase, hinbox]; rfl
      simp only [hinbox] at h
      cases h
      rw [hstride]
      by_cases hq : s.agent.queue = []
      · rw [hq]
        exact acted_enter distinct hs (.rests hphase hinbox hq)
      · rw [if_neg (by simpa using hq)]
        exact acted_enter distinct hs (.readies hphase hinbox hq)
    | cons envelope rest =>
      have hstride : s.stride e = .hear envelope := by rw [Slot.stride, hphase, hinbox]; rfl
      simp only [hinbox] at h
      cases h
      rw [hstride]
      exact acted_modifySlot (f := fun t => { t with
          agent := t.agent.receive envelope e.world.now
          inbox := rest }) distinct hs (.heard hphase hinbox) rfl rfl rfl rfl rfl ⟨rfl, rfl⟩
  | ready =>
    simp only [hphase] at h
    cases h
    exact acted_beginTurn distinct hs hphase
  | calling call prompt deadline =>
    simp only [hphase] at h
    split at h
    · next hclosed =>
      have hstride : s.stride e = .other := by
        rw [Slot.stride, hphase]
        cases deadline with
        | none => rfl
        | some deadline => simp [hclosed]
      cases h
      rw [hstride]
      exact acted_enter distinct hs (.cut hphase hclosed)
    · next hopen => exact acted_expire? distinct hs hphase (by simpa using hopen) h
  | applying effects retiring =>
    cases effects with
    | nil =>
      have hstride : s.stride e = .other := by rw [Slot.stride, hphase]
      simp only [hphase] at h
      cases h
      rw [hstride]
      cases retiring with
      | true => exact acted_enter distinct hs (.leaves hphase)
      | false => exact acted_enter distinct hs (.resumes hphase)
    | cons effect rest =>
      simp only [hphase] at h
      cases h
      exact acted_applyEffect distinct hs hphase
  | refreshing call doc ending rest retiring =>
    simp only [hphase] at h
    split at h
    · next hclosed =>
      have hstride : s.stride e = .report ending := by
        simp only [Slot.stride, hphase, if_pos hclosed]
      cases h
      rw [hstride]
      exact acted_conclude e.world distinct hs (Or.inr ⟨call, doc, hphase⟩) rfl (Or.inl rfl)
    · cases h

theorem writeNotes_eq (e : Engine) (doc : Path) (text : String) :
    ∃ world, world.nextNumber = e.world.nextNumber ∧
      (world.site = e.world.site ∨ ∃ files,
        e.world.site.files.writeText doc (Text.trim text) = .ok files ∧
        world.site = { e.world.site with files := files }) ∧
      e.writeNotes doc text = { e with world := world } := by
  unfold Engine.writeNotes
  split
  · next files hwrite => exact ⟨e.world.withFiles files, rfl, Or.inr ⟨files, hwrite, rfl⟩, rfl⟩
  · exact ⟨e.world, rfl, Or.inl rfl, rfl⟩

/-- **What the answer to a call does.** -/
theorem answer_cases (reply : Except Model.Error String) (distinct : e.ids.Nodup)
    (hs : s ∈ e.slots) :
    Acted e s (s.response reply) (e.answer s.id reply) ∨
      (e.answer s.id reply = e ∧ s.response reply = .other) := by
  unfold Engine.answer Slot.response
  rw [Engine.slot?_of_mem distinct hs]
  simp only
  cases hphase : s.phase with
  | calling call prompt deadline =>
    refine Or.inl ?_
    cases reply with
    | ok text => exact acted_endTurn text distinct hs hphase
    | error error =>
      simp only [Engine.outcome]
      by_cases hsign : error.isProviderSignature = true
      · rw [if_pos hsign, if_pos hsign]
        exact acted_endTurn _ distinct hs hphase
      · rw [if_neg hsign, if_neg hsign]
        exact acted_failTurn _ distinct hs (Or.inr ⟨call, prompt, deadline, hphase⟩)
  | refreshing call doc ending rest retiring =>
    refine Or.inl ?_
    cases reply with
    | ok text =>
      obtain ⟨world, hnumber, hsite, heq⟩ := writeNotes_eq e doc text
      simp only [heq]
      refine acted_conclude world distinct hs (Or.inr ⟨call, doc, hphase⟩) hnumber ?_
      rcases hsite with hsite | ⟨files, hwrite, hsite⟩
      · exact Or.inl hsite
      · exact Or.inr ⟨call, doc, rest, retiring, _, files, hphase, hwrite, hsite⟩
    | error error =>
      exact acted_conclude e.world distinct hs (Or.inr ⟨call, doc, hphase⟩) rfl (Or.inl rfl)
  | waiting => exact Or.inr ⟨rfl, rfl⟩
  | delivering => exact Or.inr ⟨rfl, rfl⟩
  | ready => exact Or.inr ⟨rfl, rfl⟩
  | applying effects retiring => exact Or.inr ⟨rfl, rfl⟩
  | stopped => exact Or.inr ⟨rfl, rfl⟩

namespace Engine

/-- Only the actor of a move does anything. -/
theorem deed_eq_other {id : AgentId} (h : m.actor? ≠ some id) : e.deed m id = .other := by
  unfold deed
  cases e.slot? id with
  | none => rfl
  | some s =>
    cases m with
    | advance actor => exact if_neg fun hid => h (congrArg some hid)
    | answer actor reply => exact if_neg fun hid => h (congrArg some hid)
    | _ => rfl

/-- A move whose actor does nothing has nobody do anything. -/
theorem deed_eq_other_of_actor {id : AgentId} (actor : m.actor? = some id)
    (h : e.deed m id = .other) (other : AgentId) : e.deed m other = .other := by
  by_cases hid : other = id
  · rw [hid, h]
  · exact deed_eq_other fun hother => hid (Option.some.inj (hother.symm.trans actor))

theorem deed_advance (distinct : e.ids.Nodup) (hs : s ∈ e.slots) :
    e.deed (.advance s.id) s.id = s.stride e := by
  simp [deed, slot?_of_mem distinct hs]

theorem deed_answer (reply : Except Model.Error String) (distinct : e.ids.Nodup)
    (hs : s ∈ e.slots) : e.deed (.answer s.id reply) s.id = s.response reply := by
  simp [deed, slot?_of_mem distinct hs]

end Engine

/-- An agent without a step of its own does nothing. -/
theorem stride_eq_other (h : e.stepSlot? s = none) : s.stride e = .other := by
  unfold Engine.stepSlot? at h
  unfold Slot.stride
  cases hphase : s.phase with
  | delivering =>
    simp only [hphase] at h
    cases hinbox : s.inbox with
    | nil => rfl
    | cons envelope rest =>
      simp only [hinbox] at h
      cases h
  | ready =>
    simp only [hphase] at h
    cases h
  | calling call prompt deadline =>
    simp only [hphase] at h
    cases deadline with
    | none => rfl
    | some deadline =>
      split at h
      · cases h
      · next hopen =>
        unfold Engine.expire? at h
        simp only [hphase] at h
        simp only [hopen, Bool.false_or, decide_eq_true_eq]
        split at h
        · next early => rw [if_pos early]
        · next late =>
          rw [if_neg late]
          cases hlook : Watchdog.look e.project.config.watchdogInterval e.world.now s.agent with
          | wait later => rfl
          | reset =>
            simp only [hlook] at h
            cases h
  | applying effects retiring =>
    cases effects with
    | nil => rfl
    | cons effect rest =>
      simp only [hphase] at h
      cases h
  | refreshing call doc ending rest retiring =>
    simp only [hphase] at h
    split at h
    · cases h
    · next hopen => exact if_neg hopen
  | waiting => rfl
  | stopped => rfl

theorem change_attachMaster {systemRole : Option Bool} (outside : m.actor? = none)
    (h : e.attachMaster systemRole = .ok e') : Change e m e' := by
  unfold Engine.attachMaster at h
  split at h
  · cases h
  · cases h
  · next root hmaster hroot =>
    cases h
    obtain ⟨hmem, hnamed, -⟩ := Engine.mem_of_listed? hroot
    have hpresent : root.agent.id ∈ e.ids := List.mem_map_of_mem hmem
    exact .crowned outside hpresent rfl rfl rfl hnamed

/-- A move of an agent has it take a step, or changes nothing. -/
theorem step_of_actor {id : AgentId} (distinct : e.ids.Nodup) (actor : m.actor? = some id) :
    (e.step m = e ∧ e.deed m id = .other) ∨
      ∃ s ∈ e.slots, s.id = id ∧ Acted e s (e.deed m s.id) (e.step m) := by
  cases m with
  | advance actor' =>
    obtain rfl := Option.some.inj actor
    unfold Engine.step Engine.advance?
    simp only
    cases hslot : e.slot? actor' with
    | none => exact Or.inl ⟨rfl, by simp [Engine.deed, hslot]⟩
    | some s =>
      obtain ⟨hs, rfl⟩ := Engine.mem_of_slot? hslot
      have hdeed := Engine.deed_advance distinct hs
      simp only [Option.bind_some]
      cases hstep : e.stepSlot? s with
      | none => exact Or.inl ⟨rfl, hdeed.trans (stride_eq_other hstep)⟩
      | some next =>
        refine Or.inr ⟨s, hs, rfl, ?_⟩
        rw [hdeed]
        exact acted_stepSlot? distinct hs hstep
  | answer actor' reply =>
    obtain rfl := Option.some.inj actor
    unfold Engine.step
    simp only
    cases hslot : e.slot? actor' with
    | none => exact Or.inl ⟨by simp [Engine.answer, hslot], by simp [Engine.deed, hslot]⟩
    | some s =>
      obtain ⟨hs, rfl⟩ := Engine.mem_of_slot? hslot
      have hdeed := Engine.deed_answer reply distinct hs
      rcases answer_cases reply distinct hs with hacted | ⟨hsame, hother⟩
      · refine Or.inr ⟨s, hs, rfl, ?_⟩
        rw [hdeed]
        exact hacted
      · exact Or.inl ⟨hsame, hdeed.trans hother⟩
  | _ => cases actor

/-- **What any move makes of all slots,** where identities are distinct. -/
theorem step_change (distinct : e.ids.Nodup) (m : Move) : Change e m (e.step m) := by
  have idle : ∀ {m : Move}, m.actor? = none → ∀ id, e.deed m id = .other := fun h id =>
    Engine.deed_eq_other (by rw [h]; simp)
  have own : ∀ {m : Move} {id : AgentId}, m.actor? = some id → Change e m (e.step m) := by
    intro m id actor
    rcases step_of_actor distinct actor with ⟨hsame, hdeed⟩ | ⟨s, hs, rfl, hacted⟩
    · rw [hsame]
      exact .still rfl (Engine.deed_eq_other_of_actor actor hdeed) (Nat.le_refl _) (Or.inr rfl)
    · exact .acted hs actor hacted
  cases m with
  | advance id => exact own rfl
  | answer id reply => exact own rfl
  | prompt id text =>
    unfold Engine.step Engine.sendPrompt
    simp only
    split
    · exact .posted rfl rfl rfl rfl (Or.inl ⟨text, rfl⟩)
    · exact .still rfl (idle rfl) (Nat.le_refl _) (Or.inr rfl)
  | enterRun id text => exact .still rfl (idle rfl) (Nat.le_refl _) (Or.inr rfl)
  | admitRun run =>
    unfold Engine.step Engine.admitRun
    simp only
    split
    · split
      · exact .still rfl (idle rfl) (Nat.le_refl _) (Or.inr rfl)
      · split <;> exact .still rfl (idle rfl) (Nat.le_refl _) (Or.inr rfl)
    · exact .still rfl (idle rfl) (Nat.le_refl _) (Or.inr rfl)
  | registerRun run =>
    unfold Engine.step Engine.registerRun
    simp only
    split
    · exact .still rfl (idle rfl) (Nat.le_succ _) (Or.inr rfl)
    · exact .still rfl (idle rfl) (Nat.le_refl _) (Or.inr rfl)
  | dispatchRun run =>
    unfold Engine.step Engine.dispatchRun
    simp only
    split
    · split
      · next task _ _ => exact .posted rfl rfl rfl rfl (Or.inr ⟨task, rfl⟩)
      · exact .still rfl (idle rfl) (Nat.le_refl _) (Or.inr rfl)
    · exact .still rfl (idle rfl) (Nat.le_refl _) (Or.inr rfl)
  | attachMaster systemRole =>
    unfold Engine.step
    simp only
    cases h : e.attachMaster systemRole with
    | error error => exact .still rfl (idle rfl) (Nat.le_refl _) (Or.inr rfl)
    | ok next => exact change_attachMaster rfl h
  | setWorld world => exact .still rfl (idle rfl) (Nat.le_refl _) (Or.inr rfl)
  | shutdown => exact .still rfl (idle rfl) (Nat.le_refl _) (Or.inl rfl)

/-- **The project and the root stay.** -/
theorem step_frame (distinct : e.ids.Nodup) (m : Move) :
    (e.step m).project = e.project ∧ (e.step m).root = e.root := by
  have own : ∀ {m : Move} {id : AgentId}, m.actor? = some id →
      (e.step m).project = e.project ∧ (e.step m).root = e.root := by
    intro m id actor
    rcases step_of_actor distinct actor with ⟨hsame, -⟩ | ⟨s, -, -, hacted⟩
    · rw [hsame]
      exact ⟨rfl, rfl⟩
    · obtain ⟨-, -, -, -, -, -, frame⟩ := hacted
      exact frame
  cases m with
  | advance id => exact own rfl
  | answer id reply => exact own rfl
  | prompt id text =>
    unfold Engine.step Engine.sendPrompt
    simp only
    split <;> exact ⟨rfl, rfl⟩
  | admitRun run =>
    unfold Engine.step Engine.admitRun
    simp only
    split
    · split
      · exact ⟨rfl, rfl⟩
      · split <;> exact ⟨rfl, rfl⟩
    · exact ⟨rfl, rfl⟩
  | registerRun run =>
    unfold Engine.step Engine.registerRun
    simp only
    split <;> exact ⟨rfl, rfl⟩
  | dispatchRun run =>
    unfold Engine.step Engine.dispatchRun
    simp only
    split
    · split <;> exact ⟨rfl, rfl⟩
    · exact ⟨rfl, rfl⟩
  | attachMaster systemRole =>
    unfold Engine.step Engine.attachMaster
    simp only
    split <;> exact ⟨rfl, rfl⟩
  | _ => exact ⟨rfl, rfl⟩

end Arbor
