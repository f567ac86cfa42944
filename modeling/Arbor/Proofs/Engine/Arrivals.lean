import Arbor.Proofs.Engine.Answers
import Arbor.Proofs.Engine.Obligations
import Arbor.Proofs.Turn.Scratch

/-! # What reaches a slot, and who is added

The step of an agent changes its own slot. Whatever else happens to a slot comes of others: they write
to it, take it off the list, or are put above it.

* `Slot.Touched`, `Orderly.touched`: what others do to a slot.
* `Enters`, `Orderly.enters`: who is added.
* `Orderly.nature`: a move leaves alone what an agent is.
* `Orderly.inbox_step`, `Orderly.listed_step`, `Orderly.report_delivered`: what becomes of an inbox and
  of a place on the list, and that a report reaches whoever is there to take it in. -/

namespace Arbor

open Turn

variable {e e' : Engine} {m : Move} {s s' t mid : Slot} {deed : Deed} {errand : Errand} {n : Nat}

/-! ### What others do to a slot -/

/-- **What others do to a slot:** they write to it, take it off the list with others, or put a master
above it. -/
inductive Slot.Touched (e : Engine) (m : Move) (e' : Engine) (s : Slot) : Slot → Prop where
  | left : Touched e m e' s s
  | sent {envelope : Envelope}
      (report : ∀ r, envelope = .report r → e.routed? m = some r ∧ r.recipient = some s.id) :
      Touched e m e' s { s with inbox := s.inbox ++ [envelope] }
  /-- It is below a child that is let go, and so are all that go with it. -/
  | unlisted {x : Slot} {child : AgentId} {rest : List Effect} {retiring : Bool}
      {ids : List AgentId} (mem : x ∈ e.slots)
      (phase : x.phase = .applying (.release child :: rest) retiring)
      (subtree : ids = (e.swap { x with phase := .applying rest retiring }).subtree
        e.slots.length child)
      (below : s.id ∈ ids) (all : ∀ t ∈ e'.slots, t.id ∈ ids → t.listed = false) :
      Touched e m e' s { s with listed := false }
  | crowned {parent : Option AgentId} (root : s.id = e.root) :
      Touched e m e' s { s with agent := { s.agent with parent := parent } }

/-- What an errand does to a slot that is there. -/
def Errand.touch (errand : Errand) (s : Slot) : Slot :=
  match errand with
  | .send recipient envelope =>
    if s.id = recipient then { s with inbox := s.inbox ++ [envelope] } else s
  | .unlist ids => if ids.contains s.id then { s with listed := false } else s
  | _ => s

/-- The slot that an errand adds. -/
def Errand.added : Errand → List Slot
  | .add newcomer => [newcomer]
  | _ => []

theorem Errand.run_slots (e : Engine) (errand : Errand) :
    (errand.run e).slots = e.slots.map errand.touch ++ errand.added := by
  cases errand with
  | none => exact ((List.append_nil _).trans (List.map_id _)).symm
  | send recipient envelope => simp [Errand.run, Errand.touch, Errand.added, Engine.send,
      Engine.modifySlot]
  | add newcomer => exact (congrArg (· ++ [newcomer]) (List.map_id e.slots)).symm
  | unlist ids => simp [Errand.run, Errand.touch, Errand.added, Engine.unlist]
  | answer r =>
    exact (e.answerRun_slots r).trans ((List.append_nil _).trans (List.map_id _)).symm

theorem Errand.touch_id (errand : Errand) (s : Slot) : (errand.touch s).id = s.id := by
  unfold Errand.touch
  split
  · split <;> rfl
  · split <;> rfl
  · rfl

/-- Agents are taken off the list by letting a child go. -/
theorem Acts.unlist_cases {ids : List AgentId} (h : Acts e s deed mid errand n)
    (unlist : errand = .unlist ids) :
    ∃ child rest retiring, s.phase = .applying (.release child :: rest) retiring ∧
      ids = (e.swap { s with phase := .applying rest retiring }).subtree e.slots.length child := by
  cases h with
  | released phase subtree =>
    cases unlist
    exact ⟨_, _, _, phase, subtree⟩
  | @reported ending rest retiring phase =>
    rcases Report.errand_cases (e.swap (s.concluded rest retiring)) (ending.report? s) with
      h | ⟨r, id, -, -, h⟩ | ⟨r, h⟩ <;> rw [h] at unlist <;> cases unlist
  | _ => cases unlist

theorem touched_touch {x : Slot} (distinct : e.ids.Nodup) (hx : x ∈ e.slots)
    (actor : m.actor? = some x.id) (acts : Acts e x (e.deed m x.id) mid errand n)
    (slots : e'.slots = (errand.run (e.swap mid)).slots) (t : Slot) :
    t.Touched e m e' (errand.touch t) := by
  cases errand with
  | send recipient envelope =>
    simp only [Errand.touch]
    split
    · next hid =>
      refine .sent fun r hr => ?_
      subst hid hr
      obtain ⟨hreport, hrecipient⟩ := acts.report_sent rfl
      rw [(Engine.activated?_of_actor distinct hx actor).2]
      exact ⟨hreport, hrecipient⟩
    · exact .left
  | unlist ids =>
    simp only [Errand.touch]
    split
    · next hid =>
      obtain ⟨child, rest, retiring, phase, subtree⟩ := acts.unlist_cases rfl
      refine .unlisted hx phase subtree (by simpa using hid) fun u hu hmem => ?_
      rw [slots] at hu
      obtain ⟨v, -, rfl⟩ := List.mem_map.mp hu
      have hv : ids.contains v.id = true := by
        rw [List.contains_iff_mem]
        split at hmem <;> exact hmem
      rw [if_pos hv]
    · exact .left
  | none => exact .left
  | add newcomer => exact .left
  | answer r => exact .left

/-- **What a move makes of a slot, in full:** the agent's own step with what it leaves of the files,
and what others do. -/
theorem Orderly.touched (o : Orderly e) (hs : s ∈ e.slots) (hs' : s' ∈ (e.step m).slots)
    (id : s'.id = s.id) :
    ∃ mid, (mid = s ∧ e.deed m s.id = .other ∨
      ∃ errand n, Acts e s (e.deed m s.id) mid errand n ∧
        s.Leaves e mid (e.step m).world.site (e.deed m s.id)) ∧
      mid.Touched e m (e.step m) s' := by
  have distinct' := (o.step m).distinct
  have change := step_change o.distinct m
  generalize e.step m = e' at change hs' distinct' ⊢
  cases change with
  | still slots idle number closed =>
    rw [slots] at hs'
    obtain rfl := Engine.eq_of_id_eq o.distinct hs hs' id
    exact ⟨s', Or.inl ⟨rfl, idle _⟩, .left⟩
  | @posted recipient envelope outside slots number closed source =>
    rw [slots] at hs'
    have hidle : e.deed m s.id = .other := Engine.deed_eq_other (by rw [outside]; simp)
    refine ⟨s, Or.inl ⟨rfl, hidle⟩, ?_⟩
    obtain ⟨u, hu, rfl⟩ := List.mem_map.mp hs'
    split at id
    · next h =>
      obtain rfl := Engine.eq_of_id_eq o.distinct hs hu id
      rw [if_pos h]
      refine .sent fun r hr => ?_
      rcases source with ⟨text, rfl⟩ | ⟨task, rfl⟩ <;> cases hr
    · next h =>
      obtain rfl := Engine.eq_of_id_eq o.distinct hs hu id
      rw [if_neg h]
      exact .left
  | @crowned root systemRole outside present number closed slots named =>
    rw [slots] at hs'
    have hidle : e.deed m s.id = .other := Engine.deed_eq_other (by rw [outside]; simp)
    refine ⟨s, Or.inl ⟨rfl, hidle⟩, ?_⟩
    rcases List.mem_append.mp hs' with hs' | hs'
    · obtain ⟨u, hu, rfl⟩ := List.mem_map.mp hs'
      split at id
      · next h =>
        obtain rfl := Engine.eq_of_id_eq o.distinct hs hu id
        rw [if_pos h]
        exact .crowned h
      · next h =>
        obtain rfl := Engine.eq_of_id_eq o.distinct hs hu id
        rw [if_neg h]
        exact .left
    · rw [List.mem_singleton.mp hs'] at id
      have hlt := o.numbered s hs
      rw [← id] at hlt
      exact absurd hlt (Nat.lt_irrefl _)
  | @acted x mem actor acted =>
    obtain @⟨mid, errand, acts, slots, -, -, -, site, -⟩ := acted
    have htouch := touched_touch o.distinct mem actor acts slots
    have hmem := slots ▸ hs'
    rw [Errand.run_slots] at hmem
    rcases List.mem_append.mp hmem with hmem | hmem
    · obtain ⟨u, hu, rfl⟩ := List.mem_map.mp hmem
      obtain ⟨v, hv, rfl⟩ := List.mem_map.mp hu
      change (errand.touch (mid.standIn v)).id = s.id at id
      rw [errand.touch_id, mid.standIn_id] at id
      obtain rfl := Engine.eq_of_id_eq o.distinct hs hv id
      by_cases hx : v.id = x.id
      · obtain rfl := Engine.eq_of_id_eq o.distinct mem hv hx
        rw [if_pos acts.id_eq.symm]
        exact ⟨mid, Or.inr ⟨errand, _, acts, site⟩, htouch mid⟩
      · rw [if_neg (acts.id_eq ▸ hx)]
        have hidle : e.deed m v.id = .other := by
          refine Engine.deed_eq_other fun h => hx ?_
          exact Option.some.inj (h.symm.trans actor)
        exact ⟨v, Or.inl ⟨rfl, hidle⟩, htouch v⟩
    · -- the agent that is added has no slot yet
      have hids : e'.ids = e.ids ++ errand.added.map Slot.id := by
        rw [← swap_ids (e := e) mid, Engine.ids, slots, Errand.run_slots, List.map_append,
          List.map_map]
        congr 1
        exact List.map_congr_left fun t _ => errand.touch_id t
      rw [hids] at distinct'
      have hold : s'.id ∈ e.ids := id ▸ List.mem_map_of_mem hs
      exact absurd rfl ((List.nodup_append.mp distinct').2.2 _ hold _ (List.mem_map_of_mem hmem))

theorem Orderly.fares_of_id (o : Orderly e) (hs : s ∈ e.slots) (hs' : s' ∈ (e.step m).slots)
    (id : s'.id = s.id) : s.Fares e m s' := by
  rcases o.fares m hs' with ⟨t, ht, hfares⟩ | ⟨hnew, -⟩
  · obtain rfl := Engine.eq_of_id_eq o.distinct hs ht (hfares.id_eq.symm.trans id)
    exact hfares
  · exact absurd (id ▸ List.mem_map_of_mem hs) hnew

theorem Orderly.shift (o : Orderly e) (hs : s ∈ e.slots) (hs' : s' ∈ (e.step m).slots)
    (id : s'.id = s.id) : Shift e m (e.step m) s s' := by
  obtain ⟨g, new, w⟩ := step_evolves o.distinct m
  have hg : g s ∈ (e.step m).slots := by
    rw [w.slots]
    exact List.mem_append_left _ (List.mem_map_of_mem hs)
  obtain rfl := Engine.eq_of_id_eq (o.step m).distinct hg hs' (id.trans (w.shift s hs).id_eq.symm)
  exact w.shift s hs

/-- A slot behind a move is that of an agent that was there, or new. -/
theorem Orderly.old_or_new (o : Orderly e) (hs' : s' ∈ (e.step m).slots) :
    (∃ s ∈ e.slots, s'.id = s.id) ∨ s'.id ∉ e.ids := by
  rcases o.fares m hs' with ⟨s, hs, hfares⟩ | ⟨hnew, -⟩
  · exact Or.inl ⟨s, hs, hfares.id_eq⟩
  · exact Or.inr hnew

/-! ### Who is added -/

/-- **Who is added:** a helper, the agent of an entry, or a master. -/
inductive Enters (e : Engine) (m : Move) (t : Slot) : Prop where
  | helper {x : Slot} {id : AgentId} {kind : Directive.HelperKind} {prompt name : String}
      {scratch : Scratch} {rest : List Effect} {retiring : Bool} (mem : x ∈ e.slots)
      (actor : m.actor? = some x.id)
      (phase : x.phase = .applying (.spawn id kind prompt scratch :: rest) retiring)
      (slot : t = .newborn
        { Agent.fresh id (.helper kind) name (.file scratch.path) (some x.id) e.world.now with
          scratch := some scratch }
        x.systemRole [.task (some x.id) ⟨⟨e.world.nextNumber⟩, prompt⟩])
  | entry {x : Slot} {id : AgentId} {kind : Kind} {path : Path} {name : String}
      {rest : List Effect} {retiring : Bool} (mem : x ∈ e.slots) (actor : m.actor? = some x.id)
      (phase : x.phase = .applying (.adopt id kind path :: rest) retiring)
      (slot : t = .newborn
        (Agent.fresh id kind name (Roster.scopeOf kind path) (some x.id) e.world.now)
        x.systemRole [])
  | master {root : Agent} {systemRole : Bool} (outside : m.actor? = none)
      (named : root.id = e.root)
      (slot : t = .newborn (Engine.masterOf ⟨e.world.nextNumber⟩ root e.world.now) systemRole [])

theorem Orderly.enters (o : Orderly e) (ht : t ∈ (e.step m).slots) (new : t.id ∉ e.ids) :
    Enters e m t := by
  have old : ∀ {s : Slot}, s ∈ e.slots → t.id = s.id → Enters e m t := fun hs hid =>
    absurd (hid ▸ List.mem_map_of_mem hs) new
  have change := step_change o.distinct m
  generalize e.step m = e' at change ht
  cases change with
  | still slots idle number closed => exact old (slots ▸ ht) rfl
  | posted outside slots number closed source =>
    rw [slots] at ht
    obtain ⟨u, hu, hkeeps⟩ := keeps_send ht
    exact old hu hkeeps.id_eq
  | crowned outside present number closed slots named =>
    rw [slots] at ht
    rcases List.mem_append.mp ht with ht | ht
    · obtain ⟨u, hu, rfl⟩ := List.mem_map.mp ht
      exact old hu (keeps_parent e _ u).id_eq
    · exact .master outside named (List.mem_singleton.mp ht)
  | @acted x mem actor acted =>
    obtain @⟨mid, errand, acts, slots, -, -, -, -, -⟩ := acted
    rw [slots] at ht
    rcases Errand.keeps ht with ⟨u, hu, hkeeps⟩ | hadd
    · obtain ⟨v, hv, rfl⟩ := List.mem_map.mp hu
      exact old hv (hkeeps.id_eq.trans (mid.standIn_id v))
    · generalize e.deed m x.id = deed at acts
      generalize e'.world.nextNumber = n at acts
      cases acts with
      | started phase =>
        cases hadd
        exact .helper mem actor phase rfl
      | adopted phase =>
        cases hadd
        exact .entry mem actor phase rfl
      | @reported ending rest retiring phase =>
        rcases Report.errand_cases (e.swap (x.concluded rest retiring)) (ending.report? x) with
          h | ⟨r, id, -, -, h⟩ | ⟨r, h⟩ <;> rw [h] at hadd <;> cases hadd
      | _ => cases hadd

/-! ### What an agent is -/

/-- Taking in an envelope changes neither what an agent is nor its scratch file. -/
theorem Agent.receive_frame (a : Agent) (envelope : Envelope) (now : Nat) :
    (a.receive envelope now).nature = a.nature ∧
      (a.receive envelope now).scratch = a.scratch := by
  obtain ⟨later, hnoted⟩ := a.noted_eq now
  unfold Agent.receive
  simp only [hnoted]
  cases envelope with
  | plain text => exact ⟨rfl, rfl⟩
  | task sender task =>
    simp only [Agent.takeTask]
    split <;> exact ⟨rfl, rfl⟩
  | report r =>
    simp only [Agent.takeReport, Agent.dismiss]
    split
    · exact ⟨rfl, rfl⟩
    · split <;> exact ⟨rfl, rfl⟩

theorem Acts.nature (h : Acts e s deed mid errand n) : mid.agent.nature = s.agent.nature := by
  cases h with
  | @heard envelope rest phase inbox => exact (s.agent.receive_frame envelope e.world.now).1
  | began phase begun =>
    obtain ⟨-, -, rfl⟩ := begin_eq_some begun
    rfl
  | @completed call prompt response deadline done phase complete =>
    obtain rfl := complete
    exact complete_nature e.project prompt response _
  | despaired turn many gives => cases gives <;> rfl
  | abandoned phase gives => cases gives <;> rfl
  | _ => rfl

theorem Slot.Fares.kind_eq (h : s.Fares e m s') : s'.agent.kind = s.agent.kind := by
  cases h with
  | idle deed keeps => exact congrArg Books.kind keeps.books
  | acts acts keeps =>
    exact (congrArg Books.kind keeps.books).trans (congrArg Nature.kind acts.nature)

/-- **A move leaves alone what an agent is,** but for the parent of the root. -/
theorem Orderly.nature (o : Orderly e) (hs : s ∈ e.slots) (hs' : s' ∈ (e.step m).slots)
    (id : s'.id = s.id) :
    s'.agent.kind = s.agent.kind ∧ (s.id ≠ e.root → s'.agent.parent = s.agent.parent) := by
  obtain ⟨mid, hown, htouched⟩ := o.touched hs hs' id
  have hnature : mid.agent.nature = s.agent.nature := by
    rcases hown with ⟨rfl, -⟩ | ⟨errand, n, acts, -⟩
    · rfl
    · exact acts.nature
  have hkind : mid.agent.kind = s.agent.kind := congrArg Nature.kind hnature
  have hparent : mid.agent.parent = s.agent.parent := congrArg Nature.parent hnature
  have hid : mid.id = s.id := congrArg Nature.id hnature
  cases htouched with
  | left => exact ⟨hkind, fun _ => hparent⟩
  | sent report => exact ⟨hkind, fun _ => hparent⟩
  | unlisted mem phase subtree below all => exact ⟨hkind, fun _ => hparent⟩
  | crowned root => exact ⟨hkind, fun h => absurd (hid.symm.trans root) h⟩

/-! ### Inboxes and places on the list -/

/-- The envelope that a deed takes in. -/
def Deed.heard : Deed → List Envelope
  | .hear envelope => [envelope]
  | _ => []

theorem Acts.heard_append (h : Acts e s deed mid errand n) :
    s.inbox = deed.heard ++ mid.inbox := by
  cases h with
  | heard phase inbox => exact inbox
  | _ => rfl

/-- **What becomes of an inbox:** its first envelope may be taken in, and one may come in behind the
others. -/
theorem Orderly.inbox_step (o : Orderly e) (hs : s ∈ e.slots) (hs' : s' ∈ (e.step m).slots)
    (id : s'.id = s.id) :
    ∃ kept more, s.inbox = (e.deed m s.id).heard ++ kept ∧ s'.inbox = kept ++ more ∧
      (more = [] ∨ ∃ envelope, more = [envelope] ∧ ∀ r, envelope = .report r →
        e.routed? m = some r ∧ r.recipient = some s.id) := by
  obtain ⟨mid, hown, htouched⟩ := o.touched hs hs' id
  have hsplit : mid.id = s.id ∧ s.inbox = (e.deed m s.id).heard ++ mid.inbox := by
    rcases hown with ⟨rfl, hdeed⟩ | ⟨errand, n, acts, -⟩
    · rw [hdeed]
      exact ⟨rfl, rfl⟩
    · exact ⟨acts.id_eq, acts.heard_append⟩
  refine ⟨mid.inbox, ?_⟩
  cases htouched with
  | @sent envelope report =>
    exact ⟨[envelope], hsplit.2, rfl, Or.inr ⟨envelope, rfl, hsplit.1 ▸ report⟩⟩
  | _ => exact ⟨[], hsplit.2, (List.append_nil _).symm, Or.inl rfl⟩

/-- A step leaves an agent on the list, unless it reports. -/
theorem Acts.listed_cases (h : Acts e s deed mid errand n) :
    mid.listed = s.listed ∨ ∃ ending, deed = .report ending := by
  cases h with
  | reported phase => exact Or.inr ⟨_, rfl⟩
  | _ => exact Or.inl rfl

theorem Acts.unlisted (h : Acts e s deed mid errand n) (gone : s.listed = false) :
    mid.listed = false := by
  cases h with
  | reported phase => simp [Slot.concluded, gone]
  | _ => exact gone

/-- Nobody is put back on the list. -/
theorem Slot.Fares.unlisted (h : s.Fares e m s') (gone : s.listed = false) : s'.listed = false := by
  cases h with
  | idle deed keeps =>
    cases hlisted : s'.listed with
    | false => rfl
    | true => exact absurd (keeps.listed hlisted) (by simp [gone])
  | acts acts keeps =>
    have hmid := acts.unlisted gone
    cases hlisted : s'.listed with
    | false => rfl
    | true => exact absurd (keeps.listed hlisted) (by simp [hmid])

/-- **What becomes of a place on the list:** it stays, unless the agent reports or is let go with
others. -/
theorem Orderly.listed_step (o : Orderly e) (hs : s ∈ e.slots) (hs' : s' ∈ (e.step m).slots)
    (id : s'.id = s.id) (listed : s.listed = true) :
    s'.listed = true ∨ (∃ ending, e.deed m s.id = .report ending) ∨
      ∃ x ∈ e.slots, ∃ child rest retiring,
        x.phase = .applying (.release child :: rest) retiring ∧
        s.id ∈ (e.swap { x with phase := .applying rest retiring }).subtree e.slots.length child ∧
        ∀ t ∈ (e.step m).slots, t.id ∈ (e.swap { x with
          phase := .applying rest retiring }).subtree e.slots.length child → t.listed = false := by
  obtain ⟨mid, hown, htouched⟩ := o.touched hs hs' id
  have hid : mid.id = s.id := by
    rcases hown with ⟨rfl, -⟩ | ⟨errand, n, acts, -⟩
    · rfl
    · exact acts.id_eq
  have hmid : mid.listed = true ∨ ∃ ending, e.deed m s.id = .report ending := by
    rcases hown with ⟨rfl, -⟩ | ⟨errand, n, acts, -⟩
    · exact Or.inl listed
    · exact acts.listed_cases.imp_left fun h => h.trans listed
  cases htouched with
  | @unlisted x child rest retiring ids mem phase subtree below all =>
    subst subtree
    exact Or.inr (Or.inr ⟨x, mem, child, rest, retiring, phase, hid ▸ below, all⟩)
  | _ => exact hmid.imp_right Or.inl

/-- **A report reaches its recipient,** if that is there to take it in. -/
theorem Orderly.report_delivered (o : Orderly e) {p p' : Slot} {r : Report}
    (routed : e.routed? m = some r) (hp : p ∈ e.slots) (recipient : r.recipient = some p.id)
    (hp' : p' ∈ (e.step m).slots) (id : p'.id = p.id) (live : ¬ p'.Closed) :
    .report r ∈ p'.inbox := by
  obtain ⟨x, hx, ending, actor, hdeed, hreport⟩ := Engine.routed?_eq_some routed
  rcases step_of_actor o.distinct actor with ⟨-, hnone⟩ | ⟨y, hy, hyid, hacted⟩
  · rw [hdeed] at hnone
    cases hnone
  obtain rfl := Engine.eq_of_id_eq o.distinct hx hy hyid
  rw [hdeed] at hacted
  have distinct' := (o.step m).distinct
  generalize e.step m = e' at hacted hp' distinct'
  obtain @⟨mid, errand, acts, slots, -, -, -, -, -⟩ := hacted
  have hmem : mid.standIn p ∈ (e.swap mid).slots := List.mem_map_of_mem hp
  have hpid := mid.standIn_id p
  obtain ⟨u, hu, hkeeps, hbrings⟩ := errand.delivers hmem
  rw [← slots] at hu
  obtain rfl := Engine.eq_of_id_eq distinct' hp' hu (hkeeps.id_eq.trans (hpid.trans id.symm))
  have haccepts : (e.swap mid).accepts p.id = true := by
    by_contra hgone
    refine live (hkeeps.closed (Engine.closed_of_not_accepts hmem ?_ ?_))
    · rw [swap_ids]
      exact o.distinct
    · rw [hpid]
      exact Bool.eq_false_iff.mpr hgone
  refine hbrings _ ?_
  rw [hpid]
  generalize e'.world.nextNumber = n at acts
  cases acts with
  | reported phase =>
    rw [hreport]
    simp [Report.errand, recipient, haccepts]

end Arbor
