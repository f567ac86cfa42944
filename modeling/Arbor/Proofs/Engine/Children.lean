import Arbor.Proofs.Engine.Arrivals
import Arbor.Proofs.Roster
import Arbor.Proofs.Turn.Addressing

/-! # The children that an agent lists

Along every run each child of an agent is listed once, under a name of its own. So the lines of a
prompt name the children one to one, and what is handed to a line reaches the child of that line or
nobody.

* `Listed`, `Launched.listed`: each child is listed once.
* `addressed_as_shown_iff`: a child is addressed by the line that shows it, exactly if its name is
  legible. -/

namespace Arbor

open Turn

/-- **Each child is listed once:** under one name, and no other child has that name. -/
structure Listed (children : Table ChildLink) : Prop where
  ordered : children.Ordered
  apart : ∀ x ∈ children, ∀ y ∈ children, x.2.id = y.2.id → x.1 = y.1

namespace Listed

variable {children : Table ChildLink}

theorem nil : Listed [] := ⟨Table.ordered_nil, fun x hx => by cases hx⟩

theorem singleton (x : String × ChildLink) : Listed [x] := by
  refine ⟨Table.ordered_singleton x, fun y hy z hz _ => ?_⟩
  rw [List.mem_singleton.mp hy, List.mem_singleton.mp hz]

theorem put (h : Listed children) (name : String) {link : ChildLink}
    (fresh : ∀ x ∈ children, x.2.id ≠ link.id) : Listed (children.put name link) := by
  refine ⟨h.ordered.put name link, fun x hx y hy hid => ?_⟩
  rcases Table.mem_put hx with rfl | hx <;> rcases Table.mem_put hy with rfl | hy
  · rfl
  · exact absurd hid.symm (fresh y hy)
  · exact absurd hid (fresh x hx)
  · exact h.apart x hx y hy hid

theorem drop (h : Listed children) (name : String) : Listed (children.drop name) :=
  ⟨h.ordered.drop name, fun x hx y hy =>
    h.apart x (Table.mem_drop.mp hx).1 y (Table.mem_drop.mp hy).1⟩

theorem hasChild (h : Listed children) {x : String × ChildLink} (hx : x ∈ children) :
    HasChild children x.2.id := ⟨x.1, x.2, h.ordered.get?_iff.mpr hx, rfl⟩

end Listed

/-! ### What a move does to the children -/

theorem Booked.listed {b b' : Books} {n n' : Nat} {effects : List Effect}
    (h : Booked b n b' n' effects) (listed : Listed b.children)
    (numbered : ∀ c, HasChild b.children c → c.number < n) : Listed b'.children := by
  cases h with
  | adopted free lasting =>
    refine listed.put _ fun x hx hid => ?_
    have hlt := numbered _ (listed.hasChild hx)
    rw [hid] at hlt
    exact Nat.lt_irrefl _ hlt
  | dropped child idle => exact listed.drop _
  | handed children =>
    rw [Books.handAll_eq]
    exact listed
  | nothing => exact listed
  | hired started => exact listed
  | retired idle task origin => exact listed

theorem Shift.listed {e e' : Engine} {m : Move} {s s' : Slot} (h : Shift e m e' s s')
    (listed : Listed s.agent.children)
    (numbered : ∀ c, s.Heads c → c.number < e.world.nextNumber) : Listed s'.agent.children := by
  cases h with
  | calm calm =>
    rw [show s'.agent.children = s.agent.children from congrArg Books.children calm.books]
    exact listed
  | received move phase inbox =>
    simp only [Agent.receive_children]
    exact listed
  | turned actor idle going hlisted inbox booked => exact booked.listed listed numbered
  | bounced move phase gone => exact listed

theorem Enters.listed {e : Engine} {m : Move} {t : Slot} (h : Enters e m t) :
    Listed t.agent.children := by
  cases h with
  | helper mem actor phase slot =>
    rw [slot]
    exact .nil
  | entry mem actor phase slot =>
    rw [slot]
    exact .nil
  | master outside named slot =>
    rw [slot]
    exact .singleton _

/-! ### Rosters and runs -/

namespace Roster

theorem listed_add {project : Project} {now : Nat} {parent : AgentId} {kind : Kind} {path : Path}
    {name : String} {b b' : Progress} (staffed : Staffed b)
    (listed : ∀ a ∈ b.agents, Listed a.children)
    (h : add project now parent kind path name b = .ok b') :
    ∀ a ∈ b'.agents, Listed a.children := by
  obtain ⟨files, -, rfl⟩ := add_cases h
  intro a ha
  rcases List.mem_append.mp ha with ha | ha
  · obtain ⟨a', ha', rfl⟩ := List.mem_map.mp ha
    split
    · refine (listed a' ha').put name fun x hx hid => ?_
      obtain ⟨t, ht, heq⟩ := List.mem_map.mp (staffed.present a' ha' x hx)
      have hlt := staffed.numbered t ht
      rw [heq, hid] at hlt
      exact Nat.lt_irrefl _ hlt
    · exact listed a' ha'
  · rw [List.mem_singleton.mp ha]
    exact .nil

theorem listed_of_build {project : Project} {site site' : Site} {first now next : Nat}
    {roster : Roster} (h : build project site first now = .ok (roster, site', next)) :
    ∀ a ∈ roster.agents, Listed a.children := by
  obtain ⟨files, -, h⟩ := bind_eq_ok.mp h
  obtain ⟨b, hbelow, h⟩ := bind_eq_ok.mp h
  cases h
  -- links are numbered anew as long as all numbers in use are below the next one
  refine (addBelow_keeps (P := fun b => Staffed b ∧ ∀ a ∈ b.agents, Listed a.children)
    (fun _ hb hadd => ⟨hb.1.add hadd, listed_add hb.1 hb.2 hadd⟩) ?_ hbelow).2
  refine ⟨staffed_start project files first now, fun a ha => ?_⟩
  rw [List.mem_singleton.mp ha]
  exact .nil

end Roster

variable {e : Engine}

theorem Launched.listed (launched : Launched e) (moves : List Move) :
    ∀ s ∈ (e.follow moves).slots, Listed s.agent.children := by
  induction moves using List.reverseRecOn with
  | nil =>
    intro s hs
    cases launched with
    | intro build number =>
      obtain ⟨a, ha, rfl⟩ := List.mem_map.mp hs
      exact Roster.listed_of_build build a ha
  | append_singleton ran m ih =>
    rw [Engine.follow_concat]
    intro s' hs'
    have orderly := launched.orderly.follow ran
    rcases orderly.old_or_new hs' with ⟨s, hs, hid⟩ | hnew
    · exact (orderly.shift hs hs' hid).listed (ih s hs) fun c => orderly.heads_lt hs
    · exact (orderly.enters hs' hnew).listed

/-! ### What a prompt shows -/

theorem Listed.reaches_iff {d : Desk} (listed : Listed d.agent.children) {name : String}
    {link : ChildLink} (child : (name, link) ∈ d.agent.children) (project : Project)
    (prompt : String) :
    Reaches project d (orderText (childLine name link) prompt) link.id prompt ↔ Legible name := by
  refine reaches_iff_legible project prompt (listed.ordered.get?_iff.mpr child) ?_
  intro other link' hget hid
  exact listed.apart _ (listed.ordered.get?_iff.mp hget) _ child hid

/-- **A child is addressed by the line that shows it,** whatever it is told, exactly if its name is
legible. -/
theorem addressed_as_shown_iff (launched : Launched e) (moves : List Move) {s : Slot}
    (hs : s ∈ (e.follow moves).slots) {d : Desk} (own : d.agent.children = s.agent.children)
    {project : Project} {site : Site} {queued line name : String} {link : ChildLink} {i : Nat}
    (child : d.agent.children[i]? = some (name, link))
    (shown : (promptVars project site d.agent queued).children[i]? = some line) (prompt : String) :
    Reaches project d (orderText line prompt) link.id prompt ↔ Legible name := by
  have listed := launched.listed moves s hs
  rw [← own] at listed
  have hline : line = childLine name link := by
    simpa [promptVars, child] using shown.symm
  rw [hline]
  exact listed.reaches_iff (List.mem_of_getElem? child) project prompt

/-! ### A project with a quote in a name -/

open FileSystem

/-- Two files, one of which has a quote in its name. -/
def attic : FileSystem :=
  ⟨[(["p"], .folder), (["p", "a\"b"], .file "".toUTF8), (["p", "c"], .file "".toUTF8),
    (["p", "p_README.md"], .file "".toUTF8)]⟩

/-- Their manager. -/
def atticManager : Agent :=
  { Agent.fresh ⟨0⟩ .manager "." (.folder ⟨"/p"⟩) none 0 with
    children := [("a\"b", ⟨⟨1⟩, .coder⟩), ("c", ⟨⟨2⟩, .coder⟩)] }

def atticRoster : Roster where
  agents := [atticManager, Agent.fresh ⟨1⟩ .coder "a\"b" (.file ⟨"/p/a\"b"⟩) (some ⟨0⟩) 0,
    Agent.fresh ⟨2⟩ .coder "c" (.file ⟨"/p/c"⟩) (some ⟨0⟩) 0]
  root := ⟨0⟩

def atticStart : Engine :=
  .launch shedProject { absent := [] } (.start attic [] [] 3) atticRoster true

theorem attic_launched : Launched atticStart := by
  have hwalk : attic.walk .followed shedProject.root = .ok ["p"] := by decide +kernel
  have hchildren : attic.children ["p"] = [("a\"b", .file "".toUTF8), ("c", .file "".toUTF8),
      ("p_README.md", .file "".toUTF8)] := children_of_pairwise rfl (by decide +kernel)
  have hnotes : attic.walk .followed (Project.docPath shedProject.root) =
      .ok ["p", "p_README.md"] := by decide +kernel
  have hbuild : Roster.build shedProject ⟨attic, []⟩ 0 0 = .ok (atticRoster, ⟨attic, []⟩, 3) := by
    refine Eq.trans (Roster.build_eq
      (Roster.prepare_of_notes (exists?_of_walk hnotes (by decide +kernel))) hwalk) ?_
    rw [hchildren]
    rfl
  exact .intro hbuild rfl

/-- The desk of the manager when the engine starts. -/
def atticDesk : Desk := ⟨atticManager, atticStart.world⟩

/-- The coder of the other file is addressed by its line. -/
theorem addressed_as_shown_attic : Launched atticStart ∧
    Reaches shedProject atticDesk (orderText "FILE \"c\"" "go") ⟨2⟩ "go" := by
  have shown : (promptVars shedProject ⟨attic, []⟩ atticDesk.agent "").children[1]? =
      some "FILE \"c\"" := rfl
  have child : atticDesk.agent.children[1]? = some ("c", ⟨⟨2⟩, .coder⟩) := rfl
  refine ⟨attic_launched, ?_⟩
  exact (addressed_as_shown_iff attic_launched [] List.mem_cons_self rfl child shown "go").mpr
    (by decide +kernel)

/-- **The coder whose name has a quote in it is not:** its line does not reach it. -/
theorem attic_unaddressed : Launched atticStart ∧
    atticDesk.agent.children[0]? = some ("a\"b", ⟨⟨1⟩, .coder⟩) ∧
    (promptVars shedProject ⟨attic, []⟩ atticDesk.agent "").children[0]? =
      some "FILE \"a\"b\"" ∧
    ¬ Reaches shedProject atticDesk (orderText "FILE \"a\"b\"" "go") ⟨1⟩ "go" := by
  refine ⟨attic_launched, rfl, rfl, fun reaches => ?_⟩
  have listed : Listed atticDesk.agent.children := attic_launched.listed [] _ List.mem_cons_self
  have child : ("a\"b", ⟨⟨1⟩, .coder⟩) ∈ atticDesk.agent.children := List.mem_cons_self
  exact absurd ((listed.reaches_iff child shedProject "go").mp reaches) (by decide +kernel)

end Arbor
