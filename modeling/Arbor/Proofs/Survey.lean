import Arbor.Proofs.Linkless
import Arbor.Proofs.Listing
import Arbor.Proofs.Notes
import Arbor.Proofs.Population

/-! # Who is in a roster, whatever the notes are

Building a roster reads the entries of a folder when it comes to it, and then makes the notes of the
folder. These may land as a file in another folder, if a link stands at their path. Then the file has
a coder exactly if its folder has not been read by then.

* `Earlier`: the folders that have been given their notes when a folder is read.
* `Engaged`: the locations whose agents are made, said of the files before.
* `Survey`: how far building is; `Survey.surveys`: all entries of a folder are gone through.
* `survey_of_build`: whom a roster has, and which files there are afterwards. -/

namespace Arbor

open FileSystem

variable {project : Project} {site : Site} {home loc dir : Location} {k : Kind} {n : String}
  {fs fs' : FileSystem}

/-! ### Who is engaged -/

/-- **The folder is given its notes before the other is read:** it comes before, or it is the root's,
which has its notes first. -/
def Earlier (project : Project) (site : Site) (home loc dir : Location) : Prop :=
  Manned project site home dir .manager ∧ (dir = home ∨ Location.Before dir loc)

/-- A file stands at the location when its folder is read. -/
def Filed (project : Project) (site : Site) (home loc : Location) (n : String) : Prop :=
  (∃ content, site.files.find? (loc ++ [n]) = some (.file content)) ∨
    ∃ dir, Earlier project site home loc dir ∧ Lands site.files dir (loc ++ [n])

/-- **The locations whose agents are made:** folders that agents see have a manager, and the files in
them that are seen when the folder is read, and that are no notes, have a coder. -/
inductive Engaged (project : Project) (site : Site) (home : Location) : Location → Kind → Prop where
  | manager {loc : Location} (manned : Manned project site home loc .manager) :
      Engaged project site home loc .manager
  | coder {loc : Location} {n : String} (above : Manned project site home loc .manager)
      (seen : Project.isSeen site (pathOf (loc ++ [n])) = true)
      (plain : project.isDoc (pathOf (loc ++ [n])) = false)
      (filed : Filed project site home loc n) : Engaged project site home (loc ++ [n]) .coder

/-- The files when a folder is read. -/
abbrev AsRead (project : Project) (site : Site) (home loc : Location) (fs : FileSystem) : Prop :=
  Supplied (Earlier project site home loc) site.files fs

/-- **Who is engaged at an entry** is seen when its folder is read. -/
theorem engaged_concat_iff (hin : home <+: loc) (h : AsRead project site home loc fs) :
    Engaged project site home (loc ++ [n]) k ↔ Manned project site home loc .manager ∧
      ∃ entry, fs.find? (loc ++ [n]) = some entry ∧
        Roster.entryKind? project site (pathOf (loc ++ [n])) entry = some k := by
  simp only [Roster.entryKind?, Option.ite_none_right_eq_some]
  constructor
  · intro he
    generalize hl : loc ++ [n] = l at he
    cases he with
    | manager manned =>
      subst hl
      obtain ⟨above, seen, entry, found, kind⟩ := (Manned.concat_iff hin).mp manned
      exact ⟨above, entry, h.old found, seen, kind⟩
    | @coder up m above seen plain filed =>
      obtain ⟨rfl, hm⟩ := List.append_inj' hl rfl
      obtain rfl := List.singleton_inj.mp hm
      obtain ⟨content, hfind⟩ : ∃ content, fs.find? (loc ++ [n]) = some (.file content) := by
        rcases filed with ⟨content, hfind⟩ | hlands
        · exact ⟨content, h.old hfind⟩
        · exact ⟨_, h.made _ hlands⟩
      exact ⟨above, _, hfind, seen, kindOf?_eq_coder.mpr ⟨⟨content, rfl⟩, plain⟩⟩
  · rintro ⟨above, entry, hfind, seen, kind⟩
    cases entry with
    | folder =>
      obtain rfl : Kind.manager = k := Option.some.inj kind
      exact .manager (.entry above seen (h.folder_iff.mp hfind) rfl)
    | link target => cases kind
    | file content =>
      obtain rfl : k = .coder := by
        unfold Roster.kindOf? at kind
        simp only at kind
        split at kind
        · cases kind
        · exact (Option.some.inj kind).symm
      refine .coder above seen (kindOf?_eq_coder.mp kind).2 ?_
      rcases h.cases hfind with hold | ⟨-, hlands⟩
      · exact Or.inl ⟨content, hold⟩
      · exact Or.inr hlands

namespace Engaged

theorem inside (h : Engaged project site home loc k) : home <+: loc := by
  cases h with
  | manager manned => exact manned.inside
  | coder above => exact above.inside.trans (List.prefix_append _ _)

theorem manager_iff :
    Engaged project site home loc .manager ↔ Manned project site home loc .manager := by
  refine ⟨fun h => ?_, .manager⟩
  cases h with
  | manager manned => exact manned

theorem kind_cases (h : Engaged project site home loc k) : k = .manager ∨ k = .coder := by
  cases h with
  | manager => exact Or.inl rfl
  | coder => exact Or.inr rfl

/-- Folders have no coder. -/
theorem not_coder_of_manned (h : Manned project site home loc .manager) :
    ¬ Engaged project site home loc .coder := by
  intro he
  cases he with
  | @coder up n above seen plain filed =>
    obtain ⟨-, -, entry, found, kind⟩ := (Manned.concat_iff above.inside).mp h
    obtain rfl := kindOf?_eq_manager.mp kind
    rcases filed with ⟨content, hfile⟩ | ⟨dir, -, lands⟩
    · cases found.symm.trans hfile
    · cases found.symm.trans lands.free

theorem branches : Census.Branches home (Engaged project site home) where
  unique := by
    intro l k k' h h'
    rcases h.kind_cases with rfl | rfl <;> rcases h'.kind_cases with rfl | rfl
    · rfl
    · exact absurd h' (not_coder_of_manned (manager_iff.mp h))
    · exact absurd h (not_coder_of_manned (manager_iff.mp h'))
    · rfl
  at_entry := by
    intro l k loc n h hin hp
    cases h with
    | manager manned =>
      obtain ⟨k', hk', ⟨rfl, rfl⟩ | ⟨rfl, hmore⟩⟩ := manned.at_entry hin hp
      · exact ⟨.manager, .manager hk', Or.inl ⟨rfl, rfl⟩⟩
      · exact ⟨.manager, .manager hk', Or.inr ⟨rfl, hmore⟩⟩
    | @coder up m above seen plain filed =>
      rcases List.prefix_concat_iff.mp hp with heq | hp
      · rw [heq]
        exact ⟨.coder, .coder above seen plain filed, Or.inl ⟨rfl, rfl⟩⟩
      · obtain ⟨k', hk', ⟨rfl, rfl⟩ | ⟨rfl, m', hp'⟩⟩ := above.at_entry hin hp
        · exact ⟨.manager, .manager hk', Or.inr ⟨rfl, m, List.prefix_rfl⟩⟩
        · exact ⟨.manager, .manager hk', Or.inr ⟨rfl, m', hp'.trans (List.prefix_append _ _)⟩⟩

end Engaged

/-! ### Entries as they are read -/

/-- **Entries of a folder are still to be gone through,** as they were when it was read: they are in
order, and those that are left out come before. -/
structure Reading (project : Project) (site : Site) (home loc : Location)
    (entries : List (String × Entry)) : Prop where
  sorted : entries.Pairwise fun a b => bytes a.1 < bytes b.1
  found : ∃ fs, AsRead project site home loc fs ∧ ∀ x ∈ entries, fs.find? (loc ++ [x.1]) = some x.2
  rest : ∀ m k, Engaged project site home (loc ++ [m]) k →
    m ∈ entries.map Prod.fst ∨ ∀ x ∈ entries, bytes m < bytes x.1

namespace Reading

variable {x : String × Entry} {entries : List (String × Entry)}

theorem of_children (hin : home <+: loc) (h : AsRead project site home loc fs) :
    Reading project site home loc (fs.children loc) where
  sorted := sorted_children h.sound loc
  found := ⟨fs, h, fun _ hx => h.sound.mem_children.mp hx⟩
  rest := by
    intro m k he
    obtain ⟨-, entry, hfind, -⟩ := (engaged_concat_iff hin h).mp he
    exact Or.inl (List.mem_map.mpr ⟨(m, entry), h.sound.mem_children.mpr hfind, rfl⟩)

theorem tail (h : Reading project site home loc (x :: entries)) :
    Reading project site home loc entries := by
  obtain ⟨hfirst, hsorted⟩ := List.pairwise_cons.mp h.sorted
  obtain ⟨fs, hread, hfound⟩ := h.found
  refine ⟨hsorted, ⟨fs, hread, fun y hy => hfound y (List.mem_cons_of_mem _ hy)⟩, fun m k he => ?_⟩
  rcases h.rest m k he with hm | hlt
  · rw [List.map_cons, List.mem_cons] at hm
    rcases hm with rfl | hm
    · exact Or.inr hfirst
    · exact Or.inl hm
  · exact Or.inr fun y hy => hlt y (List.mem_cons_of_mem _ hy)

theorem named (h : Reading project site home loc entries) (hx : x ∈ entries) :
    Location.Named (loc ++ [x.1]) := by
  obtain ⟨fs, hread, hfound⟩ := h.found
  exact hread.sound.named_of_find? (by rw [hfound x hx]; simp)

theorem engaged_iff (h : Reading project site home loc entries) (hx : x ∈ entries)
    (above : Manned project site home loc .manager) :
    Engaged project site home (loc ++ [x.1]) k ↔
      Roster.entryKind? project site (pathOf (loc ++ [x.1])) x.2 = some k := by
  obtain ⟨fs, hread, hfound⟩ := h.found
  rw [engaged_concat_iff above.inside hread]
  constructor
  · rintro ⟨-, entry, hfind, kind⟩
    obtain rfl := Option.some.inj ((hfound x hx).symm.trans hfind)
    exact kind
  · exact fun kind => ⟨above, x.2, hfound x hx, kind⟩

end Reading

/-! ### How far building is -/

/-- The folder of an entry that leads to a folder with a manager has one too. -/
theorem Manned.manager_above {l : Location} (h : Manned project site home l .manager)
    (hin : home <+: loc) (hp : loc ++ [n] <+: l) :
    Manned project site home (loc ++ [n]) .manager := by
  obtain ⟨k', hk', ⟨-, rfl⟩ | ⟨rfl, -⟩⟩ := h.at_entry hin hp
  · exact hk'
  · exact hk'

/-- **Those of the folders have a manager that come before** the entries of the folder that are left. -/
def Upto (project : Project) (site : Site) (home : Location) (D : Location → Kind → Prop)
    (loc : Location) (entries : List (String × Entry)) : Prop :=
  ∀ l, Manned project site home l .manager → (D l .manager ↔
    Location.Before l loc ∨ l = loc ∨
      ∃ m, (∀ x ∈ entries, bytes m < bytes x.1) ∧ loc ++ [m] <+: l)

namespace Upto

variable {D : Location → Kind → Prop} {x : String × Entry} {entries : List (String × Entry)}
  {l : Location}

/-- When a folder is come to, those before it have a manager. -/
theorem before_iff (h : Upto project site home D loc (x :: entries))
    (reading : Reading project site home loc (x :: entries))
    (hl : Manned project site home l .manager) :
    D l .manager ↔ Location.Before l (loc ++ [x.1]) := by
  rw [h l hl, Location.before_concat_iff]
  refine or_congr Iff.rfl (or_congr Iff.rfl ⟨?_, ?_⟩)
  · rintro ⟨m, hlt, hp⟩
    exact ⟨m, hlt x List.mem_cons_self, hp⟩
  · rintro ⟨m, hlt, hp⟩
    refine ⟨m, fun y hy => ?_, hp⟩
    rcases List.mem_cons.mp hy with rfl | hy
    · exact hlt
    · exact List.lt_trans hlt ((List.pairwise_cons.mp reading.sorted).1 y hy)

/-- Where all entries are left, those in the folder have no manager yet. -/
theorem start (hin : home <+: loc)
    (all : ∀ m k, Engaged project site home (loc ++ [m]) k → m ∈ entries.map Prod.fst)
    (h : ∀ l, Manned project site home l .manager →
      (D l .manager ↔ Location.Before l loc ∨ l = loc)) :
    Upto project site home D loc entries := by
  intro l hl
  rw [h l hl]
  refine or_congr Iff.rfl (or_iff_left ?_).symm
  rintro ⟨m, hlt, hp⟩
  obtain ⟨x, hx, rfl⟩ := List.mem_map.mp (all m _ (.manager (hl.manager_above hin hp)))
  exact List.lt_irrefl _ (hlt x hx)

/-- Behind an entry, those below it have a manager too. -/
theorem next (hin : home <+: loc) (reading : Reading project site home loc (x :: entries))
    (h : Upto project site home D loc (x :: entries)) :
    Upto project site home (Grown D (Engaged project site home) loc [x.1]) loc entries := by
  intro l hl
  have hfirst := (List.pairwise_cons.mp reading.sorted).1
  constructor
  · rintro (hd | ⟨n, hn, hp, -⟩)
    · refine ((h l hl).mp hd).imp_right (Or.imp_right ?_)
      rintro ⟨m, hlt, hp⟩
      exact ⟨m, fun y hy => hlt y (List.mem_cons_of_mem _ hy), hp⟩
    · rw [List.mem_singleton.mp hn] at hp
      exact Or.inr (Or.inr ⟨x.1, hfirst, hp⟩)
  · rintro (hbefore | rfl | ⟨m, hlt, hp⟩)
    · exact Or.inl ((h l hl).mpr (Or.inl hbefore))
    · exact Or.inl ((h _ hl).mpr (Or.inr (Or.inl rfl)))
    rcases reading.rest m _ (.manager (hl.manager_above hin hp)) with hm | hless
    · rw [List.map_cons, List.mem_cons] at hm
      rcases hm with rfl | hm
      · exact Or.inr ⟨x.1, List.mem_singleton.mpr rfl, hp, .manager hl⟩
      · obtain ⟨y, hy, rfl⟩ := List.mem_map.mp hm
        exact absurd (hlt y hy) (List.lt_irrefl _)
    · exact Or.inl ((h l hl).mpr (Or.inr (Or.inr ⟨m, hless, hp⟩)))

end Upto

/-- The agent is that of the location; the first of all is that of the root. -/
structure Stands (first : Nat) (home loc : Location) (k : Kind) (a : Agent) : Prop where
  kind : a.kind = k
  scope : a.scope = Roster.scopeOf k (pathOf loc)
  top : a.id = ⟨first⟩ ↔ loc = home

/-- A new child does not change whose agent it is. -/
theorem stands_link {first : Nat} {l : Location} {a : Agent} {p : Prop} [Decidable p]
    {children : Table ChildLink} : Stands first home l k (if p then { a with children := children } else a) ↔
      Stands first home l k a := by
  split
  · exact ⟨fun h => ⟨h.kind, h.scope, h.top⟩, fun h => ⟨h.kind, h.scope, h.top⟩⟩
  · exact Iff.rfl

/-- **How far building is:** the agents so far are those of the locations of `D`, all of them engaged,
and the folders among them have been given their notes. -/
structure Survey (project : Project) (site : Site) (home : Location) (first : Nat)
    (D : Location → Kind → Prop) (b : Roster.Progress) : Prop where
  placed : ∀ a ∈ b.agents, ∃ l k, D l k ∧ Stands first home l k a
  staffed : ∀ l k, D l k → ∃ a ∈ b.agents, Stands first home l k a
  numbered : first < b.nextNumber
  engaged : ∀ l k, D l k → Engaged project site home l k
  files : Supplied (fun l => D l .manager) site.files b.files
  opened : ∀ l, D l .manager → Admitted (Project.docPath (pathOf l))

namespace Survey

variable {D D' : Location → Kind → Prop} {first now levels : Nat} {b b' : Roster.Progress}
  {parent : AgentId} {entries : List (String × Entry)} {x : String × Entry}

theorem of_iff (h : Survey project site home first D b) (same : ∀ l k, D' l k ↔ D l k) :
    Survey project site home first D' b := by
  obtain rfl : D' = D := by
    funext l k
    exact propext (same l k)
  exact h

/-- The files when a folder is read, which are those when it is come to. -/
theorem asRead (h : Survey project site home first D b) (hin : home <+: loc)
    (upto : Upto project site home D loc (x :: entries))
    (reading : Reading project site home loc (x :: entries)) :
    AsRead project site home (loc ++ [x.1]) b.files := by
  refine h.files.of_iff fun l => ?_
  constructor
  · rintro ⟨hl, heq | hbefore⟩
    · rw [heq] at hl ⊢
      exact (upto.before_iff reading hl).mpr (Location.before_of_inside hin)
    · exact (upto.before_iff reading hl).mpr hbefore
  · intro hd
    have hl := Engaged.manager_iff.mp (h.engaged l _ hd)
    exact ⟨hl, Or.inr ((upto.before_iff reading hl).mp hd)⟩

/-- **The agent of an entry is added.** -/
theorem add (h : Survey project site home first D b) (hin : home <+: loc)
    (here : Engaged project site home (loc ++ [n]) k)
    (done : Roster.add project now parent k (pathOf (loc ++ [n])) n b = .ok b') :
    Survey project site home first (Mirror.Added D (loc ++ [n]) k) b' := by
  obtain ⟨files, hfiles, rfl⟩ := Roster.add_cases done
  have hsupplied : Supplied (fun l => Mirror.Added D (loc ++ [n]) k l .manager) site.files files ∧
      (k = .manager → Admitted (Project.docPath (pathOf (loc ++ [n])))) := by
    split at hfiles
    · next hk =>
      subst hk
      obtain ⟨hsupplied, r, hwalk⟩ := h.files.ensureDoc (prepare_eq_ok hfiles)
      refine ⟨hsupplied.of_iff fun l => ?_, fun _ => (walk_eq_ok.mp hwalk).1⟩
      simp [Mirror.Added]
    · next hk =>
      cases hfiles
      refine ⟨h.files.of_iff fun l => ?_, fun hk' => absurd hk' hk⟩
      simp [Mirror.Added, Ne.symm hk]
  have hnew : Stands first home (loc ++ [n]) k (Agent.fresh ⟨b.nextNumber⟩ k
      (project.displayName (pathOf (loc ++ [n]))) (Roster.scopeOf k (pathOf (loc ++ [n])))
      (some parent) now) := by
    refine ⟨rfl, rfl, iff_of_false (fun hid => ?_) (concat_ne_home hin)⟩
    have hnumber : b.nextNumber = first := congrArg AgentId.number hid
    exact absurd h.numbered (by omega)
  constructor
  case placed =>
    intro a ha
    rcases List.mem_append.mp ha with ha | ha
    · obtain ⟨a', ha', rfl⟩ := List.mem_map.mp ha
      obtain ⟨l, k', hd, hstands⟩ := h.placed a' ha'
      exact ⟨l, k', Or.inl hd, stands_link.mpr hstands⟩
    · rw [List.mem_singleton.mp ha]
      exact ⟨loc ++ [n], k, Or.inr ⟨rfl, rfl⟩, hnew⟩
  case staffed =>
    rintro l k' (hd | ⟨rfl, rfl⟩)
    · obtain ⟨a, ha, hstands⟩ := h.staffed l k' hd
      exact ⟨_, List.mem_append_left _ (List.mem_map_of_mem ha), stands_link.mpr hstands⟩
    · exact ⟨_, List.mem_append_right _ (List.mem_singleton.mpr rfl), hnew⟩
  case numbered => exact Nat.lt_succ_of_lt h.numbered
  case engaged =>
    rintro l k' (hd | ⟨rfl, rfl⟩)
    · exact h.engaged l k' hd
    · exact here
  case files => exact hsupplied.1
  case opened =>
    rintro l (hd | ⟨rfl, hk⟩)
    · exact h.opened l hd
    · exact hsupplied.2 hk.symm

/-- Going through the entries of a folder surveys all who are engaged below them. -/
def Sweeps (project : Project) (site : Site) (home : Location) (first now levels : Nat) : Prop :=
  ∀ {D : Location → Kind → Prop} {loc : Location} {parent : AgentId}
    {entries : List (String × Entry)} {b b' : Roster.Progress},
    Survey project site home first D b → D loc .manager →
    Reading project site home loc entries → Upto project site home D loc entries →
    (∀ l k, Engaged project site home l k → loc <+: l → l.length ≤ loc.length + levels) →
    Roster.addBelow project site now levels parent (pathOf loc) loc entries b = .ok b' →
    Survey project site home first
      (Grown D (Engaged project site home) loc (entries.map Prod.fst)) b'

/-- One entry is surveyed with everybody below it. -/
theorem sweep_entry (inner : Sweeps project site home first now levels)
    (h : Survey project site home first D b) (above : D loc .manager)
    (reading : Reading project site home loc (x :: entries))
    (upto : Upto project site home D loc (x :: entries))
    (deep : ∀ l k, Engaged project site home l k → loc <+: l → l.length ≤ loc.length + (levels + 1))
    (done : Roster.addBelow project site now (levels + 1) parent (pathOf loc) loc [x] b = .ok b') :
    Survey project site home first (Grown D (Engaged project site home) loc [x.1]) b' := by
  obtain ⟨n, entry⟩ := x
  have hmanned := Engaged.manager_iff.mp (h.engaged loc _ above)
  have hin := hmanned.inside
  have hiff := fun k' => reading.engaged_iff (k := k') List.mem_cons_self hmanned
  have hnamed := reading.named List.mem_cons_self
  rw [Roster.addBelow_singleton, Path.joinName_pathOf hnamed.left hnamed.last.1] at done
  cases hkind : Roster.entryKind? project site (pathOf (loc ++ [n])) entry with
  | none =>
    rw [hkind] at done
    cases done
    refine h.of_iff (Census.grown_of_unmanned Engaged.branches hin fun k' hk' => ?_)
    have hsome := (hiff k').mp hk'
    rw [hkind] at hsome
    cases hsome
  | some kind =>
    rw [hkind] at done
    obtain ⟨mid, hadd, hinner⟩ := bind_eq_ok.mp done
    have hhere := (hiff kind).mpr hkind
    have hadded := h.add hin hhere hadd
    rcases hhere.kind_cases with rfl | rfl
    · rw [if_pos rfl] at hinner
      have hin' : home <+: loc ++ [n] := hin.trans (List.prefix_append _ _)
      have hread := h.asRead hin upto reading
      have hall : ∀ m k, Engaged project site home (loc ++ [n] ++ [m]) k →
          m ∈ (b.files.children (loc ++ [n])).map Prod.fst := by
        intro m k he
        obtain ⟨-, found, hfind, -⟩ := (engaged_concat_iff hin' hread).mp he
        exact List.mem_map.mpr ⟨(m, found), hread.sound.mem_children.mpr hfind, rfl⟩
      have hupto : Upto project site home (Mirror.Added D (loc ++ [n]) .manager) (loc ++ [n])
          (b.files.children (loc ++ [n])) := by
        refine .start hin' hall fun l hl => ?_
        simp only [Mirror.Added, and_true, upto.before_iff reading hl]
      have hdeep : ∀ l k, Engaged project site home l k → loc ++ [n] <+: l →
          l.length ≤ (loc ++ [n]).length + levels := by
        intro l k hl hp
        have hle := deep l k hl ((List.prefix_append _ _).trans hp)
        rw [List.length_append, List.length_singleton]
        omega
      exact (inner hadded (Or.inr ⟨rfl, rfl⟩) (.of_children hin' hread) hupto hdeep hinner).of_iff
        (Census.grown_of_manager Engaged.branches hin hhere hall)
    · rw [if_neg (by simp)] at hinner
      cases hinner
      exact hadded.of_iff (Census.grown_of_coder Engaged.branches hin hhere)

/-- **All entries of a folder are gone through.** -/
theorem sweeps (levels : Nat) : Sweeps project site home first now levels := by
  induction levels with
  | zero =>
    intro D loc parent entries b b' h above reading upto deep done
    cases done
    refine h.of_iff fun l k => ⟨?_, Or.inl⟩
    rintro (hd | ⟨n, -, hp, hl⟩)
    · exact hd
    · have hbelow := (List.prefix_append loc [n]).trans hp
      rw [← hbelow.eq_of_length_le (deep l k hl hbelow)] at hp
      exact absurd hp (Location.not_concat_prefix List.prefix_rfl)
  | succ levels inner =>
    intro D loc parent entries b b' h above reading upto deep done
    induction entries generalizing D b with
    | nil =>
      cases done
      exact h.of_iff fun l k => by simp [Grown]
    | cons x rest ih =>
      rw [Roster.addBelow_cons] at done
      obtain ⟨next, hfirst, hmore⟩ := bind_eq_ok.mp done
      have hin := (h.engaged loc _ above).inside
      have hnext := sweep_entry inner h above reading upto deep hfirst
      exact (ih hnext (Or.inl above) reading.tail (upto.next hin reading) hmore).of_iff
        (Census.grown_cons _)

end Survey

/-! ### The roster -/

/-- Where a path to the notes of a folder is taken, so is that of the folder. -/
theorem admitted_of_notes (hn : loc.Named) (h : Admitted (Project.docPath (pathOf loc))) :
    Admitted (pathOf loc) := by
  obtain ⟨more, hmore⟩ := exists_text_concat loc (Project.docName loc)
  have hclean := h.noNul
  have hshort := h.short
  rw [Project.docPath_pathOf hn, hmore] at hclean hshort
  rw [String.toList_append, List.contains_append, Bool.or_eq_false_iff] at hclean
  rw [String.utf8ByteSize_append] at hshort
  exact ⟨hclean.1, by simp [pathOf], by omega⟩

/-- Where the notes of a folder can be found, its path leads to it. -/
theorem walk_of_notes {r : Location} (sound : fs.Sound) (hn : loc.Named)
    (folder : fs.find? loc = some .folder)
    (notes : fs.walk .followed (Project.docPath (pathOf loc)) = .ok r) :
    fs.walk .followed (pathOf loc) = .ok loc := by
  have hclear := sound.tree.clear_folder folder
  have hadmitted := admitted_of_notes hn (walk_eq_ok.mp notes).1
  rw [Project.docPath_pathOf hn] at notes
  have hdoc := hn.concat (Project.isName_docName hn)
  obtain ⟨-, hwalk⟩ := walk_eq_ok.mp notes
  rw [Path.steps_pathOf hdoc] at hwalk
  obtain ⟨mid, links, hmid, -⟩ := walkFrom_append (by simp) hwalk
  have hclear' : fs.Clear ([] ++ loc) := hclear
  refine (walk_pathOf_iff hn hclear).mpr ⟨⟨hadmitted.noNul, hadmitted.short,
    walkFrom_names hn hclear' hmid⟩, fun part hp hne => ?_⟩
  exact sound.tree.folders (by rw [folder]; simp) hp hne

theorem Manned.find?_folder (h : Manned project site home loc .manager)
    (folder : site.files.find? home = some .folder) : site.files.find? loc = some .folder := by
  cases h with
  | home => exact folder
  | entry above seen found kind => rw [found, kindOf?_eq_manager.mp kind]

/-- Nobody is engaged deeper than there are files. -/
theorem Engaged.length_le (h : Engaged project site home loc k) (sound : fs.Sound)
    (folder : site.files.find? home = some .folder)
    (folders : ∀ l, site.files.find? l = some .folder → fs.find? l = some .folder) :
    loc.length ≤ fs.entries.length + 1 := by
  have hle : ∀ l, Manned project site home l .manager → l.length ≤ fs.entries.length := by
    intro l hl
    exact sound.length_le (by rw [folders l (hl.find?_folder folder)]; simp)
  cases h with
  | manager manned => exact (hle loc manned).trans (Nat.le_succ _)
  | coder above => simpa using hle _ above

/-- Before the root is read, its folder alone has been given its notes. -/
theorem earlier_home (l : Location) : Earlier project site home home l ↔ l = home := by
  constructor
  · rintro ⟨hl, heq | hbefore⟩
    · exact heq
    · exact absurd hbefore (Location.not_before_of_prefix hl.inside)
  · rintro rfl
    exact ⟨.home, Or.inl rfl⟩

/-- The root's manager is the first agent. -/
theorem survey_root (first now : Nat) (root : project.root = pathOf home)
    (files : Supplied (fun l => l = home) site.files fs)
    (opened : Admitted (Project.docPath (pathOf home))) :
    Survey project site home first (fun l k => l = home ∧ k = .manager)
      ⟨fs, [Agent.fresh ⟨first⟩ .manager (project.displayName project.root)
        (.folder project.root) none now], first + 1⟩ := by
  have hstands : Stands first home home .manager (Agent.fresh ⟨first⟩ .manager
      (project.displayName project.root) (.folder project.root) none now) :=
    ⟨rfl, by rw [root]; rfl, iff_of_true rfl rfl⟩
  constructor
  case placed =>
    intro a ha
    rw [List.mem_singleton.mp ha]
    exact ⟨home, .manager, ⟨rfl, rfl⟩, hstands⟩
  case staffed =>
    rintro l k ⟨rfl, rfl⟩
    exact ⟨_, List.mem_singleton.mpr rfl, hstands⟩
  case numbered => exact Nat.lt_succ_self first
  case engaged =>
    rintro l k ⟨rfl, rfl⟩
    exact .manager .home
  case files => exact files.of_iff fun l => by simp
  case opened =>
    rintro l ⟨rfl, -⟩
    exact opened

/-- **Whom the roster of a project has, and which files there are afterwards:** the agents are those of
the locations that are engaged, and every folder with a manager has been given its notes. -/
theorem survey_of_build {site' : Site} {first now next : Nat} {roster : Roster}
    (sound : site.files.Sound) (root : project.root = pathOf home) (hn : home.Named)
    (folder : site.files.find? home = some .folder)
    (built : Roster.build project site first now = .ok (roster, site', next)) :
    Survey project site home first (Engaged project site home) ⟨site'.files, roster.agents, next⟩ ∧
      roster.root = ⟨first⟩ ∧ site'.scratch = site.scratch ∧
      site'.files.status true project.root = .ok (home, .folder) := by
  obtain ⟨files, hprepare, built⟩ := bind_eq_ok.mp built
  have hdoc := prepare_eq_ok hprepare
  rw [root] at hdoc
  obtain ⟨hensured, r, hnotes⟩ := (Supplied.start sound).ensureDoc hdoc
  have hsupplied : Supplied (fun l => l = home) site.files files := hensured.of_iff fun l => by simp
  have hfolder := hsupplied.old folder
  have hwalk := walk_of_notes hsupplied.sound hn hfolder hnotes
  have hread : AsRead project site home home files := hsupplied.of_iff earlier_home
  have hall : ∀ m k, Engaged project site home (home ++ [m]) k →
      m ∈ (files.children home).map Prod.fst := by
    intro m k he
    obtain ⟨-, found, hfind, -⟩ := (engaged_concat_iff List.prefix_rfl hread).mp he
    exact List.mem_map.mpr ⟨(m, found), hread.sound.mem_children.mpr hfind, rfl⟩
  have hupto : Upto project site home (fun l k => l = home ∧ k = .manager) home
      (files.children home) := by
    refine .start List.prefix_rfl hall fun l hl => ?_
    have hnot := Location.not_before_of_prefix hl.inside
    simp [hnot]
  have hdeep : ∀ l k, Engaged project site home l k → home <+: l →
      l.length ≤ home.length + (files.entries.length + 1) := by
    intro l k he _
    have hle := he.length_le hsupplied.sound folder fun _ hfind => hsupplied.old hfind
    omega
  have hfirst := survey_root first now root hsupplied (walk_eq_ok.mp hnotes).1
  rw [root] at built hfirst
  simp only [hwalk, Except.toOption, Option.getD_some] at built
  obtain ⟨b, hbelow, built⟩ := bind_eq_ok.mp built
  cases built
  have hswept := Survey.sweeps _ hfirst ⟨rfl, rfl⟩ (.of_children List.prefix_rfl hread) hupto hdeep
    hbelow
  have hsurvey := hswept.of_iff
    (Census.grown_of_root Engaged.branches (fun _ _ he => he.inside) (.manager .home) hall)
  have hthere : b.files.find? home = some .folder := hsurvey.files.old folder
  have hsame := hsupplied.sameWays
  have hwalk' : b.files.walk .followed (pathOf home) = .ok home := by
    refine walk_of_ways (fun l entry leads hfind => ?_) (hthere.trans hfolder.symm) hwalk
    exact hsurvey.files.old (hsame.back l entry leads hfind)
  refine ⟨hsurvey, rfl, rfl, ?_⟩
  rw [root]
  exact status_eq_ok.mpr ⟨hwalk', hthere⟩

end Arbor
