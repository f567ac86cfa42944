import Arbor.Proofs.Mirror
import Arbor.Proofs.Roster

/-! # The roster of a project mirrors its files

Building the roster walks the folders of a project and gives each its notes. Notes have no agent, so
the locations that have one are the same before and after.

* `Noted`: the files with notes that were not there before.
* `mirror_of_rooted`: the agents of the roster mirror the locations that have an agent.
* `build_of_notes`: where every folder has its notes, the roster is built and the files stay.
* `Opened`: an engine that was started on a project without links. -/

namespace Arbor

open FileSystem

variable {project : Project} {site : Site} {home loc : Location} {k : Kind}
  {fs fs' fs'' : FileSystem}

/-! ### Notes -/

/-- **The second file system has empty notes that the first has not,** and is the same else. -/
structure Noted (fs fs' : FileSystem) : Prop where
  sound : fs.Sound → fs'.Sound
  same : ∀ loc, fs'.find? loc = fs.find? loc ∨ fs.find? loc = none ∧
    fs'.find? loc = some (.file "".toUTF8) ∧
    ∃ dir : Location, dir.Named ∧ loc = dir ++ [Project.docName dir]

namespace Noted

theorem refl (fs : FileSystem) : Noted fs fs := ⟨id, fun _ => Or.inl rfl⟩

theorem kept (h : Noted fs fs') {entry : Entry} (found : fs.find? loc = some entry) :
    fs'.find? loc = some entry := by
  rcases h.same loc with hsame | ⟨hnone, -⟩
  · exact hsame.trans found
  · rw [found] at hnone
    cases hnone

theorem trans (h : Noted fs fs') (h' : Noted fs' fs'') : Noted fs fs'' where
  sound hs := h'.sound (h.sound hs)
  same loc := by
    rcases h'.same loc with hsame' | ⟨hnone', hfile', hdoc'⟩
    · rcases h.same loc with hsame | ⟨hnone, hfile, hdoc⟩
      · exact Or.inl (hsame'.trans hsame)
      · exact Or.inr ⟨hnone, by rwa [hsame'], hdoc⟩
    · rcases h.same loc with hsame | ⟨hnone, hfile, hdoc⟩
      · exact Or.inr ⟨hsame.symm.trans hnone', hfile', hdoc'⟩
      · rw [hfile] at hnone'
        cases hnone'

theorem links (h : Noted fs fs') {t : String} (hlink : fs'.find? loc = some (.link t)) :
    fs.find? loc = some (.link t) := by
  rcases h.same loc with hsame | ⟨-, hfile, -⟩
  · exact hsame.symm.trans hlink
  · rw [hfile] at hlink
    cases hlink

theorem clear (h : Noted fs fs') (hc : fs.Clear loc) : fs'.Clear loc :=
  fun part hp t ht => hc part hp t (h.links ht)

theorem grounded (h : Noted fs fs') (sound : fs.Sound) (hg : project.Grounded fs home) :
    project.Grounded fs' home :=
  ⟨hg.root_eq, hg.named, h.clear hg.clear, fun loc hl t ht => hg.below loc hl t (h.links ht),
    (h.sound sound).tree⟩

theorem rooted (h : Noted fs fs') (sound : fs.Sound) (hg : project.Rooted fs home) :
    project.Rooted fs' home :=
  ⟨hg.root_eq, hg.named, h.clear hg.clear, fun dir hin t ht => hg.notes dir hin t (h.links ht),
    (h.sound sound).tree⟩

/-- What stood somewhere still does. -/
theorem exists? (h : Noted fs fs') (sound : fs.Sound) (hn : loc.Named) (hc : fs.Clear loc)
    (found : fs.exists? (pathOf loc) = true) : fs'.exists? (pathOf loc) = true := by
  obtain ⟨fits, hfind⟩ := (exists?_pathOf sound.tree hn hc).mp found
  obtain ⟨entry, hentry⟩ := Option.ne_none_iff_exists'.mp hfind
  refine (exists?_pathOf (h.sound sound).tree hn (h.clear hc)).mpr ⟨fits, ?_⟩
  rw [h.kept hentry]
  simp

end Noted

/-- Notes have no agent. -/
theorem kindOf?_notes {dir : Location} (hn : dir.Named) (content : ByteArray) :
    Roster.kindOf? project (pathOf (dir ++ [Project.docName dir])) (.file content) = none := by
  have hdoc := Project.isDoc_docPath project hn
  rw [Project.docPath_pathOf hn] at hdoc
  exact if_pos hdoc

/-- So new notes change nothing of who is where. -/
theorem Noted.manned_iff (h : Noted fs fs') {scratch : List Path} :
    Manned project ⟨fs', scratch⟩ home loc k ↔ Manned project ⟨fs, scratch⟩ home loc k := by
  constructor
  · intro hm
    induction hm with
    | home => exact .home
    | @entry loc n entry k above seen found kind ih =>
      rcases h.same (loc ++ [n]) with hsame | ⟨-, hfile, dir, hn, hdoc⟩
      · exact .entry ih seen (hsame.symm.trans found) kind
      · obtain rfl := Option.some.inj (found.symm.trans hfile)
        rw [hdoc, kindOf?_notes hn] at kind
        cases kind
  · intro hm
    induction hm with
    | home => exact .home
    | entry above seen found kind ih => exact .entry ih seen (h.kept found) kind

/-- No link leads to a location that has an agent. -/
theorem Manned.clear (h : Manned project site home loc k)
    (hg : project.Rooted site.files home) : site.files.Clear loc := by
  cases h with
  | home => exact hg.clear
  | @entry up n entry k above seen found kind =>
    intro part hp t hlink
    by_cases hpart : part = up ++ [n]
    · rw [hpart, found] at hlink
      cases hlink
      cases kind
    · rw [hg.tree.folders (by rw [found]; simp) hp hpart] at hlink
      cases hlink

/-- A folder is given its notes. -/
theorem noted_of_ensureDoc (sound : fs.Sound) (hn : loc.Named)
    (hc : fs.Clear (loc ++ [Project.docName loc]))
    (h : Project.ensureDoc fs (pathOf loc) = .ok fs') :
    Noted fs fs' ∧ fs'.exists? (Project.docPath (pathOf loc)) = true := by
  have hdoc := hn.concat (Project.isName_docName hn)
  rw [Project.ensureDoc, Project.docPath_pathOf hn] at h
  rw [Project.docPath_pathOf hn]
  split at h
  · next hexists =>
    cases h
    exact ⟨.refl fs, hexists⟩
  · next hexists =>
    obtain ⟨fits, hne, hparent, hfolder, rfl⟩ := writeText_pathOf hdoc hc h
    have hnone : fs.find? (loc ++ [Project.docName loc]) = none := by
      by_contra hsome
      exact hexists ((exists?_pathOf sound.tree hdoc hc).mpr ⟨fits, hsome⟩)
    have hnoted : Noted fs (fs.insert (loc ++ [Project.docName loc]) (.file "".toUTF8)) := by
      refine ⟨fun hs => hs.insert hdoc (by simp) hparent (Or.inr hfolder), fun l => ?_⟩
      by_cases hl : l = loc ++ [Project.docName loc]
      · subst hl
        exact Or.inr ⟨hnone, find?_insert_self fs _ hne, loc, hn, rfl⟩
      · exact Or.inl (find?_insert_of_ne fs _ hl)
    refine ⟨hnoted, (exists?_pathOf (hnoted.sound sound).tree hdoc (hnoted.clear hc)).mpr
      ⟨fits, ?_⟩⟩
    rw [find?_insert_self fs _ hne]
    simp

/-! ### Going through entries -/

namespace Roster

variable {now levels : Nat} {parent : AgentId} {dir : Path} {b b' : Progress}

/-- The kind of the agent of an entry that agents see. -/
def entryKind? (project : Project) (site : Site) (path : Path) (entry : Entry) : Option Kind :=
  if Project.isSeen site path then kindOf? project path entry else none

/-- **What is done for one entry:** its agent is added, and those below it. -/
theorem addBelow_singleton (n : String) (entry : Entry) :
    addBelow project site now (levels + 1) parent dir loc [(n, entry)] b =
      match entryKind? project site (dir.joinName n) entry with
      | none => .ok b
      | some kind => add project now parent kind (dir.joinName n) n b >>= fun mid =>
        if kind = .manager then
          addBelow project site now levels ⟨b.nextNumber⟩ (dir.joinName n) (loc ++ [n])
            (b.files.children (loc ++ [n])) mid
        else .ok mid := by
  simp only [addBelow, List.foldlM_cons, List.foldlM_nil, bind_pure, entryKind?]
  cases hseen : Project.isSeen site (dir.joinName n) with
  | false => rfl
  | true =>
    rw [if_pos rfl, Bool.not_true, if_neg Bool.false_ne_true]
    rfl

/-- Entries are gone through one after the other. -/
theorem addBelow_cons (x : String × Entry) (rest : List (String × Entry)) :
    addBelow project site now (levels + 1) parent dir loc (x :: rest) b =
      addBelow project site now (levels + 1) parent dir loc [x] b >>=
        addBelow project site now (levels + 1) parent dir loc rest := by
  simp only [addBelow, List.foldlM_cons, List.foldlM_nil, bind_pure]

end Roster

/-! ### Counting the agents -/

/-- **How far building is:** the agents so far mirror the locations of `D`, which all have an agent,
and the folders among them have their notes. -/
structure Census (project : Project) (site : Site) (home : Location) (D : Location → Kind → Prop)
    (who : Location → AgentId) (b : Roster.Progress) : Prop where
  mirror : Mirror project home D who b.agents
  numbered : ∀ l k, D l k → (who l).number < b.nextNumber
  manned : ∀ l k, D l k → Manned project site home l k
  noted : Noted site.files b.files
  notes : ∀ l, D l .manager → b.files.exists? (Project.docPath (pathOf l)) = true

/-- The locations of `D`, and those below entries of a folder that have an agent. -/
def Grown (D M : Location → Kind → Prop) (loc : Location) (names : List String) :
    Location → Kind → Prop :=
  fun l k => D l k ∨ ∃ n ∈ names, loc ++ [n] <+: l ∧ M l k

namespace Census

variable {D D' : Location → Kind → Prop} {who : Location → AgentId} {b b' : Roster.Progress}
  {n : String} {now : Nat}

theorem of_iff (h : Census project site home D who b) (same : ∀ l k, D' l k ↔ D l k) :
    Census project site home D' who b := by
  obtain rfl : D' = D := by
    funext l k
    exact propext (same l k)
  exact h

/-- **The agent of an entry is added.** -/
theorem add (h : Census project site home D who b) (sound : site.files.Sound)
    (hg : project.Rooted site.files home) (above : D loc .manager)
    (free : ∀ more k', ¬ D (loc ++ n :: more) k')
    (here : Manned project site home (loc ++ [n]) k)
    (done : Roster.add project now (who loc) k (pathOf (loc ++ [n])) n b = .ok b') :
    Census project site home (Mirror.Added D (loc ++ [n]) k)
      (Function.update who (loc ++ [n]) ⟨b.nextNumber⟩) b' := by
  obtain ⟨files, hfiles, rfl⟩ := Roster.add_cases done
  have hnamed := here.named sound hg.named
  have hsound := h.noted.sound sound
  have hroot := h.noted.rooted sound hg
  have hnotes : Noted b.files files ∧ (k = .manager →
      files.exists? (Project.docPath (pathOf (loc ++ [n]))) = true) := by
    split at hfiles
    · next hk =>
      unfold Roster.prepare at hfiles
      split at hfiles
      · next made hdoc =>
        cases hfiles
        obtain ⟨hnoted, hexists⟩ := noted_of_ensureDoc hsound hnamed
          (hroot.clear_notes here.inside (h.noted.clear (here.clear hg))) hdoc
        exact ⟨hnoted, fun _ => hexists⟩
      · cases hfiles
    · next hk =>
      cases hfiles
      exact ⟨.refl _, fun hk' => absurd hk' hk⟩
  constructor
  case mirror =>
    refine h.mirror.add above free (fun l k' hd heq => ?_) now
    have hlt := h.numbered l k' hd
    rw [heq] at hlt
    exact Nat.lt_irrefl _ hlt
  case numbered =>
    rintro l k' (hd | ⟨rfl, -⟩)
    · have hne : l ≠ loc ++ [n] := by
        rintro rfl
        exact free [] k' hd
      rw [Function.update_of_ne hne]
      exact Nat.lt_succ_of_lt (h.numbered l k' hd)
    · rw [Function.update_self]
      exact Nat.lt_succ_self _
  case manned =>
    rintro l k' (hd | ⟨rfl, rfl⟩)
    · exact h.manned l k' hd
    · exact here
  case noted => exact h.noted.trans hnotes.1
  case notes =>
    rintro l (hd | ⟨rfl, hk⟩)
    · have hm := h.manned l _ hd
      have hn := hm.named sound hg.named
      have hold := h.notes l hd
      rw [Project.docPath_pathOf hn] at hold ⊢
      exact hnotes.1.exists? hsound (hn.concat (Project.isName_docName hn))
        (hroot.clear_notes hm.inside (h.noted.clear (hm.clear hg))) hold
    · exact hnotes.2 hk.symm

/-- **The locations branch as a tree does:** each has one kind, and below an entry of a folder there is
something only if the entry is a manager's. -/
structure Branches (home : Location) (M : Location → Kind → Prop) : Prop where
  unique : ∀ {l k k'}, M l k → M l k' → k = k'
  at_entry : ∀ {l k loc n}, M l k → home <+: loc → loc ++ [n] <+: l →
    ∃ k', M (loc ++ [n]) k' ∧ (l = loc ++ [n] ∧ k' = k ∨ k' = .manager ∧ ∃ m, loc ++ [n] ++ [m] <+: l)

theorem branches_manned : Branches home (Manned project site home) :=
  ⟨Manned.unique, Manned.at_entry⟩

section Branches

variable {M : Location → Kind → Prop} (branches : Branches home M)
include branches

/-- An entry without an agent has nobody below it. -/
theorem grown_of_unmanned (hin : home <+: loc) (nobody : ∀ k, ¬ M (loc ++ [n]) k)
    (l : Location) (k : Kind) : Grown D M loc [n] l k ↔ D l k := by
  refine ⟨?_, Or.inl⟩
  rintro (hd | ⟨m, hm, hp, hmanned⟩)
  · exact hd
  · rw [List.mem_singleton.mp hm] at hp
    obtain ⟨k', hk', -⟩ := branches.at_entry hmanned hin hp
    exact absurd hk' (nobody k')

/-- An entry whose agent is a coder has nobody else below it. -/
theorem grown_of_coder (hin : home <+: loc) (here : M (loc ++ [n]) .coder)
    (l : Location) (k : Kind) :
    Grown D M loc [n] l k ↔ Mirror.Added D (loc ++ [n]) .coder l k := by
  constructor
  · rintro (hd | ⟨m, hm, hp, hmanned⟩)
    · exact Or.inl hd
    · rw [List.mem_singleton.mp hm] at hp
      obtain ⟨k', hk', ⟨rfl, rfl⟩ | ⟨rfl, -⟩⟩ := branches.at_entry hmanned hin hp
      · exact Or.inr ⟨rfl, branches.unique hk' here⟩
      · cases branches.unique hk' here
  · rintro (hd | ⟨rfl, rfl⟩)
    · exact Or.inl hd
    · exact Or.inr ⟨n, List.mem_singleton.mpr rfl, List.prefix_rfl, here⟩

/-- Below an entry whose agent is a manager are the agents of its own entries. -/
theorem grown_of_manager {names : List String} (hin : home <+: loc)
    (here : M (loc ++ [n]) .manager) (all : ∀ m k, M (loc ++ [n] ++ [m]) k → m ∈ names)
    (l : Location) (k : Kind) :
    Grown D M loc [n] l k ↔ Grown (Mirror.Added D (loc ++ [n]) .manager) M (loc ++ [n]) names l k := by
  have hin' : home <+: loc ++ [n] := hin.trans (List.prefix_append _ _)
  constructor
  · rintro (hd | ⟨m, hm, hp, hmanned⟩)
    · exact Or.inl (Or.inl hd)
    · rw [List.mem_singleton.mp hm] at hp
      obtain ⟨k', hk', ⟨rfl, rfl⟩ | ⟨-, m', hp'⟩⟩ := branches.at_entry hmanned hin hp
      · exact Or.inl (Or.inr ⟨rfl, branches.unique hk' here⟩)
      · obtain ⟨k'', hk'', -⟩ := branches.at_entry hmanned hin' hp'
        exact Or.inr ⟨m', all m' k'' hk'', hp', hmanned⟩
  · rintro ((hd | ⟨rfl, rfl⟩) | ⟨m, -, hp, hmanned⟩)
    · exact Or.inl hd
    · exact Or.inr ⟨n, List.mem_singleton.mpr rfl, List.prefix_rfl, here⟩
    · exact Or.inr ⟨n, List.mem_singleton.mpr rfl, (List.prefix_append _ _).trans hp, hmanned⟩

/-- The root and all that is below its entries are all there is. -/
theorem grown_of_root {names : List String} (inside : ∀ l k, M l k → home <+: l)
    (top : M home .manager) (all : ∀ m k, M (home ++ [m]) k → m ∈ names) (l : Location) (k : Kind) :
    M l k ↔ Grown (fun l k => l = home ∧ k = .manager) M home names l k := by
  constructor
  · intro hm
    obtain ⟨more, rfl⟩ := inside l k hm
    cases more with
    | nil =>
      rw [List.append_nil] at hm ⊢
      exact Or.inl ⟨rfl, branches.unique hm top⟩
    | cons n more =>
      have hp : home ++ [n] <+: home ++ n :: more := by simp
      obtain ⟨k', hk', -⟩ := branches.at_entry hm List.prefix_rfl hp
      exact Or.inr ⟨n, all n k' hk', hp, hm⟩
  · rintro (⟨rfl, rfl⟩ | ⟨n, -, -, hm⟩)
    · exact top
    · exact hm

end Branches

theorem grown_cons {names : List String} (M : Location → Kind → Prop) (l : Location) (k : Kind) :
    Grown D M loc (n :: names) l k ↔ Grown (Grown D M loc [n]) M loc names l k := by
  simp only [Grown, List.mem_cons, List.not_mem_nil, or_false, exists_eq_or_imp, exists_eq_left,
    or_assoc]

/-- The entries are those of a folder, as it was when some folders had been given their notes. -/
structure Entries (site : Site) (loc : Location) (entries : List (String × Entry)) : Prop where
  distinct : (entries.map Prod.fst).Nodup
  found : ∃ fs, Noted site.files fs ∧ ∀ x ∈ entries, fs.find? (loc ++ [x.1]) = some x.2

theorem Entries.of_children {fs : FileSystem} (sound : site.files.Sound)
    (noted : Noted site.files fs) (loc : Location) : Entries site loc (fs.children loc) where
  distinct := (noted.sound sound).nodup_children loc
  found := ⟨fs, noted, fun _ hx => (noted.sound sound).mem_children.mp hx⟩

theorem Entries.tail {x : String × Entry} {rest : List (String × Entry)}
    (h : Entries site loc (x :: rest)) : x.1 ∉ rest.map Prod.fst ∧ Entries site loc rest := by
  have hdistinct := h.distinct
  rw [List.map_cons, List.nodup_cons] at hdistinct
  obtain ⟨fs, hnoted, hfound⟩ := h.found
  exact ⟨hdistinct.1, hdistinct.2, fs, hnoted, fun y hy => hfound y (List.mem_cons_of_mem _ hy)⟩

theorem Entries.named {x : String × Entry} {entries : List (String × Entry)}
    (h : Entries site loc entries) (sound : site.files.Sound) (hx : x ∈ entries) :
    Location.Named (loc ++ [x.1]) := by
  obtain ⟨fs, hnoted, hfound⟩ := h.found
  refine (hnoted.sound sound).named_of_find? ?_
  rw [hfound x hx]
  simp

/-- The agent of an entry. -/
theorem Entries.manned_iff {x : String × Entry} {entries : List (String × Entry)}
    (h : Entries site loc entries) (hx : x ∈ entries)
    (above : Manned project site home loc .manager) :
    Manned project site home (loc ++ [x.1]) k ↔
      Roster.entryKind? project site (pathOf (loc ++ [x.1])) x.2 = some k := by
  obtain ⟨fs, hnoted, hfound⟩ := h.found
  obtain ⟨files, scratch⟩ := site
  rw [← hnoted.manned_iff, Manned.concat_iff above.inside, hnoted.manned_iff, Roster.entryKind?,
    Option.ite_none_right_eq_some]
  have hseen : Project.isSeen ⟨fs, scratch⟩ (pathOf (loc ++ [x.1])) =
      Project.isSeen ⟨files, scratch⟩ (pathOf (loc ++ [x.1])) := rfl
  rw [hseen]
  constructor
  · rintro ⟨-, seen, entry, hentry, kind⟩
    obtain rfl := Option.some.inj ((hfound x hx).symm.trans hentry)
    exact ⟨seen, kind⟩
  · rintro ⟨seen, kind⟩
    exact ⟨above, seen, x.2, hfound x hx, kind⟩

variable {levels : Nat} {entries : List (String × Entry)}

/-- Going through entries counts all who are below them, and whoever was counted keeps its identity. -/
def Counts (project : Project) (site : Site) (home : Location) (now levels : Nat) : Prop :=
  ∀ {D : Location → Kind → Prop} {who : Location → AgentId} {loc : Location}
    {entries : List (String × Entry)} {b b' : Roster.Progress},
    Census project site home D who b → D loc .manager → Entries site loc entries →
    (∀ n ∈ entries.map Prod.fst, ∀ more k', ¬ D (loc ++ n :: more) k') →
    (∀ l k', Manned project site home l k' → loc <+: l → l.length ≤ loc.length + levels) →
    Roster.addBelow project site now levels (who loc) (pathOf loc) loc entries b = .ok b' →
    ∃ who', Census project site home
      (Grown D (Manned project site home) loc (entries.map Prod.fst)) who' b' ∧
      ∀ l k', D l k' → who' l = who l

/-- One entry is counted with everybody below it. -/
theorem count_entry {entry : Entry} (inner : Counts project site home now levels)
    (sound : site.files.Sound) (hg : project.Rooted site.files home)
    (h : Census project site home D who b) (above : D loc .manager)
    (here : Entries site loc entries) (hx : (n, entry) ∈ entries)
    (free : ∀ more k', ¬ D (loc ++ n :: more) k')
    (deep : ∀ l k', Manned project site home l k' → loc <+: l →
      l.length ≤ loc.length + (levels + 1))
    (done : Roster.addBelow project site now (levels + 1) (who loc) (pathOf loc) loc [(n, entry)] b =
      .ok b') :
    ∃ who', Census project site home (Grown D (Manned project site home) loc [n]) who' b' ∧
      ∀ l k', D l k' → who' l = who l := by
  have hmanned := h.manned loc _ above
  have hiff := fun k' => here.manned_iff (k := k') hx hmanned
  have hnamed := here.named sound hx
  rw [Roster.addBelow_singleton, Path.joinName_pathOf hnamed.left hnamed.last.1] at done
  cases hkind : Roster.entryKind? project site (pathOf (loc ++ [n])) entry with
  | none =>
    rw [hkind] at done
    cases done
    refine ⟨who, h.of_iff (grown_of_unmanned branches_manned hmanned.inside fun k' hk' => ?_),
      fun _ _ _ => rfl⟩
    have hsome := (hiff k').mp hk'
    rw [hkind] at hsome
    cases hsome
  | some kind =>
    rw [hkind] at done
    obtain ⟨mid, hadd, hinner⟩ := bind_eq_ok.mp done
    have hhere := (hiff kind).mpr hkind
    have hadded := h.add sound hg above free hhere hadd
    have hkeep : ∀ l k', D l k' → Function.update who (loc ++ [n]) ⟨b.nextNumber⟩ l = who l := by
      intro l k' hd
      refine Function.update_of_ne ?_ _ _
      rintro rfl
      exact free [] k' hd
    rcases hhere.kind_cases with rfl | rfl
    · have hself : Function.update who (loc ++ [n]) ⟨b.nextNumber⟩ (loc ++ [n]) = ⟨b.nextNumber⟩ :=
        Function.update_self ..
      rw [if_pos rfl, ← hself] at hinner
      have hbelow : ∀ m ∈ (b.files.children (loc ++ [n])).map Prod.fst, ∀ more k',
          ¬ Mirror.Added D (loc ++ [n]) .manager (loc ++ [n] ++ m :: more) k' := by
        rintro m - more k' (hd | ⟨heq, -⟩)
        · rw [List.append_assoc] at hd
          exact free _ k' hd
        · simp at heq
      have hdeep : ∀ l k', Manned project site home l k' → loc ++ [n] <+: l →
          l.length ≤ (loc ++ [n]).length + levels := by
        intro l k' hl hp
        have hle := deep l k' hl ((List.prefix_append _ _).trans hp)
        rw [List.length_append, List.length_singleton]
        omega
      obtain ⟨who', hcensus, hkeep'⟩ := inner hadded (Or.inr ⟨rfl, rfl⟩)
        (.of_children sound h.noted _) hbelow hdeep hinner
      refine ⟨who', hcensus.of_iff (grown_of_manager branches_manned hmanned.inside hhere
          fun m k' hm => ?_), fun l k' hd => (hkeep' l k' (Or.inl hd)).trans (hkeep l k' hd)⟩
      obtain ⟨-, -, entry', found, -⟩ := (Manned.concat_iff hhere.inside).mp hm
      exact List.mem_map.mpr ⟨(m, entry'),
        (h.noted.sound sound).mem_children.mpr (h.noted.kept found), rfl⟩
    · rw [if_neg (by simp)] at hinner
      cases hinner
      exact ⟨_, hadded.of_iff (grown_of_coder branches_manned hmanned.inside hhere), hkeep⟩

/-- **All entries of a folder are gone through.** -/
theorem counts (sound : site.files.Sound) (hg : project.Rooted site.files home)
    (levels : Nat) : Counts project site home now levels := by
  induction levels with
  | zero =>
    intro D who loc entries b b' h above here free deep done
    cases done
    refine ⟨who, h.of_iff fun l k' => ⟨?_, Or.inl⟩, fun _ _ _ => rfl⟩
    rintro (hd | ⟨n, -, hp, hmanned⟩)
    · exact hd
    · have hbelow := (List.prefix_append loc [n]).trans hp
      rw [← hbelow.eq_of_length_le (deep l k' hmanned hbelow)] at hp
      exact absurd hp (Location.not_concat_prefix List.prefix_rfl)
  | succ levels inner =>
    intro D who loc entries b b' h above here free deep done
    induction entries generalizing D who b with
    | nil =>
      cases done
      exact ⟨who, h.of_iff fun l k' => by simp [Grown], fun _ _ _ => rfl⟩
    | cons x rest ih =>
      obtain ⟨hother, hrest⟩ := here.tail
      rw [Roster.addBelow_cons] at done
      obtain ⟨next, hfirst, hmore⟩ := bind_eq_ok.mp done
      obtain ⟨who', hcensus, hkeep⟩ := count_entry inner sound hg h above here List.mem_cons_self
        (free x.1 (by simp)) deep hfirst
      have hfree : ∀ m ∈ rest.map Prod.fst, ∀ more k',
          ¬ Grown D (Manned project site home) loc [x.1] (loc ++ m :: more) k' := by
        rintro m hm more k' (hd | ⟨n, hn, hp, -⟩)
        · exact free m (by simp [hm]) more k' hd
        · rw [List.mem_singleton.mp hn, List.prefix_append_right_inj] at hp
          obtain ⟨rfl, -⟩ := List.cons_prefix_cons.mp hp
          exact hother hm
      rw [← hkeep loc _ above] at hmore
      obtain ⟨who'', hlast, hkeep'⟩ := ih hcensus (Or.inl above) hrest hfree hmore
      exact ⟨who'', hlast.of_iff (grown_cons _),
        fun l k' hd => (hkeep' l k' (Or.inl hd)).trans (hkeep l k' hd)⟩

end Census

/-! ### Building the roster -/

theorem prepare_eq_ok {dir : Path} (h : Roster.prepare fs dir = .ok fs') :
    Project.ensureDoc fs dir = .ok fs' := by
  unfold Roster.prepare at h
  split at h
  · next made hdoc =>
    cases h
    exact hdoc
  · cases h

/-- Where the folder of a project has its notes, its path leads to it. -/
theorem walk_root (hg : project.Rooted fs home)
    (notes : fs.exists? (Project.docPath project.root) = true) :
    fs.walk .followed project.root = .ok home := by
  rw [hg.root_eq, Project.docPath_pathOf hg.named] at notes
  obtain ⟨fits, hfind⟩ := (exists?_pathOf hg.tree (hg.named.concat (Project.isName_docName hg.named))
    (hg.clear_notes List.prefix_rfl hg.clear)).mp notes
  rw [hg.root_eq]
  refine (walk_pathOf_iff hg.named hg.clear).mpr ⟨fits.folder, fun part hp _ => ?_⟩
  refine hg.tree.folders hfind (hp.trans (List.prefix_append _ _)) ?_
  rintro rfl
  exact Location.not_concat_prefix List.prefix_rfl hp

/-- The root's manager is the first agent. -/
theorem census_root (first now : Nat) (sound : site.files.Sound)
    (hg : project.Rooted site.files home)
    (h : Roster.prepare site.files project.root = .ok fs) :
    Census project site home (fun l k => l = home ∧ k = .manager) (fun _ => ⟨first⟩)
      ⟨fs, [Agent.fresh ⟨first⟩ .manager (project.displayName project.root)
        (.folder project.root) none now], first + 1⟩ := by
  have hdoc := prepare_eq_ok h
  rw [hg.root_eq] at hdoc
  obtain ⟨hnoted, hnotes⟩ := noted_of_ensureDoc sound hg.named
    (hg.clear_notes List.prefix_rfl hg.clear) hdoc
  have hfigure : Figure project home (fun l k => l = home ∧ k = .manager) (fun _ => ⟨first⟩) home
      .manager (Agent.fresh ⟨first⟩ .manager (project.displayName project.root)
        (.folder project.root) none now) := by
    refine ⟨rfl, rfl, by rw [hg.root_eq]; rfl, by rw [hg.root_eq]; rfl, (if_pos rfl).symm, ?_⟩
    intro n link
    have hne : home ++ [n] ≠ home := concat_ne_home List.prefix_rfl
    simp [Agent.fresh, hne]
  constructor
  case mirror =>
    constructor
    case inside =>
      rintro l k ⟨rfl, -⟩
      exact List.prefix_rfl
    case above =>
      rintro l n k ⟨heq, -⟩ hne
      exact absurd heq hne
    case unique =>
      rintro l k k' ⟨-, rfl⟩ ⟨-, rfl⟩
      rfl
    case apart =>
      rintro l l' k k' ⟨rfl, -⟩ ⟨rfl, -⟩ -
      rfl
    case manned =>
      rintro l k ⟨rfl, rfl⟩
      exact ⟨_, List.mem_singleton.mpr rfl, hfigure⟩
    case placed =>
      intro a ha
      rw [List.mem_singleton.mp ha]
      exact ⟨home, .manager, ⟨rfl, rfl⟩, hfigure⟩
  case numbered => exact fun l k _ => Nat.lt_succ_self first
  case manned =>
    rintro l k ⟨rfl, rfl⟩
    exact .home
  case noted => exact hnoted
  case notes =>
    rintro l ⟨rfl, -⟩
    exact hnotes

/-- The root and everybody below its entries are all there are. -/
theorem grown_root (sound : fs.Sound) (noted : Noted site.files fs) (l : Location) (k : Kind) :
    Manned project site home l k ↔
      Grown (fun l k => l = home ∧ k = .manager) (Manned project site home) home
        ((fs.children home).map Prod.fst) l k := by
  refine Census.grown_of_root Census.branches_manned (fun _ _ hm => hm.inside) .home
    (fun n k' hk' => ?_) l k
  obtain ⟨-, -, entry, found, -⟩ := (Manned.concat_iff List.prefix_rfl).mp hk'
  exact List.mem_map.mpr ⟨(n, entry), sound.mem_children.mpr (noted.kept found), rfl⟩

/-- **The agents of a roster mirror the locations of the project that have an agent,** and every
folder among them has its notes. Links have no agent. -/
theorem mirror_of_rooted {site' : Site} {first now next : Nat} {roster : Roster}
    (sound : site.files.Sound) (hg : project.Rooted site.files home)
    (h : Roster.build project site first now = .ok (roster, site', next)) :
    Noted site.files site'.files ∧ site'.scratch = site.scratch ∧
      (∀ l, Manned project site' home l .manager →
        site'.files.exists? (Project.docPath (pathOf l)) = true) ∧
      ∃ who, Mirror project home (Manned project site' home) who roster.agents ∧
        who home = roster.root := by
  obtain ⟨files, hprepare, h⟩ := bind_eq_ok.mp h
  have hroot := census_root first now sound hg hprepare
  have hsound : files.Sound := hroot.noted.sound sound
  have hwalk : files.walk .followed project.root = .ok home := by
    refine walk_root (hroot.noted.rooted sound hg) ?_
    rw [hg.root_eq]
    exact hroot.notes home ⟨rfl, rfl⟩
  simp only [hwalk, Except.toOption, Option.getD_some] at h
  obtain ⟨b, hbelow, h⟩ := bind_eq_ok.mp h
  cases h
  rw [hg.root_eq] at hbelow hroot
  have hfree : ∀ n ∈ (files.children home).map Prod.fst, ∀ more (k' : Kind),
      ¬ (home ++ n :: more = home ∧ k' = .manager) := by
    rintro n - more k' ⟨heq, -⟩
    simp at heq
  have hdeep : ∀ l k', Manned project site home l k' → home <+: l →
      l.length ≤ home.length + (files.entries.length + 1) := by
    intro l k' hm hp
    cases hm with
    | home => exact Nat.le_add_right _ _
    | entry above seen found kind =>
      have hlen := hsound.length_le (by rw [hroot.noted.kept found]; simp)
      omega
  obtain ⟨who, hcensus, hkeep⟩ := Census.counts sound hg _ hroot ⟨rfl, rfl⟩
    (.of_children sound hroot.noted home) hfree hdeep hbelow
  have hall := hcensus.of_iff (grown_root hsound hroot.noted)
  have hsame : ∀ l k', Manned project { site with files := b.files } home l k' ↔
      Manned project site home l k' := fun l k' => hall.noted.manned_iff
  exact ⟨hall.noted, rfl, fun l hm => hall.notes l ((hsame l .manager).mp hm), who,
    hall.mirror.of_iff hsame, hkeep home .manager ⟨rfl, rfl⟩⟩

/-- Where every folder has its notes, going through entries succeeds and changes no files. -/
theorem addBelow_of_notes (now levels : Nat) (parent : AgentId) {entries : List (String × Entry)}
    {b : Roster.Progress} (sound : site.files.Sound)
    (notes : ∀ l, Manned project site home l .manager →
      site.files.exists? (Project.docPath (pathOf l)) = true)
    (above : Manned project site home loc .manager) (here : Census.Entries site loc entries)
    (same : b.files = site.files) :
    ∃ b', Roster.addBelow project site now levels parent (pathOf loc) loc entries b = .ok b' ∧
      b'.files = site.files := by
  induction levels generalizing loc parent entries b with
  | zero => exact ⟨b, rfl, same⟩
  | succ levels inner =>
    induction entries generalizing b with
    | nil => exact ⟨b, rfl, same⟩
    | cons x rest ih =>
      obtain ⟨n, entry⟩ := x
      have hnamed := here.named sound List.mem_cons_self
      have hiff := fun k => here.manned_iff (k := k) List.mem_cons_self above
      obtain ⟨mid, hfirst, hmid⟩ : ∃ mid, Roster.addBelow project site now (levels + 1) parent
          (pathOf loc) loc [(n, entry)] b = .ok mid ∧ mid.files = site.files := by
        rw [Roster.addBelow_singleton, Path.joinName_pathOf hnamed.left hnamed.last.1]
        cases hkind : Roster.entryKind? project site (pathOf (loc ++ [n])) entry with
        | none => exact ⟨b, rfl, same⟩
        | some kind =>
          have hhere := (hiff kind).mpr hkind
          simp only [Roster.add]
          by_cases hk : kind = .manager
          · subst hk
            rw [if_pos rfl, Roster.prepare_of_notes (same ▸ notes _ hhere)]
            simp only [if_true, same]
            exact inner _ hhere (.of_children sound (.refl _) _) rfl
          · rw [if_neg hk]
            simp only [if_neg hk]
            exact ⟨_, rfl, same⟩
      obtain ⟨b', hmore, hb'⟩ := ih here.tail.2 hmid
      refine ⟨b', ?_, hb'⟩
      rw [Roster.addBelow_cons, hfirst]
      exact hmore

/-- **Where every folder has its notes, the roster is built,** and the files stay as they are. -/
theorem build_of_notes (sound : site.files.Sound) (hg : project.Grounded site.files home)
    (notes : ∀ l, Manned project site home l .manager →
      site.files.exists? (Project.docPath (pathOf l)) = true) (first now : Nat) :
    ∃ roster next, Roster.build project site first now = .ok (roster, site, next) := by
  have hnotes : site.files.exists? (Project.docPath project.root) = true := by
    rw [hg.root_eq]
    exact notes home .home
  rw [Roster.build_eq (Roster.prepare_of_notes hnotes) (walk_root hg.rooted hnotes), hg.root_eq]
  obtain ⟨b, hbelow, hfiles⟩ := addBelow_of_notes now (site.files.entries.length + 1) ⟨first⟩
    (b := ⟨site.files, [Agent.fresh ⟨first⟩ .manager (project.displayName (pathOf home))
      (.folder (pathOf home)) none now], first + 1⟩) sound notes .home
    (.of_children sound (.refl _) home) rfl
  rw [hbelow]
  obtain ⟨files, scratch⟩ := site
  exact ⟨_, _, by rw [← show b.files = files from hfiles]; rfl⟩

/-! ### Engines -/

/-- **An engine that was started on a project without links,** with the roster of its files, and has not
moved yet. -/
inductive Opened (home : Location) : Engine → Prop where
  | intro {project : Project} {files : FileSystem} {first now next : Nat} {roster : Roster}
      {templates : Turn.Templates} {world : World} {systemRole : Bool}
      (grounded : project.Grounded files home) (sound : files.Sound)
      (build : Roster.build project ⟨files, []⟩ first now = .ok (roster, world.site, next))
      (number : world.nextNumber = next) :
      Opened home (Engine.launch project templates world roster systemRole)

theorem Opened.launched {e : Engine} (h : Opened home e) : Launched e := by
  cases h with
  | intro grounded sound build number => exact .intro build number

theorem shed_opened : Opened ["p"] shedStart := by
  have htree : shed.IsTree := by
    refine isTree_of_forall ?_
    simp only [shed, List.forall_mem_cons]
    exact ⟨rfl, rfl, rfl, by simp⟩
  have hlinks := ne_link_of_forall (show ∀ e ∈ shed.entries, ∀ t, e.2 ≠ .link t by simp [shed])
  exact .intro ⟨rfl, by decide, fun part _ => hlinks part, fun loc _ => hlinks loc, htree⟩
    ⟨htree, by decide, by decide⟩ shed_build rfl

end Arbor
