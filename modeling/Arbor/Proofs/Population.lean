import Arbor.Proofs.Census
import Arbor.Proofs.Naming
import Mathlib.Logic.Relation

/-! # Who is in the roster of a project

The roster of a project has one agent for each entry that agents see, and no other. What agents see
is said of the files alone: an entry that stands below the root, not behind a link, where neither it
nor a folder on the way to it is ignored or a scratch file.

* `Visible`, `Post`: what agents see, and which of it is to have an agent of a kind.
* `Project.displayName_inj`: entries of a project are shown by names of their own.
* `Populates`: the agents of a roster are those of the posts of a project.
* `Roster.build_populates`: so are those of a roster that is built. -/

namespace Arbor

open FileSystem

variable {project : Project} {site : Site} {home loc : Location} {k : Kind}

/-! ### How entries are shown -/

namespace Project

/-- **Entries of a project are shown by names of their own.** -/
theorem displayName_inj {loc' : Location} (root : project.root = pathOf home)
    (hn : loc.Named) (hn' : loc'.Named) (hin : home <+: loc) (hin' : home <+: loc')
    (h : project.displayName (pathOf loc) = project.displayName (pathOf loc')) : loc = loc' := by
  have hhome : home.Named := fun n hm => hn n (hin.subset hm)
  have hrooted : project.root.isAbsolute = true := by
    rw [root]
    exact Path.isAbsolute_pathOf home
  have hheld : project.holds (pathOf loc) = true := by
    rw [holds, root]
    exact (Path.contains_pathOf hhome hn).mpr hin
  have hheld' : project.holds (pathOf loc') = true := by
    rw [holds, root]
    exact (Path.contains_pathOf hhome hn').mpr hin'
  have hpath := displayName_injOn hrooted (Path.normalize_pathOf hn) (Path.normalize_pathOf hn')
    hheld hheld' h
  exact (Path.pathOf_inj hn hn').mp hpath

end Project

/-! ### What agents see -/

/-- **Agents see the entry from the root:** it stands below the root and not behind a link, and
neither it nor a folder on the way to it is ignored or a scratch file. -/
structure Visible (site : Site) (home loc : Location) (entry : Entry) : Prop where
  inside : home <+: loc
  proper : loc ≠ home
  found : site.files.find? loc = some entry
  reached : ∀ part, part <+: loc → part ≠ loc → ∀ t, site.files.find? part ≠ some (.link t)
  seen : ∀ part, home <+: part → part ≠ home → part <+: loc →
    Project.isSeen site (pathOf part) = true

/-- **The locations that are to have an agent of a kind:** the root and the folders that agents see
have a manager, the files that they see and that are no notes have a coder. -/
def Post (project : Project) (site : Site) (home : Location) : Kind → Location → Prop
  | .manager, loc => loc = home ∨ Visible site home loc .folder
  | .coder, loc => (∃ content, Visible site home loc (.file content)) ∧
      project.isDoc (pathOf loc) = false
  | _, _ => False

theorem Visible.of_concat {n : String} {entry : Entry} (h : Visible site home (loc ++ [n]) entry)
    (tree : site.files.IsTree) : loc = home ∨ Visible site home loc .folder := by
  have hin : home <+: loc := by
    rcases List.prefix_concat_iff.mp h.inside with heq | hin
    · exact absurd heq.symm h.proper
    · exact hin
  by_cases hhome : loc = home
  · exact Or.inl hhome
  have hup : loc <+: loc ++ [n] := List.prefix_append loc [n]
  refine Or.inr ⟨hin, hhome, tree.folders (by rw [h.found]; simp) hup (by simp), ?_, ?_⟩
  · intro part hp hne
    refine h.reached part (hp.trans hup) ?_
    rintro rfl
    exact Location.not_concat_prefix List.prefix_rfl hp
  · exact fun part hpart hne hp => h.seen part hpart hne (hp.trans hup)

theorem Visible.concat {n : String} {entry : Entry} (tree : site.files.IsTree)
    (above : loc = home ∨ Visible site home loc .folder)
    (seen : Project.isSeen site (pathOf (loc ++ [n])) = true)
    (found : site.files.find? (loc ++ [n]) = some entry) :
    Visible site home (loc ++ [n]) entry := by
  have hin : home <+: loc := by
    rcases above with rfl | h
    · exact List.prefix_rfl
    · exact h.inside
  refine ⟨hin.trans (List.prefix_append _ _), concat_ne_home hin, found, ?_, ?_⟩
  · intro part hp hne t hlink
    rw [tree.folders (by rw [found]; simp) hp hne] at hlink
    cases hlink
  · intro part hpart hne hp
    rcases List.prefix_concat_iff.mp hp with rfl | hp
    · exact seen
    rcases above with rfl | h
    · exact absurd (hp.eq_of_length_le hpart.length_le) hne
    · exact h.seen part hpart hne hp

theorem kindOf?_eq_coder {path : Path} {entry : Entry} :
    Roster.kindOf? project path entry = some .coder ↔
      (∃ content, entry = .file content) ∧ project.isDoc path = false := by
  cases entry <;> simp [Roster.kindOf?]

theorem kindOf?_eq_manager {path : Path} {entry : Entry} :
    Roster.kindOf? project path entry = some .manager ↔ entry = .folder := by
  cases entry <;> simp [Roster.kindOf?]

/-- **The locations that have an agent are the posts.** -/
theorem manned_iff_post (tree : site.files.IsTree) :
    Manned project site home loc k ↔ Post project site home k loc := by
  constructor
  · intro h
    induction h with
    | home => exact Or.inl rfl
    | @entry loc n entry k above seen found kind ih =>
      have hvisible := Visible.concat tree ih seen found
      rcases (Manned.entry above seen found kind).kind_cases with rfl | rfl
      · rw [kindOf?_eq_manager.mp kind] at hvisible
        exact Or.inr hvisible
      · obtain ⟨⟨content, rfl⟩, hdoc⟩ := kindOf?_eq_coder.mp kind
        exact ⟨⟨content, hvisible⟩, hdoc⟩
  · intro h
    induction loc using List.reverseRecOn generalizing k with
    | nil =>
      have hnone : ∀ {entry}, ¬ Visible site home [] entry := fun h =>
        h.proper (List.prefix_nil.mp h.inside).symm
      cases k with
      | manager =>
        rcases h with rfl | h
        · exact .home
        · exact absurd h hnone
      | coder =>
        obtain ⟨⟨content, h⟩, -⟩ := h
        exact absurd h hnone
      | master | helper => exact absurd h id
    | append_singleton loc n ih =>
      have hentry : ∀ {entry}, Visible site home (loc ++ [n]) entry →
          Roster.kindOf? project (pathOf (loc ++ [n])) entry = some k →
          Manned project site home (loc ++ [n]) k := fun hvisible kind =>
        .entry (ih (k := .manager) (hvisible.of_concat tree))
          (hvisible.seen _ hvisible.inside hvisible.proper List.prefix_rfl) hvisible.found kind
      cases k with
      | manager =>
        rcases h with heq | h
        · rw [heq]
          exact .home
        · exact hentry h (kindOf?_eq_manager.mpr rfl)
      | coder =>
        obtain ⟨⟨content, h⟩, hdoc⟩ := h
        exact hentry h (kindOf?_eq_coder.mpr ⟨⟨content, rfl⟩, hdoc⟩)
      | master | helper => exact absurd h id

/-! ### The agents of the posts -/

/-- **The agents of the roster are those of the posts of the project.** Each post has one agent and
each agent one post; the root's manager alone has nobody above it, and whoever goes up from an agent
comes to it; the children of an agent are those whose parent it is, by the names of their entries. -/
structure Populates (project : Project) (site : Site) (home : Location) (roster : Roster) :
    Prop where
  distinct : (roster.agents.map Agent.id).Nodup
  root : ∃ a ∈ roster.agents, a.id = roster.root ∧ a.kind = .manager ∧
    a.scope = .folder project.root ∧ ∀ b ∈ roster.agents, b.parent = none ↔ b = a
  staffed : ∀ k loc, Post project site home k loc →
    ∃! a, a ∈ roster.agents ∧ a.kind = k ∧ a.scope = Roster.scopeOf k (pathOf loc)
  posted : ∀ a ∈ roster.agents,
    ∃! loc, Post project site home a.kind loc ∧ a.scope = Roster.scopeOf a.kind (pathOf loc)
  child : ∀ p ∈ roster.agents, ∀ a ∈ roster.agents, ∀ n kind,
    (n, ⟨a.id, kind⟩) ∈ p.children ↔ IsName n ∧ kind = a.kind ∧ a.parent = some p.id ∧
      ∃ dir, p.scope = .folder dir ∧ a.scope = Roster.scopeOf a.kind (dir.joinName n)
  linked : ∀ p ∈ roster.agents, ∀ c ∈ p.children, ∃ a ∈ roster.agents, a.id = c.2.id
  names : (roster.agents.map Agent.name).Nodup
  ancestry : ∀ a ∈ roster.agents, Relation.ReflTransGen
    (fun child parent => ∃ b ∈ roster.agents, b.id = child ∧ b.parent = some parent) a.id roster.root

theorem scopeOf_inj {k : Kind} {p q : Path} :
    Roster.scopeOf k p = Roster.scopeOf k q ↔ p = q := by
  unfold Roster.scopeOf
  split <;> simp

namespace Mirror

variable {D : Location → Kind → Prop} {who : Location → AgentId} {agents : List Agent}

/-- Everybody but the root's agent is that of an entry of a folder with a manager. -/
theorem entry_of_ne_home (h : Mirror project home D who agents) (hd : D loc k) (hne : loc ≠ home) :
    ∃ dir n, loc = dir ++ [n] ∧ D dir .manager := by
  rcases List.eq_nil_or_concat' loc with rfl | ⟨dir, n, rfl⟩
  · exact absurd (List.prefix_nil.mp (h.inside _ _ hd)).symm hne
  · exact ⟨dir, n, rfl, h.above dir n k hd hne⟩

/-- Whoever goes up from an agent comes to the root's. -/
theorem ancestry (h : Mirror project home D who agents) (hd : D loc k) :
    Relation.ReflTransGen (fun child parent => ∃ b ∈ agents, b.id = child ∧ b.parent = some parent)
      (who loc) (who home) := by
  induction loc using List.reverseRecOn generalizing k with
  | nil =>
    rw [List.prefix_nil.mp (h.inside _ _ hd)]
  | append_singleton dir n ih =>
    by_cases hhome : dir ++ [n] = home
    · rw [hhome]
    obtain ⟨a, ha, hf⟩ := h.manned _ _ hd
    have hparent := hf.parent
    rw [if_neg hhome, List.dropLast_concat] at hparent
    exact .head ⟨a, ha, hf.id, hparent⟩ (ih (h.above dir n k hd hhome))

/-- Agents of one location are the same, where identities are. -/
theorem eq_of_figure (distinct : (agents.map Agent.id).Nodup) {a a' : Agent} {k' : Kind}
    (ha : a ∈ agents) (ha' : a' ∈ agents) (hf : Figure project home D who loc k a)
    (hf' : Figure project home D who loc k' a') : a = a' :=
  List.inj_on_of_nodup_map distinct ha ha' (hf.id.trans hf'.id.symm)

/-- The root's manager alone has nobody above it. -/
theorem parent_eq_none_iff (distinct : (agents.map Agent.id).Nodup)
    (h : Mirror project home (Manned project site home) who agents) {a b : Agent} (ha : a ∈ agents)
    (hf : Figure project home (Manned project site home) who home .manager a) (hb : b ∈ agents) :
    b.parent = none ↔ b = a := by
  obtain ⟨loc, k, hd, hf'⟩ := h.placed b hb
  rw [hf'.parent]
  by_cases hhome : loc = home
  · subst hhome
    simp [eq_of_figure distinct hb ha hf' hf]
  · rw [if_neg hhome]
    refine ⟨fun hnone => absurd hnone (by simp), ?_⟩
    rintro rfl
    exact absurd (h.apart _ _ _ _ hd .home (hf'.id.symm.trans hf.id)) hhome

/-- **The children of an agent are those whose parent it is,** by the names of their entries. -/
theorem child_iff (h : Mirror project home (Manned project site home) who agents)
    (sound : site.files.Sound) (hn : home.Named) {p a : Agent} (hp : p ∈ agents) (ha : a ∈ agents)
    {n : String} {kind : Kind} :
    (n, ⟨a.id, kind⟩) ∈ p.children ↔ IsName n ∧ kind = a.kind ∧ a.parent = some p.id ∧
      ∃ dir, p.scope = .folder dir ∧ a.scope = Roster.scopeOf a.kind (dir.joinName n) := by
  obtain ⟨dir, k, hd, hf⟩ := h.placed p hp
  obtain ⟨loc, k', hd', hf'⟩ := h.placed a ha
  rw [hf.children]
  constructor
  · rintro ⟨hchild, hid⟩
    obtain rfl := h.apart _ _ _ _ hd' hchild (hf'.id.symm.trans hid)
    have hnamed := hchild.named sound hn
    have hne := concat_ne_home (n := n) hd.inside
    have hmanager := hd.unique (hchild.above hne)
    have hparent := hf'.parent
    rw [if_neg hne, List.dropLast_concat, ← hf.id] at hparent
    subst hmanager
    refine ⟨hnamed.last, hchild.unique hd' |>.trans hf'.kind.symm, hparent, pathOf dir, hf.scope, ?_⟩
    rw [Path.joinName_pathOf hnamed.left hnamed.last.1, hf'.scope, hf'.kind]
  · rintro ⟨hname, rfl, hparent, path, hscope, hscope'⟩
    rw [hf'.parent] at hparent
    split at hparent
    · cases hparent
    next hne =>
    obtain ⟨dir', m, rfl, habove⟩ := h.entry_of_ne_home hd' hne
    rw [List.dropLast_concat, hf.id, Option.some.injEq] at hparent
    obtain rfl := h.apart _ _ _ _ habove hd hparent
    obtain rfl := hd.unique habove
    have hnamed := hd'.named sound hn
    obtain rfl : path = pathOf dir' := by
      rw [hf.scope] at hscope
      exact (Scope.folder.inj hscope).symm
    rw [Path.joinName_pathOf hnamed.left hname.1, hf'.scope, hf'.kind, scopeOf_inj,
      Path.pathOf_inj hnamed (hnamed.left.concat hname)] at hscope'
    rw [← hscope', hf'.kind]
    exact ⟨hd', hf'.id⟩

/-- **Agents that mirror the posts of a project are those of the posts.** -/
theorem populates {roster : Roster} (rooted : project.root = pathOf home) (hn : home.Named)
    (sound : site.files.Sound) (distinct : (roster.agents.map Agent.id).Nodup)
    (h : Mirror project home (Manned project site home) who roster.agents)
    (top : who home = roster.root) : Populates project site home roster := by
  have hpost : ∀ {loc k}, Manned project site home loc k ↔ Post project site home k loc :=
    manned_iff_post sound.tree
  obtain ⟨a₀, ha₀, hf₀⟩ := h.manned home .manager .home
  constructor
  case distinct => exact distinct
  case root =>
    refine ⟨a₀, ha₀, hf₀.id.trans top, hf₀.kind, hf₀.scope.trans ?_,
      fun b hb => h.parent_eq_none_iff distinct ha₀ hf₀ hb⟩
    rw [rooted]
    rfl
  case staffed =>
    intro k loc hd
    obtain ⟨a, ha, hf⟩ := h.manned loc k (hpost.mpr hd)
    refine ⟨a, ⟨ha, hf.kind, hf.scope⟩, ?_⟩
    rintro b ⟨hb, hkind, hscope⟩
    obtain ⟨loc', k', hd', hf'⟩ := h.placed b hb
    obtain rfl : k' = k := hf'.kind.symm.trans hkind
    have hpath := scopeOf_inj.mp (hf'.scope.symm.trans hscope)
    obtain rfl := (Path.pathOf_inj (hd'.named sound hn) ((hpost.mpr hd).named sound hn)).mp hpath
    exact eq_of_figure distinct hb ha hf' hf
  case posted =>
    intro a ha
    obtain ⟨loc, k, hd, hf⟩ := h.placed a ha
    obtain rfl := hf.kind
    refine ⟨loc, ⟨hpost.mp hd, hf.scope⟩, ?_⟩
    rintro loc' ⟨hd', hscope⟩
    have hpath := scopeOf_inj.mp (hscope.symm.trans hf.scope)
    exact (Path.pathOf_inj ((hpost.mpr hd').named sound hn) (hd.named sound hn)).mp hpath
  case child => exact fun p hp a ha n kind => h.child_iff sound hn hp ha
  case linked =>
    intro p hp c hc
    obtain ⟨dir, k, -, hf⟩ := h.placed p hp
    obtain ⟨hd, hid⟩ := (hf.children c.1 c.2).mp hc
    obtain ⟨a, ha, hf'⟩ := h.manned _ _ hd
    exact ⟨a, ha, hf'.id.trans hid.symm⟩
  case names =>
    refine distinct.of_map.map_on fun a ha b hb hname => ?_
    obtain ⟨loc, k, hd, hf⟩ := h.placed a ha
    obtain ⟨loc', k', hd', hf'⟩ := h.placed b hb
    rw [hf.name, hf'.name] at hname
    obtain rfl := Project.displayName_inj rooted (hd.named sound hn) (hd'.named sound hn) hd.inside
      hd'.inside hname
    exact eq_of_figure distinct ha hb hf hf'
  case ancestry =>
    intro a ha
    obtain ⟨loc, k, hd, hf⟩ := h.placed a ha
    rw [hf.id, ← top]
    exact h.ancestry hd

end Mirror

/-! ### Building the roster of an open project -/

namespace Project

/-- **An open project is rooted** where the notes of no folder are a link. -/
theorem rooted_of_openAt {fs : FileSystem} {p : Path} {config : Config} (sound : fs.Sound)
    (opened : openAt fs p config = .ok project)
    (plain : ∀ dir, project.holds (pathOf dir) = true → fs.find? dir = some .folder →
      ∀ t, fs.find? (dir ++ [docName dir]) ≠ some (.link t)) :
    ∃ home, fs.walk .followed p = .ok home ∧ project.Rooted fs home := by
  obtain ⟨home, hwalk, -⟩ := folder_of_openAt opened
  obtain ⟨hroot, hnamed, hclear⟩ := root_of_openAt opened hwalk
  refine ⟨home, hwalk, hroot, hnamed, hclear, fun dir hin t hlink => ?_, sound.tree⟩
  have hfolder := sound.tree dir (docName dir) (by rw [hlink]; simp)
  have hdir := sound.named_of_find? (by rw [hfolder]; simp)
  refine plain dir ?_ hfolder t hlink
  rw [holds, hroot]
  exact (Path.contains_pathOf hnamed hdir).mpr hin

end Project

/-- **The roster of an open project has one agent for each entry that agents see, and no other.** The
notes of no folder are a link. If the roster is built, its agents are those of the posts; then the
folder of each manager has its notes, and nothing has changed but that empty notes have been made. -/
theorem Roster.build_populates {p : Path} {config : Config} {site' : Site} {first now next : Nat}
    {roster : Roster} (sound : site.files.Sound)
    (opened : Project.openAt site.files p config = .ok project)
    (plain : ∀ dir, project.holds (pathOf dir) = true → site.files.find? dir = some .folder →
      ∀ t, site.files.find? (dir ++ [Project.docName dir]) ≠ some (.link t))
    (built : Roster.build project site first now = .ok (roster, site', next)) :
    ∃ home, site.files.walk .followed p = .ok home ∧ project.root = pathOf home ∧
      Populates project site home roster ∧
      (∀ a ∈ roster.agents, ∀ dir, a.scope = .folder dir →
        site'.files.exists? (Project.docPath dir) = true) ∧
      Noted site.files site'.files ∧ site'.scratch = site.scratch := by
  obtain ⟨home, hwalk, hrooted⟩ := Project.rooted_of_openAt sound opened plain
  obtain ⟨noted, scratch, notes, who, mirror, top⟩ := mirror_of_rooted sound hrooted built
  obtain ⟨files, staff⟩ := staffed_of_build built
  have hsame : ∀ l k, Manned project site home l k ↔ Manned project site' home l k := by
    intro l k
    obtain ⟨files', scratch'⟩ := site'
    obtain rfl : scratch' = site.scratch := scratch
    exact noted.manned_iff.symm
  have hpopulates := (mirror.of_iff hsame).populates hrooted.root_eq hrooted.named sound
    staff.distinct top
  refine ⟨home, hwalk, hrooted.root_eq, hpopulates, fun a ha dir hscope => ?_, noted, scratch⟩
  obtain ⟨loc, k, hd, hf⟩ := mirror.placed a ha
  rw [hf.scope] at hscope
  rcases hd.kind_cases with rfl | rfl
  · obtain rfl := Scope.folder.inj hscope
    exact notes loc hd
  · cases hscope

/-! ### A yard -/

/-- A project without notes: a file, a scratch file, a link, and a folder that is ignored. -/
def yard : Site where
  files :=
    ⟨[(["p"], .folder), (["p", "q"], .file "".toUTF8), (["p", "r"], .file "".toUTF8),
      (["p", "s"], .link "q"), (["p", "target"], .folder),
      (["p", "target", "t"], .file "".toUTF8)]⟩
  scratch := [pathOf ["p", "r"]]

/-- The yard when its folder has been given its notes. -/
def notedYard : Site where
  files := yard.files.insert ["p", "p_README.md"] (.file "".toUTF8)
  scratch := yard.scratch

/-- Its manager and its coder. -/
def yardRoster : Roster where
  agents :=
    [{ Agent.fresh ⟨0⟩ .manager "." (.folder ⟨"/p"⟩) none 0 with
        children := [("q", ⟨⟨1⟩, .coder⟩)] },
      Agent.fresh ⟨1⟩ .coder "q" (.file ⟨"/p/q"⟩) (some ⟨0⟩) 0]
  root := ⟨0⟩

theorem yard_sound : yard.files.Sound := by
  refine ⟨isTree_of_forall ?_, by decide, by decide⟩
  simp only [yard, List.forall_mem_cons]
  exact ⟨rfl, rfl, rfl, rfl, rfl, rfl, by simp⟩

/-- The link of the yard is no folder's notes. -/
theorem yard_plain (dir : Location) (t : String) :
    yard.files.find? (dir ++ [Project.docName dir]) ≠ some (.link t) := by
  intro hlink
  have hmem := mem_of_find? (by simp) hlink
  obtain ⟨heq, -⟩ : dir ++ [Project.docName dir] = ["p"] ++ ["s"] ∧ t = "q" := by
    simpa [yard] using hmem
  obtain ⟨rfl, hname⟩ := List.append_inj' heq rfl
  revert hname
  decide

theorem yard_prepare : Roster.prepare yard.files shedProject.root = .ok notedYard.files := by
  have hfollowed : yard.files.walk .followed (Project.docPath shedProject.root) =
      .ok ["p", "p_README.md"] := by
    decide +kernel
  have hwritten : yard.files.walk .written (Project.docPath shedProject.root) =
      .ok ["p", "p_README.md"] := by
    decide +kernel
  have hnone : yard.files.exists? (Project.docPath shedProject.root) = false := by
    refine exists?_eq_false fun loc hwalk => ?_
    cases hfollowed.symm.trans hwalk
    rfl
  have hensure : Project.ensureDoc yard.files shedProject.root = .ok notedYard.files := by
    rw [Project.ensureDoc, if_neg (by simp [hnone]), writeText, write, hwritten]
    rfl
  delta Roster.prepare
  rw [hensure]

theorem yard_build : Roster.build shedProject yard 0 0 = .ok (yardRoster, notedYard, 2) := by
  have hwalk : notedYard.files.walk .followed shedProject.root = .ok ["p"] := by decide +kernel
  have hchildren : notedYard.files.children ["p"] =
      [("p_README.md", .file "".toUTF8), ("q", .file "".toUTF8), ("r", .file "".toUTF8),
        ("s", .link "q"), ("target", .folder)] :=
    children_of_pairwise rfl (by decide +kernel)
  refine Eq.trans (Roster.build_eq yard_prepare hwalk) ?_
  rw [hchildren]
  rfl

/-- The yard has a manager and a coder, and its folder is given its notes. -/
theorem Roster.build_populates_yard :
    yard.files.Sound ∧ Project.openAt yard.files ⟨"/p"⟩ shedProject.config = .ok shedProject ∧
    (∀ dir, shedProject.holds (pathOf dir) = true → yard.files.find? dir = some .folder →
      ∀ t, yard.files.find? (dir ++ [Project.docName dir]) ≠ some (.link t)) ∧
    Roster.build shedProject yard 0 0 = .ok (yardRoster, notedYard, 2) ∧
    ∃ home, yard.files.walk .followed ⟨"/p"⟩ = .ok home ∧ shedProject.root = pathOf home ∧
      Populates shedProject yard home yardRoster ∧
      (∀ a ∈ yardRoster.agents, ∀ dir, a.scope = .folder dir →
        notedYard.files.exists? (Project.docPath dir) = true) ∧
      Noted yard.files notedYard.files ∧ notedYard.scratch = yard.scratch := by
  have opened : Project.openAt yard.files ⟨"/p"⟩ shedProject.config = .ok shedProject := by
    decide +kernel
  exact ⟨yard_sound, opened, fun dir _ _ => yard_plain dir, yard_build,
    build_populates yard_sound opened (fun dir _ _ => yard_plain dir) yard_build⟩

end Arbor
