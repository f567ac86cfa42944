import Arbor.Proofs.Survey

/-! # The listing of a project and its agents

Right after the roster of a project has been built, the folders in the listing of its root are those of
the managers below the root's. The files in it that are no notes are those of the coders, but for
files that have strayed: notes that landed, through a link, where they are listed although their
folder had been read, or where they are not listed although it had not.

* `shown_concat_iff`: what the listing shows of the files afterwards.
* `Stray`: a file that has strayed, said of the files before.
* `filesAgree_iff`: the files agree exactly if nothing has strayed.
* `listing_agrees`: what a listing shows, and when it agrees with the agents. -/

namespace Arbor

open FileSystem

variable {project : Project} {site site' : Site} {home loc rel : Location} {k : Kind} {n : String}
  {levels : Nat}

/-! ### What is listed -/

namespace Project

theorem below_pathOf (hn : Location.Named (home ++ rel)) :
    below (pathOf home) rel = pathOf (home ++ rel) := by
  induction rel using List.reverseRecOn with
  | nil => rw [List.append_nil]; rfl
  | append_singleton rel n ih =>
    rw [← List.append_assoc] at hn ⊢
    rw [below, List.foldl_concat, ← below, ih hn.left, Path.joinName_pathOf hn.left hn.last.1]

/-- The folder of what is shown is shown. -/
theorem Shown.up {base : Path} {m : String} (h : Shown site levels base loc (rel ++ [m] ++ [n]))
    (tree : site.files.IsTree) : Shown site levels base loc (rel ++ [m]) := by
  have hup : rel ++ [m] <+: rel ++ [m] ++ [n] := List.prefix_append _ _
  have hfound := h.found
  rw [← List.append_assoc] at hfound
  refine ⟨by simp, by rw [tree _ _ hfound]; simp, ?_, ?_, ?_⟩
  · exact hup.length_le.trans h.shallow
  · exact fun part hp hne => h.seen part (hp.trans hup) hne
  · intro part hp hne _
    refine h.opened part (hp.trans hup) hne ?_
    rintro rfl
    exact Location.not_concat_prefix List.prefix_rfl hp

end Project

/-- The files of a project after its roster has been built, which has scratch files as before. -/
structure Built (project : Project) (site site' : Site) (home : Location) : Prop where
  root : project.root = pathOf home
  named : home.Named
  files : Supplied (fun l => Manned project site home l .manager) site.files site'.files
  scratch : site'.scratch = site.scratch
  opened : ∀ l, Manned project site home l .manager → Admitted (Project.docPath (pathOf l))

namespace Built

theorem isSeen_eq (h : Built project site site' home) (p : Path) :
    Project.isSeen site' p = Project.isSeen site p := by
  rw [Project.isSeen, Project.isSeen, Site.isScratch, Site.isScratch, h.scratch]

/-- **What the listing of the root shows:** entries that agents see of folders that have a manager. -/
theorem shown_concat_iff (h : Built project site site' home) :
    Project.Shown site' levels project.root home (rel ++ [n]) ↔
      Manned project site home (home ++ rel) .manager ∧
        Project.isSeen site (pathOf (home ++ rel ++ [n])) = true ∧
        site'.files.find? (home ++ rel ++ [n]) ≠ none ∧ rel.length < levels := by
  rw [h.root]
  constructor
  · intro hs
    have hfound := hs.found
    have hnamed := h.files.sound.named_of_find? hfound
    have hseen := hs.seen _ List.prefix_rfl hs.proper
    rw [Project.below_pathOf hnamed, h.isSeen_eq] at hseen
    rw [← List.append_assoc] at hfound hseen
    refine ⟨?_, hseen, hfound, by simpa using hs.shallow⟩
    induction rel using List.reverseRecOn generalizing n with
    | nil =>
      rw [List.append_nil]
      exact .home
    | append_singleton rel m ih =>
      have hup := hs.up h.files.sound.tree
      have hfound' := hup.found
      have hnamed' := h.files.sound.named_of_find? hfound'
      have hseen' := hup.seen _ List.prefix_rfl hup.proper
      rw [Project.below_pathOf hnamed', h.isSeen_eq] at hseen'
      have hfolder := h.files.sound.tree _ _ hfound
      rw [← List.append_assoc] at hfound' hseen' hfolder ⊢
      exact .entry (ih hup hfound' hnamed' hseen') hseen' (h.files.folder_iff.mp hfolder) rfl
  · rintro ⟨hm, hseen, hfound, hlt⟩
    have hnamed := h.files.sound.named_of_find? hfound
    rw [List.append_assoc] at hseen hfound hnamed
    have hpath : ∀ part, part <+: rel ++ [n] → Project.below (pathOf home) part = pathOf (home ++ part) := by
      rintro part ⟨more, hmore⟩
      rw [← hmore, ← List.append_assoc] at hnamed
      exact Project.below_pathOf hnamed.left
    -- the folders on the way to a folder with a manager have one
    have hway : ∀ part, part <+: rel → part ≠ [] → Manned project site home (home ++ part) .manager := by
      intro part hp hne
      obtain ⟨up, m, rfl⟩ := (List.eq_nil_or_concat' part).resolve_left hne
      rw [← List.append_assoc]
      refine hm.manager_above (List.prefix_append _ _) ?_
      rw [List.append_assoc]
      exact (List.prefix_append_right_inj home).mpr hp
    refine ⟨by simp, hfound, by simpa using hlt, ?_, ?_⟩
    · intro part hp hne
      rw [hpath part hp, h.isSeen_eq]
      rcases List.prefix_concat_iff.mp hp with rfl | hp
      · exact hseen
      · obtain ⟨up, m, rfl⟩ := (List.eq_nil_or_concat' part).resolve_left hne
        have hpart := hway _ hp hne
        rw [← List.append_assoc] at hpart ⊢
        exact ((Manned.concat_iff (List.prefix_append _ _)).mp hpart).2.1
    · intro part hp hne hne'
      rw [hpath part hp]
      have hp' := (List.prefix_concat_iff.mp hp).resolve_left hne'
      have hpart := hway part hp' hne
      refine (admitted_of_notes ?_ (h.opened _ hpart)).short
      obtain ⟨more, hmore⟩ := hp
      rw [← hmore, ← List.append_assoc] at hnamed
      exact hnamed.left

end Built

/-! ### What has strayed -/

/-- **A file strays:** the notes of some folder land at an entry that agents see and that is no notes,
and either it is listed, though its folder was read before, or it is too deep to be listed, though its
folder was read after. -/
structure Stray (project : Project) (site : Site) (home : Location) (levels : Nat) (loc : Location)
    (n : String) : Prop where
  above : Manned project site home loc .manager
  seen : Project.isSeen site (pathOf (loc ++ [n])) = true
  plain : project.isDoc (pathOf (loc ++ [n])) = false
  lands : ∃ dir, Manned project site home dir .manager ∧ Lands site.files dir (loc ++ [n])
  astray : ¬ ((∃ dir, Earlier project site home loc dir ∧ Lands site.files dir (loc ++ [n])) ↔
    loc.length < home.length + max levels 1)

/-- Nothing in the project is deeper. -/
def AtMost (files : FileSystem) (home : Location) (levels : Nat) : Prop :=
  ∀ rel, files.find? (home ++ rel) ≠ none → rel.length ≤ levels

/-- A file that is no notes is listed at the location. -/
def ListsFile (project : Project) (site : Site) (home : Location) (levels : Nat) (loc : Location) :
    Prop :=
  ∃ rel, loc = home ++ rel ∧ Project.Shown site (max levels 1) project.root home rel ∧
    (∃ content, site.files.find? loc = some (.file content)) ∧ project.isDoc (pathOf loc) = false

namespace Built

/-- Which files are listed. -/
theorem listsFile_iff (h : Built project site site' home) :
    ListsFile project site' home levels loc ↔ ∃ dir n, loc = dir ++ [n] ∧
      Manned project site home dir .manager ∧ Project.isSeen site (pathOf loc) = true ∧
      project.isDoc (pathOf loc) = false ∧
      ((∃ content, site.files.find? loc = some (.file content)) ∨
        ∃ other, Manned project site home other .manager ∧ Lands site.files other loc) ∧
      dir.length < home.length + max levels 1 := by
  constructor
  · rintro ⟨rel, rfl, hshown, ⟨content, hfind⟩, hdoc⟩
    obtain ⟨up, n, rfl⟩ := (List.eq_nil_or_concat' rel).resolve_left hshown.proper
    obtain ⟨hm, hseen, -, hlt⟩ := h.shown_concat_iff.mp hshown
    rw [← List.append_assoc] at hfind hdoc ⊢
    refine ⟨home ++ up, n, rfl, hm, hseen, hdoc, ?_, by rw [List.length_append]; omega⟩
    exact (h.files.cases hfind).imp (fun hold => ⟨content, hold⟩) And.right
  · rintro ⟨dir, n, rfl, hm, hseen, hdoc, hfile, hlt⟩
    obtain ⟨up, rfl⟩ := hm.inside
    obtain ⟨content, hfind⟩ : ∃ content, site'.files.find? (home ++ up ++ [n]) =
        some (.file content) := by
      rcases hfile with ⟨content, hold⟩ | hlands
      · exact ⟨content, h.files.old hold⟩
      · exact ⟨_, h.files.made _ hlands⟩
    rw [List.length_append] at hlt
    refine ⟨up ++ [n], List.append_assoc .., h.shown_concat_iff.mpr ⟨hm, hseen, ?_, by omega⟩,
      ⟨content, hfind⟩, hdoc⟩
    rw [hfind]
    simp

/-- Which folders are listed. -/
theorem shown_folder_iff (h : Built project site site' home)
    (high : AtMost site.files home levels) :
    (∃ rel, loc = home ++ rel ∧ Project.Shown site' (max levels 1) project.root home rel ∧
        site'.files.find? loc = some .folder) ↔
      Manned project site home loc .manager ∧ loc ≠ home := by
  constructor
  · rintro ⟨rel, rfl, hshown, hfind⟩
    obtain ⟨up, n, rfl⟩ := (List.eq_nil_or_concat' rel).resolve_left hshown.proper
    obtain ⟨hm, hseen, -, -⟩ := h.shown_concat_iff.mp hshown
    have hold := h.files.folder_iff.mp hfind
    rw [← List.append_assoc] at hold ⊢
    exact ⟨.entry hm hseen hold rfl, concat_ne_home hm.inside⟩
  · rintro ⟨hm, hne⟩
    obtain ⟨rel, rfl⟩ := hm.inside
    obtain ⟨up, n, rfl⟩ := (List.eq_nil_or_concat' rel).resolve_left fun hnil => hne (by simp [hnil])
    rw [← List.append_assoc] at hm
    obtain ⟨above, seen, entry, found, kind⟩ := (Manned.concat_iff (List.prefix_append _ _)).mp hm
    obtain rfl := kindOf?_eq_manager.mp kind
    have hfind := h.files.old found
    have hle := high (up ++ [n]) (by rw [← List.append_assoc, found]; simp)
    rw [List.length_append, List.length_singleton] at hle
    refine ⟨up ++ [n], rfl, h.shown_concat_iff.mpr ⟨above, seen, ?_, by omega⟩, ?_⟩
    · rw [hfind]
      simp
    · rwa [← List.append_assoc]

/-- **The files that are listed are those of coders** exactly if nothing has strayed. -/
theorem files_agree_iff (h : Built project site site' home) (high : AtMost site.files home levels) :
    (∀ loc, Engaged project site home loc .coder ↔ ListsFile project site' home levels loc) ↔
      ∀ loc n, ¬ Stray project site home levels loc n := by
  constructor
  · intro agree loc n stray
    obtain ⟨dir, hdir, lands⟩ := stray.lands
    have hnone : ¬ ∃ content, site.files.find? (loc ++ [n]) = some (.file content) := by
      rintro ⟨content, hfind⟩
      cases lands.free.symm.trans hfind
    refine stray.astray ⟨fun hearly => ?_, fun hlt => ?_⟩
    · have hlisted := (agree _).mp (.coder stray.above stray.seen stray.plain (Or.inr hearly))
      obtain ⟨dir', n', heq, -, -, -, -, hlt⟩ := h.listsFile_iff.mp hlisted
      rwa [(List.append_inj' heq rfl).1]
    · have hengaged := (agree _).mpr (h.listsFile_iff.mpr
        ⟨loc, n, rfl, stray.above, stray.seen, stray.plain, Or.inr ⟨dir, hdir, lands⟩, hlt⟩)
      generalize hl : loc ++ [n] = l at hengaged
      cases hengaged with
      | coder above seen plain filed =>
        obtain ⟨rfl, hm⟩ := List.append_inj' hl rfl
        obtain rfl := List.singleton_inj.mp hm
        exact filed.resolve_left hnone
  · intro calm loc
    rw [h.listsFile_iff]
    constructor
    · intro he
      cases he with
      | @coder dir n above seen plain filed =>
        refine ⟨dir, n, rfl, above, seen, plain, ?_, ?_⟩
        · exact filed.imp_right fun ⟨other, hearly, lands⟩ => ⟨other, hearly.1, lands⟩
        rcases filed with ⟨content, hfind⟩ | ⟨other, hearly, lands⟩
        · obtain ⟨up, rfl⟩ := above.inside
          have hle := high (up ++ [n]) (by rw [← List.append_assoc, hfind]; simp)
          rw [List.length_append, List.length_singleton] at hle
          rw [List.length_append]
          omega
        · by_contra hlt
          exact calm dir n ⟨above, seen, plain, ⟨other, hearly.1, lands⟩,
            fun hiff => hlt (hiff.mp ⟨other, hearly, lands⟩)⟩
    · rintro ⟨dir, n, rfl, above, seen, plain, hfile, hlt⟩
      refine .coder above seen plain (hfile.imp_right fun ⟨other, hm, lands⟩ => ?_)
      by_contra hlate
      exact calm dir n ⟨above, seen, plain, ⟨other, hm, lands⟩, fun hiff => hlate (hiff.mpr hlt)⟩

theorem named_of_engaged (h : Built project site site' home)
    (he : Engaged project site home loc .coder) : loc.Named := by
  cases he with
  | @coder dir n above seen plain filed =>
    refine h.files.sound.named_of_find? ?_
    rcases filed with ⟨content, hold⟩ | ⟨other, hearly, lands⟩
    · rw [h.files.old hold]
      simp
    · rw [h.files.made _ ⟨other, hearly.1, lands⟩]
      simp

theorem named_of_listsFile (h : Built project site site' home)
    (hl : ListsFile project site' home levels loc) : loc.Named := by
  obtain ⟨rel, -, -, ⟨content, hfind⟩, -⟩ := hl
  exact h.files.sound.named_of_find? (by rw [hfind]; simp)

/-- **Where the notes of no folder are a link, nothing strays:** notes land where they belong. -/
theorem not_stray (h : Built project site site' home) (sound : site.files.Sound)
    (folder : site.files.find? home = some .folder)
    (plain : ∀ dir, Manned project site home dir .manager →
      ∀ t, site.files.find? (dir ++ [Project.docName dir]) ≠ some (.link t)) (levels : Nat)
    (loc : Location) (n : String) : ¬ Stray project site home levels loc n := by
  intro stray
  obtain ⟨dir, hm, lands⟩ := stray.lands
  have hn := hm.named sound h.named
  have hdoc := hn.concat (Project.isName_docName hn)
  have hclear := sound.tree.clear_folder (hm.find?_folder folder)
  have hwalk := lands.leads
  rw [Project.docPath_pathOf hn] at hwalk
  obtain ⟨heq, -⟩ := walk_pathOf hdoc (hclear.concat (plain dir hm)) hwalk
  have hnotes := Project.isDoc_docPath project hn
  rw [Project.docPath_pathOf hn, ← heq, stray.plain] at hnotes
  cases hnotes

end Built

/-! ### The agents -/

/-- **The folders in the listing are those of the managers** below the root's. -/
def FoldersAgree (project : Project) (site : Site) (home : Location) (levels : Nat)
    (roster : Roster) : Prop :=
  ∀ path, (∃ a ∈ roster.agents, a.id ≠ roster.root ∧ a.kind = .manager ∧ a.scope = .folder path) ↔
    ∃ loc, path = pathOf loc ∧ ∃ rel, loc = home ++ rel ∧
      Project.Shown site (max levels 1) project.root home rel ∧ site.files.find? loc = some .folder

/-- **The files in the listing that are no notes are those of the coders.** -/
def FilesAgree (project : Project) (site : Site) (home : Location) (levels : Nat)
    (roster : Roster) : Prop :=
  ∀ path, (∃ a ∈ roster.agents, a.kind = .coder ∧ a.scope = .file path) ↔
    ∃ loc, path = pathOf loc ∧ ListsFile project site home levels loc

namespace Survey

variable {D : Location → Kind → Prop} {first : Nat} {b : Roster.Progress} {path : Path}

/-- The scopes of the agents of a kind are those of the locations. -/
theorem scope_iff (h : Survey project site home first D b) :
    (∃ a ∈ b.agents, a.kind = k ∧ a.scope = Roster.scopeOf k path) ↔
      ∃ l, path = pathOf l ∧ D l k := by
  constructor
  · rintro ⟨a, ha, rfl, hscope⟩
    obtain ⟨l, k', hd, hstands⟩ := h.placed a ha
    obtain rfl := hstands.kind
    exact ⟨l, scopeOf_inj.mp (hscope.symm.trans hstands.scope), hd⟩
  · rintro ⟨l, rfl, hd⟩
    obtain ⟨a, ha, hstands⟩ := h.staffed l k hd
    exact ⟨a, ha, hstands.kind, hstands.scope⟩

/-- So are those of all but the first. -/
theorem scope_iff_of_ne (h : Survey project site home first D b) :
    (∃ a ∈ b.agents, a.id ≠ ⟨first⟩ ∧ a.kind = k ∧ a.scope = Roster.scopeOf k path) ↔
      ∃ l, path = pathOf l ∧ D l k ∧ l ≠ home := by
  constructor
  · rintro ⟨a, ha, hid, rfl, hscope⟩
    obtain ⟨l, k', hd, hstands⟩ := h.placed a ha
    obtain rfl := hstands.kind
    exact ⟨l, scopeOf_inj.mp (hscope.symm.trans hstands.scope), hd, fun hl => hid (hstands.top.mpr hl)⟩
  · rintro ⟨l, rfl, hd, hne⟩
    obtain ⟨a, ha, hstands⟩ := h.staffed l k hd
    exact ⟨a, ha, fun hid => hne (hstands.top.mp hid), hstands.kind, hstands.scope⟩

end Survey

namespace Project

/-- **An open project is built** on the folder that its path leads to. -/
theorem built_of_openAt {p : Path} {config : Config} {first now next : Nat} {roster : Roster}
    (sound : site.files.Sound) (opened : openAt site.files p config = .ok project)
    (built : Roster.build project site first now = .ok (roster, site', next)) :
    ∃ home, site.files.walk .followed p = .ok home ∧ site.files.find? home = some .folder ∧
      Built project site site' home ∧
      Survey project site home first (Engaged project site home) ⟨site'.files, roster.agents, next⟩ ∧
      roster.root = ⟨first⟩ ∧ site'.files.status true project.root = .ok (home, .folder) := by
  obtain ⟨home, hwalk, hfolder, -⟩ := folder_of_openAt opened
  obtain ⟨hroot, hnamed, -⟩ := root_of_openAt opened hwalk
  obtain ⟨hsurvey, htop, hscratch, hstatus⟩ := survey_of_build sound hroot hnamed hfolder built
  refine ⟨home, hwalk, hfolder, ⟨hroot, hnamed, ?_, hscratch, ?_⟩, hsurvey, htop, hstatus⟩
  · exact hsurvey.files.of_iff fun l => Engaged.manager_iff.symm
  · exact fun l hl => hsurvey.opened l (.manager hl)

end Project

/-- **The listing of a folder shows its pruned tree,** a line for each entry in order. Right after the
roster of an open project was built, the listing of the root, if it is as deep as the files were, has
the folders of the managers, and it has the files of the coders exactly if nothing has strayed. -/
theorem listing_agrees (sound : site.files.Sound) :
    (∀ (project : Project) (base : Path) (loc : Location) (levels : Nat),
      site.files.status true base = .ok (loc, .folder) →
        Project.ShowsTree project site base levels loc) ∧
    ∀ {p : Path} {config : Config} {project : Project} {first now next : Nat} {roster : Roster}
      {site' : Site}, Project.openAt site.files p config = .ok project →
      Roster.build project site first now = .ok (roster, site', next) →
      ∃ home, site.files.walk .followed p = .ok home ∧ project.root = pathOf home ∧
        ∀ levels, AtMost site.files home levels →
          Project.ShowsTree project site' project.root levels home ∧
          FoldersAgree project site' home levels roster ∧
          (FilesAgree project site' home levels roster ↔
            ∀ loc n, ¬ Stray project site home levels loc n) := by
  refine ⟨fun project base loc levels hstatus => Project.showsTree_of_status sound hstatus, ?_⟩
  intro p config project first now next roster site' opened built
  obtain ⟨home, hwalk, -, hbuilt, hsurvey, htop, hstatus⟩ :=
    Project.built_of_openAt sound opened built
  refine ⟨home, hwalk, hbuilt.root, fun levels high => ⟨?_, ?_, ?_⟩⟩
  · exact Project.showsTree_of_status hbuilt.files.sound hstatus
  · intro path
    rw [htop]
    refine (hsurvey.scope_iff_of_ne (k := .manager)).trans (exists_congr fun l => ?_)
    rw [hbuilt.shown_folder_iff high, Engaged.manager_iff]
  · rw [← hbuilt.files_agree_iff high, FilesAgree]
    have hcoders : ∀ path, (∃ a ∈ roster.agents, a.kind = .coder ∧ a.scope = .file path) ↔
        ∃ l, path = pathOf l ∧ Engaged project site home l .coder :=
      fun path => hsurvey.scope_iff (k := .coder)
    simp only [hcoders]
    refine ⟨fun agree l => ⟨fun he => ?_, fun hl => ?_⟩, fun agree path => ?_⟩
    · obtain ⟨l', heq, hl⟩ := (agree (pathOf l)).mp ⟨l, rfl, he⟩
      rwa [(Path.pathOf_inj (hbuilt.named_of_engaged he) (hbuilt.named_of_listsFile hl)).mp heq]
    · obtain ⟨l', heq, he⟩ := (agree (pathOf l)).mpr ⟨l, rfl, hl⟩
      rwa [(Path.pathOf_inj (hbuilt.named_of_listsFile hl) (hbuilt.named_of_engaged he)).mp heq]
    · simp only [agree]

/-- Nothing is deeper than there are entries. -/
theorem atMost_entries (sound : site.files.Sound) (home : Location) :
    AtMost site.files home site.files.entries.length := by
  intro rel hfind
  have hlen := sound.length_le hfind
  rw [List.length_append] at hlen
  omega

/-- In the yard nothing strays, so that its listing and its agents agree. -/
theorem listing_agrees_yard :
    yard.files.Sound ∧
    Project.ShowsTree shedProject yard ⟨"/p"⟩ 1 ["p"] ∧
    Project.openAt yard.files ⟨"/p"⟩ shedProject.config = .ok shedProject ∧
    Roster.build shedProject yard 0 0 = .ok (yardRoster, notedYard, 2) ∧
    AtMost yard.files ["p"] 6 ∧
    Project.ShowsTree shedProject notedYard shedProject.root 6 ["p"] ∧
    FoldersAgree shedProject notedYard ["p"] 6 yardRoster ∧
    FilesAgree shedProject notedYard ["p"] 6 yardRoster := by
  have hwalk : yard.files.walk .followed ⟨"/p"⟩ = .ok ["p"] := by decide +kernel
  have opened : Project.openAt yard.files ⟨"/p"⟩ shedProject.config = .ok shedProject := by
    decide +kernel
  obtain ⟨hshows, hagrees⟩ := listing_agrees yard_sound
  obtain ⟨home, hhome, -, hlisted⟩ := hagrees opened yard_build
  obtain rfl := Except.ok.inj (hwalk.symm.trans hhome)
  have high : AtMost yard.files ["p"] 6 := atMost_entries yard_sound ["p"]
  obtain ⟨hshown, hfolders, hfiles⟩ := hlisted 6 high
  refine ⟨yard_sound, hshows _ _ _ _ (status_eq_ok.mpr ⟨hwalk, rfl⟩), opened, yard_build, high,
    hshown, hfolders, hfiles.mpr fun loc n => ?_⟩
  obtain ⟨home, hhome, hfolder, hbuilt, -⟩ := Project.built_of_openAt yard_sound opened yard_build
  obtain rfl := Except.ok.inj (hwalk.symm.trans hhome)
  exact hbuilt.not_stray yard_sound hfolder (fun dir _ => yard_plain dir) 6 loc n

/-! ### A file that strays -/

/-- A project with a folder whose notes are a link to a file that is not there, beside the folder. -/
def barn : Site where
  files :=
    ⟨[(["p"], .folder), (["p", "p_README.md"], .file "".toUTF8), (["p", "s"], .folder),
      (["p", "s", "s_README.md"], .link "../a")]⟩
  scratch := []

/-- The barn when that folder has been given its notes. -/
def strayedBarn : Site where
  files := barn.files.insert ["p", "a"] (.file "".toUTF8)
  scratch := []

/-- The managers of the barn and of the folder. -/
def barnRoster : Roster where
  agents :=
    [{ Agent.fresh ⟨0⟩ .manager "." (.folder ⟨"/p"⟩) none 0 with
        children := [("s", ⟨⟨1⟩, .manager⟩)] },
      Agent.fresh ⟨1⟩ .manager "s" (.folder ⟨"/p/s"⟩) (some ⟨0⟩) 0]
  root := ⟨0⟩

theorem barn_sound : barn.files.Sound := by
  refine ⟨isTree_of_forall ?_, by decide, by decide⟩
  simp only [barn, List.forall_mem_cons]
  exact ⟨rfl, rfl, rfl, rfl, by simp⟩

theorem barn_prepare : Roster.prepare barn.files ⟨"/p/s"⟩ = .ok strayedBarn.files := by
  have hfollowed : barn.files.walk .followed (Project.docPath ⟨"/p/s"⟩) = .ok ["p", "a"] := by
    decide +kernel
  have hwritten : barn.files.walk .written (Project.docPath ⟨"/p/s"⟩) = .ok ["p", "a"] := by
    decide +kernel
  have hnone : barn.files.exists? (Project.docPath ⟨"/p/s"⟩) = false := by
    refine exists?_eq_false fun loc hwalk => ?_
    cases hfollowed.symm.trans hwalk
    rfl
  have hensure : Project.ensureDoc barn.files ⟨"/p/s"⟩ = .ok strayedBarn.files := by
    rw [Project.ensureDoc, if_neg (by simp [hnone]), writeText, write, hwritten]
    rfl
  delta Roster.prepare
  rw [hensure]

theorem barn_build :
    Roster.build shedProject barn 0 0 = .ok (barnRoster, strayedBarn, 2) := by
  have hwalk : barn.files.walk .followed shedProject.root = .ok ["p"] := by decide +kernel
  have hwalkNotes : barn.files.walk .followed (Project.docPath shedProject.root) =
      .ok ["p", "p_README.md"] := by
    decide +kernel
  have hnotes := exists?_of_walk hwalkNotes (by decide +kernel)
  have hroot : barn.files.children ["p"] = [("p_README.md", .file "".toUTF8), ("s", .folder)] :=
    children_of_pairwise rfl (by decide +kernel)
  have hinner : barn.files.children (["p"] ++ ["s"]) = [("s_README.md", .link "../a")] :=
    children_of_pairwise rfl (by decide +kernel)
  have hdoc : Roster.entryKind? shedProject barn (shedProject.root.joinName "p_README.md")
      (.file "".toUTF8) = none := by
    decide +kernel
  have hfolder : Roster.entryKind? shedProject barn ⟨"/p/s"⟩ .folder = some .manager := by
    decide +kernel
  have hadd : ∀ agents, Roster.add shedProject 0 ⟨0⟩ .manager ⟨"/p/s"⟩ "s" ⟨barn.files, agents, 1⟩ =
      .ok ⟨strayedBarn.files, Roster.link ⟨0⟩ "s" ⟨⟨1⟩, .manager⟩ agents ++
        [Agent.fresh ⟨1⟩ .manager "s" (.folder ⟨"/p/s"⟩) (some ⟨0⟩) 0], 2⟩ := by
    intro agents
    rw [Roster.add, if_pos rfl, barn_prepare]
    rfl
  refine Eq.trans (Roster.build_eq (Roster.prepare_of_notes hnotes) hwalk) ?_
  rw [hroot, Roster.addBelow_cons, Roster.addBelow_singleton, hdoc]
  simp only [bind, Except.bind]
  rw [Roster.addBelow_singleton, show shedProject.root.joinName "s" = ⟨"/p/s"⟩ from rfl, hfolder]
  simp only [hadd, bind, Except.bind, if_true, hinner]
  rfl

theorem barn_listing : shedProject.listing strayedBarn shedProject.root 3 =
    "./\n  a\n  p_README.md\n  s/\n    s_README.md\n" := by
  have hstatus : strayedBarn.files.status true shedProject.root = .ok (["p"], .folder) :=
    status_eq_ok.mpr ⟨by decide +kernel, rfl⟩
  have hroot : strayedBarn.files.children ["p"] =
      [("a", .file "".toUTF8), ("p_README.md", .file "".toUTF8), ("s", .folder)] :=
    children_of_pairwise rfl (by decide +kernel)
  have hinner : strayedBarn.files.children (["p"] ++ ["s"]) = [("s_README.md", .link "../a")] :=
    children_of_pairwise rfl (by decide +kernel)
  have hseen : Project.seen strayedBarn (max 3 1) shedProject.root =
      [⟨1, ⟨"/p/a"⟩, "a", .file "".toUTF8⟩,
        ⟨1, ⟨"/p/p_README.md"⟩, "p_README.md", .file "".toUTF8⟩, ⟨1, ⟨"/p/s"⟩, "s", .folder⟩,
        ⟨2, ⟨"/p/s/s_README.md"⟩, "s_README.md", .link "../a"⟩] := by
    simp only [Project.seen, hstatus]
    rw [show min (max 3 1) (strayedBarn.files.entries.length + 1) = 3 from rfl]
    simp only [Project.seenBelow, hroot, hinner, List.flatMap_cons, List.flatMap_nil]
    rfl
  rw [Project.listing, hseen]
  decide +kernel

/-- **A listed file has no coder.** The notes of the folder `s` land as the file `a`, when the folder
above has been read. -/
theorem barn_disagrees :
    barn.files.Sound ∧
    Project.openAt barn.files ⟨"/p"⟩ shedProject.config = .ok shedProject ∧
    Roster.build shedProject barn 0 0 = .ok (barnRoster, strayedBarn, 2) ∧
    AtMost barn.files ["p"] 3 ∧
    shedProject.listing strayedBarn shedProject.root 3 =
      "./\n  a\n  p_README.md\n  s/\n    s_README.md\n" ∧
    shedProject.isDoc ⟨"/p/a"⟩ = false ∧
    (∀ a ∈ barnRoster.agents, a.scope ≠ .file ⟨"/p/a"⟩) ∧
    ¬ FilesAgree shedProject strayedBarn ["p"] 3 barnRoster := by
  have high : AtMost barn.files ["p"] 3 := by
    intro rel hfind
    have hlen := barn_sound.length_le hfind
    simp only [List.length_append, barn, List.length_cons, List.length_nil] at hlen
    omega
  have hnobody : ∀ a ∈ barnRoster.agents, a.scope ≠ .file ⟨"/p/a"⟩ := by decide
  have honly : ∀ part, part <+: ["a"] → part ≠ [] → part = ["a"] :=
    fun part hp hne => hp.eq_of_length_le (List.length_pos_iff.mpr hne)
  have hlists : ListsFile shedProject strayedBarn ["p"] 3 ["p", "a"] := by
    refine ⟨["a"], rfl, ⟨by simp, by simp [strayedBarn, find?_insert_self], by simp, ?_, ?_⟩,
      ⟨_, find?_insert_self _ _ (by simp)⟩, by decide +kernel⟩
    · intro part hp hne
      rw [honly part hp hne]
      decide +kernel
    · exact fun part hp hne hne' => absurd (honly part hp hne) hne'
  refine ⟨barn_sound, by decide +kernel, barn_build, high, barn_listing, by decide +kernel, hnobody,
    fun agree => ?_⟩
  obtain ⟨a, ha, -, hscope⟩ := (agree ⟨"/p/a"⟩).mpr ⟨["p", "a"], rfl, hlists⟩
  exact hnobody a ha hscope

end Arbor
