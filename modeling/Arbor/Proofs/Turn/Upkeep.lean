import Arbor.Proofs.Census
import Arbor.Proofs.Turn.Confinement

/-! # Entries that are made and removed

A manager makes or removes an entry of its folder. Which locations have an agent changes by just that
entry, and by what is below it.

* `manned_insert`, `manned_erase`: who is where after an entry was made or removed.
* `Tidy`: files without links in which every folder has its notes.
* `tidy_made`, `tidy_removed`: they stay so, whoever makes and removes entries. -/

namespace Arbor

open FileSystem Directive Turn

variable {project : Project} {site : Site} {home loc : Location} {n : String} {k : Kind}
  {fs : FileSystem} {scratch : List Path}

/-! ### Who is where -/

/-- **An entry is made** where nothing was: one location more has an agent. -/
theorem manned_insert {entry : Entry} (tree : fs.IsTree) (absent : fs.find? (loc ++ [n]) = none)
    (above : Manned project ⟨fs, scratch⟩ home loc .manager)
    (kind : Roster.entryKind? project ⟨fs, scratch⟩ (pathOf (loc ++ [n])) entry = some k)
    (l : Location) (k' : Kind) :
    Manned project ⟨fs.insert (loc ++ [n]) entry, scratch⟩ home l k' ↔
      Mirror.Added (Manned project ⟨fs, scratch⟩ home) (loc ++ [n]) k l k' := by
  obtain ⟨hseen, hkind⟩ := Option.ite_none_right_eq_some.mp kind
  have lift : ∀ {l k'}, Manned project ⟨fs, scratch⟩ home l k' →
      Manned project ⟨fs.insert (loc ++ [n]) entry, scratch⟩ home l k' := by
    intro l k' hm
    induction hm with
    | home => exact .home
    | entry above seen found kind ih =>
      refine .entry ih seen ((find?_insert_of_ne fs _ ?_).trans found) kind
      rintro heq
      rw [heq, absent] at found
      cases found
  constructor
  · intro hm
    induction hm with
    | home => exact Or.inl .home
    | @entry up m entry' k' above' seen found kind' ih =>
      by_cases heq : up ++ [m] = loc ++ [n]
      · rw [heq, find?_insert_self fs entry (by simp)] at found
        cases found
        rw [heq, hkind] at kind'
        exact Or.inr ⟨heq, (Option.some.inj kind').symm⟩
      · have hfound : fs.find? (up ++ [m]) = some entry' :=
          (find?_insert_of_ne fs entry heq).symm.trans found
        rcases ih with hold | ⟨rfl, -⟩
        · exact Or.inl (.entry hold seen hfound kind')
        · -- nothing was below the new entry
          have hfolder := tree _ m (by rw [hfound]; simp)
          rw [absent] at hfolder
          cases hfolder
  · rintro (hm | ⟨rfl, rfl⟩)
    · exact lift hm
    · exact .entry (lift above) hseen (find?_insert_self fs entry (by simp)) hkind

/-- **An entry is removed** with everything below it. -/
theorem manned_erase (hin : home <+: loc) (l : Location) (k : Kind) :
    Manned project ⟨fs.erase (loc ++ [n]), scratch⟩ home l k ↔
      Mirror.Pruned (Manned project ⟨fs, scratch⟩ home) (loc ++ [n]) l k := by
  constructor
  · intro hm
    induction hm with
    | home => exact ⟨.home, Location.not_concat_prefix hin⟩
    | entry above seen found kind ih =>
      rw [find?_erase fs (by simp)] at found
      split at found
      · cases found
      · next hout => exact ⟨.entry ih.1 seen found kind, hout⟩
  · rintro ⟨hm, hout⟩
    induction hm with
    | home => exact .home
    | entry above seen found kind ih =>
      refine .entry (ih fun hp => hout (hp.trans (List.prefix_append _ _))) seen ?_ kind
      rw [find?_erase fs (by simp), if_neg hout]
      exact found

/-! ### Files in order -/

/-- **The files are in order:** there are no links and no scratch files, and every folder that has a
manager has its notes. -/
structure Tidy (project : Project) (home : Location) (site : Site) : Prop where
  grounded : project.Grounded site.files home
  sound : site.files.Sound
  scratchless : site.scratch = []
  notes : ∀ l, Manned project site home l .manager →
    site.files.exists? (Project.docPath (pathOf l)) = true

/-- A roster is built of files in order. -/
theorem tidy_of_build {site' : Site} {first now next : Nat} {roster : Roster}
    (sound : site.files.Sound) (hg : project.Grounded site.files home)
    (scratchless : site.scratch = [])
    (h : Roster.build project site first now = .ok (roster, site', next)) :
    Tidy project home site' := by
  obtain ⟨hnoted, hscratch, hnotes, -⟩ := mirror_of_rooted sound hg.rooted h
  exact ⟨hnoted.grounded sound hg, hnoted.sound sound, hscratch.trans scratchless, hnotes⟩

/-- Where files are in order, the notes of a folder are found. -/
theorem Tidy.find_notes (tidy : Tidy project home site) (hm : Manned project site home loc .manager) :
    Location.Named (loc ++ [Project.docName loc]) ∧
      Location.Fits (loc ++ [Project.docName loc]) ∧
      site.files.find? (loc ++ [Project.docName loc]) ≠ none := by
  have hn := hm.named tidy.sound tidy.grounded.named
  have hdoc := hn.concat (Project.isName_docName hn)
  have hnotes := tidy.notes loc hm
  rw [Project.docPath_pathOf hn] at hnotes
  exact ⟨hdoc, (exists?_pathOf tidy.grounded.tree hdoc (tidy.grounded.clear_inside
    (hm.inside.trans (List.prefix_append _ _)))).mp hnotes⟩

theorem exists_notes (hg : project.Grounded fs home) (hn : loc.Named) (hin : home <+: loc)
    (fits : Location.Fits (loc ++ [Project.docName loc]))
    (found : fs.find? (loc ++ [Project.docName loc]) ≠ none) :
    fs.exists? (Project.docPath (pathOf loc)) = true := by
  rw [Project.docPath_pathOf hn]
  exact (exists?_pathOf hg.tree (hn.concat (Project.isName_docName hn))
    (hg.clear_inside (hin.trans (List.prefix_append _ _)))).mpr ⟨fits, found⟩

/-! ### Targets -/

/-- **The target names an entry as it stands,** without a slash or blanks around it, and one that
agents see. -/
structure Directive.Target.Plain (t : Target) : Prop where
  entry : entryName t = .ok t.name
  trimmed : Text.trim t.name = t.name
  shown : t.name.toList.head? ≠ some '.' ∧ t.name ∉ Project.ignoredNames

/-- What a plain target means to the manager of a folder. -/
theorem Directive.Target.Plain.own {t : Target} {a : Agent} {entry : String} {path : Path}
    (plain : t.Plain) (hn : loc.Named) (scope : a.scope = .folder (pathOf loc))
    (h : ownEntry project site a t = .ok (entry, path)) :
    entry = t.name ∧ IsName t.name ∧ path = pathOf (loc ++ [t.name]) ∧
      project.isDoc path = false := by
  obtain ⟨hentry, hpath, -, hsame, hdoc, -⟩ := ownEntry_eq_ok scope h
  obtain rfl : t.name = entry := Except.ok.inj (plain.entry.symm.trans hentry)
  rw [Project.resolve_pathOf hn (entryName_slashless hentry), plain.trimmed] at hpath
  have hdots : t.name ≠ "." ∧ t.name ≠ ".." := by
    constructor <;> intro heq <;> exact plain.shown.1 (by rw [heq]; rfl)
  rcases Path.normalize_concat hn (entryName_slashless hentry) with
    ⟨hempty | hdot, he⟩ | ⟨hup, -, -⟩ | ⟨hup, -, -⟩ | ⟨hname, he⟩
  · -- the folder itself is refused
    rw [hpath, he, Path.normalize_pathOf hn, (Path.same_pathOf hn hn).mpr rfl] at hsame
    cases hsame
  · exact absurd hdot hdots.1
  · exact absurd hup hdots.2
  · exact absurd hup hdots.2
  · exact ⟨rfl, hname, hpath.trans he, hdoc⟩

/-- Agents see what a plain target names. -/
theorem Directive.Target.Plain.seen {t : Target} (plain : t.Plain)
    (hn : Location.Named (loc ++ [t.name])) (scratchless : site.scratch = []) :
    Project.isSeen site (pathOf (loc ++ [t.name])) = true := by
  have hshown : Project.isIgnored (pathOf (loc ++ [t.name])) = false := by
    unfold Project.isIgnored
    rw [Path.fileName?_pathOf hn]
    simp [plain.shown.1, plain.shown.2]
  simp [Project.isSeen, hshown, Site.isScratch, scratchless]

/-! ### Making and removing entries -/

/-- The folders that had their notes still have them. -/
theorem Tidy.keeps_notes (tidy : Tidy project home site) (hg : project.Grounded fs home)
    (hm : Manned project site home loc .manager)
    (kept : fs.find? (loc ++ [Project.docName loc]) =
      site.files.find? (loc ++ [Project.docName loc])) :
    fs.exists? (Project.docPath (pathOf loc)) = true := by
  obtain ⟨hdoc, fits, hfind⟩ := tidy.find_notes hm
  exact exists_notes hg hdoc.left hm.inside fits (kept ▸ hfind)

/-- A file is made. -/
theorem tidy_file {content : ByteArray} (tidy : Tidy project home site)
    (above : Manned project site home loc .manager) (hn : Location.Named (loc ++ [n]))
    (absent : site.files.find? (loc ++ [n]) = none)
    (parent : site.files.find? loc = some .folder)
    (kind : Roster.entryKind? project site (pathOf (loc ++ [n])) (.file content) = some .coder) :
    Tidy project home { site with files := site.files.insert (loc ++ [n]) (.file content) } ∧
      ∀ l k, Manned project { site with files := site.files.insert (loc ++ [n]) (.file content) }
        home l k ↔ Mirror.Added (Manned project site home) (loc ++ [n]) .coder l k := by
  have hparent : site.files.find? (loc ++ [n]).dropLast = some .folder := by
    rw [List.dropLast_concat]
    exact parent
  have hold : Entry.file content = .folder ∨ site.files.find? (loc ++ [n]) ≠ some .folder :=
    Or.inr (by rw [absent]; simp)
  have hedit : Edit (· = loc ++ [n]) site.files (site.files.insert (loc ++ [n]) (.file content)) :=
    edit_insert (by simp) hparent hold
  have hg := tidy.grounded.edit hedit
  have hmanned := manned_insert tidy.grounded.tree absent above kind
  refine ⟨⟨hg, tidy.sound.insert hn (by simp) hparent hold, tidy.scratchless, ?_⟩, hmanned⟩
  intro l hm
  rcases (hmanned l .manager).mp hm with hm | ⟨-, hk⟩
  · refine tidy.keeps_notes hg hm (find?_insert_of_ne _ _ fun heq => ?_)
    exact (tidy.find_notes hm).2.2 (heq ▸ absent)
  · cases hk

/-- A folder is made with its notes. -/
theorem tidy_folder (tidy : Tidy project home site)
    (above : Manned project site home loc .manager) (hn : Location.Named (loc ++ [n]))
    (absent : site.files.find? (loc ++ [n]) = none)
    (parent : site.files.find? loc = some .folder)
    (kind : Roster.entryKind? project site (pathOf (loc ++ [n])) .folder = some .manager)
    (notes : Project.ensureDoc (site.files.insert (loc ++ [n]) .folder) (pathOf (loc ++ [n])) =
      .ok fs) :
    Tidy project home { site with files := fs } ∧
      ∀ l k, Manned project { site with files := fs } home l k ↔
        Mirror.Added (Manned project site home) (loc ++ [n]) .manager l k := by
  have hparent : site.files.find? (loc ++ [n]).dropLast = some .folder := by
    rw [List.dropLast_concat]
    exact parent
  have hedit : Edit (· = loc ++ [n]) site.files (site.files.insert (loc ++ [n]) .folder) :=
    edit_insert (by simp) hparent (Or.inl rfl)
  have hmade := tidy.grounded.edit hedit
  have hsound : (site.files.insert (loc ++ [n]) .folder).Sound :=
    tidy.sound.insert hn (by simp) hparent (Or.inl rfl)
  have hin : home <+: loc ++ [n] := above.inside.trans (List.prefix_append _ _)
  obtain ⟨hnoted, hexists⟩ := noted_of_ensureDoc hsound hn
    (hmade.clear_inside (hin.trans (List.prefix_append _ _))) notes
  have hg := hnoted.grounded hsound hmade
  have hmanned : ∀ l k, Manned project { site with files := fs } home l k ↔
      Mirror.Added (Manned project site home) (loc ++ [n]) .manager l k := fun l k =>
    hnoted.manned_iff.trans (manned_insert tidy.grounded.tree absent above kind l k)
  refine ⟨⟨hg, hnoted.sound hsound, tidy.scratchless, ?_⟩, hmanned⟩
  intro l hm
  rcases (hmanned l .manager).mp hm with hm | ⟨rfl, -⟩
  · obtain ⟨-, -, hfind⟩ := tidy.find_notes hm
    obtain ⟨entry, hentry⟩ := Option.ne_none_iff_exists'.mp hfind
    refine tidy.keeps_notes hg hm ((hnoted.kept ?_).trans hentry.symm)
    refine (find?_insert_of_ne _ _ fun heq => ?_).trans hentry
    exact hfind (heq ▸ absent)
  · exact hexists

/-- **An entry is made:** the files stay in order, and one location more has an agent. -/
theorem tidy_made {t : Target} (tidy : Tidy project home site)
    (above : Manned project site home loc .manager) (plain : t.Plain) (name : IsName t.name)
    (doc : project.isDoc (pathOf (loc ++ [t.name])) = false)
    (absent : site.files.exists? (pathOf (loc ++ [t.name])) = false)
    (made : EntryMade site.files t (pathOf (loc ++ [t.name])) fs) :
    Tidy project home { site with files := fs } ∧
      (∀ l k, Manned project { site with files := fs } home l k ↔
        Mirror.Added (Manned project site home) (loc ++ [t.name]) (targetKind t) l k) ∧
      ∀ more k, ¬ Manned project site home (loc ++ t.name :: more) k := by
  have hn := (above.named tidy.sound tidy.grounded.named).concat name
  have hin : home <+: loc ++ [t.name] := above.inside.trans (List.prefix_append _ _)
  have hclear := tidy.grounded.clear_inside hin
  have hseen := plain.seen hn tidy.scratchless
  have hnobody : site.files.find? (loc ++ [t.name]) = none →
      ∀ more k, ¬ Manned project site home (loc ++ t.name :: more) k := by
    intro hnone more k hm
    have hp : loc ++ [t.name] <+: loc ++ t.name :: more := by simp
    obtain ⟨k', hk', -⟩ := hm.at_entry above.inside hp
    obtain ⟨-, -, entry, found, -⟩ := (Manned.concat_iff above.inside).mp hk'
    rw [hnone] at found
    cases found
  cases made with
  | folder isFolder make notes =>
    obtain ⟨-, -, hparent, hnone, rfl⟩ := makeFolder_pathOf hn hclear make
    rw [List.dropLast_concat] at hparent
    have hkind : Roster.entryKind? project site (pathOf (loc ++ [t.name])) .folder =
        some .manager := if_pos hseen
    rw [targetKind, if_pos isFolder]
    obtain ⟨htidy, hmanned⟩ := tidy_folder tidy above hn hnone hparent hkind notes
    exact ⟨htidy, hmanned, hnobody hnone⟩
  | @file _ text isFile write =>
    obtain ⟨fits, -, hparent, -, rfl⟩ := writeText_pathOf hn hclear write
    rw [List.dropLast_concat] at hparent
    have hnone : site.files.find? (loc ++ [t.name]) = none := by
      by_contra hsome
      rw [(exists?_pathOf tidy.grounded.tree hn hclear).mpr ⟨fits, hsome⟩] at absent
      cases absent
    have hkind : Roster.entryKind? project site (pathOf (loc ++ [t.name])) (.file text.toUTF8) =
        some .coder := by
      rw [Roster.entryKind?, if_pos hseen, Roster.kindOf?, if_neg (by rw [doc]; simp)]
    rw [targetKind, if_neg (by rw [isFile]; simp)]
    obtain ⟨htidy, hmanned⟩ := tidy_file tidy above hn hnone hparent hkind
    exact ⟨htidy, hmanned, hnobody hnone⟩

/-- **An entry is removed:** it had an agent, the files stay in order, and neither it nor anything below
it has one any more. -/
theorem tidy_removed {t : Target} (tidy : Tidy project home site)
    (above : Manned project site home loc .manager) (plain : t.Plain) (name : IsName t.name)
    (doc : project.isDoc (pathOf (loc ++ [t.name])) = false)
    (present : site.files.exists? (pathOf (loc ++ [t.name])) = true)
    (removed : EntryRemoved site.files t (pathOf (loc ++ [t.name])) fs) :
    (∃ k, Manned project site home (loc ++ [t.name]) k) ∧
      Tidy project home { site with files := fs } ∧
      ∀ l k, Manned project { site with files := fs } home l k ↔
        Mirror.Pruned (Manned project site home) (loc ++ [t.name]) l k := by
  have hn := (above.named tidy.sound tidy.grounded.named).concat name
  have hin : home <+: loc ++ [t.name] := above.inside.trans (List.prefix_append _ _)
  have hclear := tidy.grounded.clear_inside hin
  have hhere : ∃ k, Manned project site home (loc ++ [t.name]) k := by
    obtain ⟨-, hfind⟩ := (exists?_pathOf tidy.grounded.tree hn hclear).mp present
    obtain ⟨entry, hentry⟩ := Option.ne_none_iff_exists'.mp hfind
    have hseen := plain.seen hn tidy.scratchless
    cases entry with
    | folder => exact ⟨.manager, .entry above hseen hentry rfl⟩
    | file content =>
      exact ⟨.coder, .entry above hseen hentry (if_neg (by rw [doc]; simp))⟩
    | link target => exact absurd hentry (tidy.grounded.below _ hin target)
  obtain rfl : fs = site.files.erase (loc ++ [t.name]) := by
    unfold EntryRemoved at removed
    split at removed
    · exact (removeFolder_pathOf tidy.grounded.tree hn hclear removed).2
    · exact (removeFile_pathOf hn hclear removed).2
  have hg := tidy.grounded.edit (edit_erase site.files (loc ++ [t.name]))
  have hmanned : ∀ l k, Manned project { site with files := site.files.erase (loc ++ [t.name]) }
      home l k ↔ Mirror.Pruned (Manned project site home) (loc ++ [t.name]) l k :=
    manned_erase above.inside
  refine ⟨hhere, ⟨hg, tidy.sound.erase _, tidy.scratchless, fun l hm => ?_⟩, hmanned⟩
  obtain ⟨hm, hout⟩ := (hmanned l .manager).mp hm
  refine tidy.keeps_notes hg hm ?_
  rw [find?_erase _ (by simp), if_neg fun hp => ?_]
  rcases List.prefix_concat_iff.mp hp with heq | hp
  · -- notes are not removed
    have hl := hm.named tidy.sound tidy.grounded.named
    have hnotes := Project.isDoc_docPath project hl
    rw [Project.docPath_pathOf hl, ← heq, doc] at hnotes
    cases hnotes
  · exact hout hp

end Arbor
