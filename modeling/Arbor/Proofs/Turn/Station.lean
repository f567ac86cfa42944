import Arbor.Proofs.Project
import Arbor.Proofs.Turn.Verbs

/-! # Where agents stand

An agent holds a *station*: the master's, that of the manager of a folder, of the coder of a file, or
of a helper in a scratch file. A station has a *reach*: the places that its holder may change.

* `Station.Reach.inside`: what is in reach lies in the project.
* `ownEntry_cases`: the entry that a target names is a direct entry of the manager's folder.
* `ownEntry_of_kept`: what the engine keeps is no entry of anybody. -/

namespace Arbor

open FileSystem Directive Turn Act

/-! ### Stations -/

/-- Where an agent stands. -/
inductive Station where
  | master
  | manager (dir : Location)
  | coder (dir : Location) (file : String)
  | helper (dir : Location) (file : String)

namespace Station

variable {project : Project} {home own : Location} {st : Station} {a b : Agent}

/-- **The agent holds the station,** as the engine puts it there: its scope is in the project, and a
scratch file that it has is its own. -/
def Held (project : Project) (home : Location) (a : Agent) : Station → Prop
  | .master => a.kind = .master ∧ a.scope = .project ∧ a.scratch = none
  | .manager dir =>
    dir.Named ∧ home <+: dir ∧ a.kind = .manager ∧ a.scope = .folder (pathOf dir) ∧ a.scratch = none
  | .coder dir file =>
    Location.Named (dir ++ [file]) ∧ home <+: dir ∧ a.kind = .coder ∧
      a.scope = .file (pathOf (dir ++ [file])) ∧
      ∀ s ∈ a.scratch, ∃ name, project.IsCoderScratch file name ∧ s.path = pathOf (dir ++ [name])
  | .helper dir file =>
    Location.Named (dir ++ [file]) ∧ home <+: dir ∧ a.kind.isHelper = true ∧
      a.scope = .file (pathOf (dir ++ [file])) ∧ ∀ s ∈ a.scratch, s.path = pathOf (dir ++ [file])

/-- Stations are a matter of kind, scope and scratch file. -/
theorem Held.congr (h : st.Held project home a) (hk : b.kind = a.kind) (hs : b.scope = a.scope)
    (hx : b.scratch = a.scratch) : st.Held project home b := by
  cases st <;> simpa only [Held, hk, hs, hx] using h

/-- An agent that has let go of its scratch file stays where it is. -/
theorem Held.bare (h : st.Held project home a) (hk : b.kind = a.kind) (hs : b.scope = a.scope)
    (hx : b.scratch = none) : st.Held project home b := by
  cases st with
  | master => exact ⟨hk.trans h.1, hs.trans h.2.1, hx⟩
  | manager dir => exact ⟨h.1, h.2.1, hk.trans h.2.2.1, hs.trans h.2.2.2.1, hx⟩
  | coder dir file =>
    exact ⟨h.1, h.2.1, hk.trans h.2.2.1, hs.trans h.2.2.2.1, fun s hm => by rw [hx] at hm; cases hm⟩
  | helper dir file =>
    refine ⟨h.1, h.2.1, by rw [hk]; exact h.2.2.1, hs.trans h.2.2.2.1, fun s hm => ?_⟩
    rw [hx] at hm
    cases hm

/-- **The place is the agent's own:** for a manager a direct entry of its folder, for a coder its
scratch file beside its file. The entry `..` of the root of the file system is that root. -/
def Owns (project : Project) (d : Desk) (own : Location) : Station → Prop
  | .manager dir => (∃ e, IsName e ∧ own = dir ++ [e]) ∨ (dir = [] ∧ own = [])
  | .coder dir file =>
    (∃ name, project.IsCoderScratch file name ∧ own = dir ++ [name]) ∧
      sharedPath? project d = some (pathOf own)
  | _ => True

/-- **What the agent may change,** given the place that is its own; `whole` says that this place may
change with everything below it. -/
def Reach (project : Project) (home own : Location) (whole : Bool) : Station → Location → Prop
  | .master, loc => loc = home ++ ["DOCUMENTATION.md"] ∨
      ∃ n, loc = home ++ [Project.scratchName (Project.stemOf home) n project.config.scratchExtension]
  | .manager dir, loc => loc = own ∨ (whole = true ∧ own <+: loc) ∨
      loc = dir ++ [Project.docName dir] ∨
      ∃ n, loc = dir ++ [Project.scratchName (Project.stemOf dir) n project.config.scratchExtension]
  | .coder dir file, loc => loc = dir ++ [file] ∨ loc = own
  | .helper dir file, loc => loc = dir ++ [file]

/-- What is in reach lies in the project. -/
theorem Reach.inside {d : Desk} {whole : Bool} {loc : Location}
    (h : st.Reach project home own whole loc) (hh : st.Held project home a)
    (ho : st.Owns project d own) : home <+: loc := by
  cases st with
  | master =>
    rcases h with rfl | ⟨n, rfl⟩
    · exact List.prefix_append home _
    · exact List.prefix_append home _
  | manager dir =>
    have hdir : ∀ more, home <+: dir ++ more := fun more => hh.2.1.trans (List.prefix_append dir more)
    have hown : home <+: own := by
      rcases ho with ⟨e, -, rfl⟩ | ⟨rfl, rfl⟩
      · exact hdir [e]
      · exact hh.2.1
    rcases h with rfl | ⟨-, h⟩ | rfl | ⟨n, rfl⟩
    · exact hown
    · exact hown.trans h
    · exact hdir _
    · exact hdir _
  | coder dir file =>
    have hdir : ∀ more, home <+: dir ++ more := fun more => hh.2.1.trans (List.prefix_append dir more)
    obtain ⟨⟨name, -, hname⟩, -⟩ := ho
    rcases h with rfl | rfl
    · exact hdir [file]
    · rw [hname]; exact hdir [name]
  | helper dir file =>
    obtain rfl := h
    exact hh.2.1.trans (List.prefix_append dir [file])

end Station

/-! ### The entries of a manager's folder -/

theorem slashless_of_name_mem {p : Path} {text : String} (h : Component.name text ∈ p.components) :
    '/' ∉ text.toList := by
  have hpiece : ∀ piece ∈ p.pieces, '/' ∉ piece.toList := by
    intro piece hp
    obtain ⟨cs, hcs, rfl⟩ := List.mem_map.mp hp
    rw [String.toList_ofList]
    exact not_mem_of_mem_splitOn hcs
  have hinner : ∀ piece, Path.innerComponent? piece = some (.name text) → piece = text := by
    intro piece hi
    unfold Path.innerComponent? at hi
    split at hi
    · cases hi
    split at hi
    · cases hi
    · exact Component.name.inj (Option.some.inj hi)
  have hfirst : ∀ piece, Path.firstComponent? piece = some (.name text) → piece = text := by
    intro piece hi
    unfold Path.firstComponent? at hi
    split at hi
    · cases hi
    · exact hinner piece hi
  unfold Path.components at h
  split at h
  · cases h
  · next first rest hp =>
    have hrest : ∀ piece ∈ rest, '/' ∉ piece.toList := fun piece hm => hpiece piece (by simp [hp, hm])
    split at h
    · obtain ⟨piece, hm, hi⟩ := List.mem_filterMap.mp ((List.mem_cons.mp h).resolve_left (by simp))
      exact hinner piece hi ▸ hrest piece hm
    · rcases List.mem_append.mp h with h | h
      · rw [Option.mem_toList] at h
        exact hfirst first h ▸ hpiece first (by simp [hp])
      · obtain ⟨piece, hm, hi⟩ := List.mem_filterMap.mp h
        exact hinner piece hi ▸ hrest piece hm

namespace Turn

variable {project : Project} {files : FileSystem} {home own dir : Location} {st : Station}
  {d d' d'' : Desk}

theorem entryName_slashless {t : Target} {entry : String} (h : entryName t = .ok entry) :
    '/' ∉ entry.toList := by
  unfold entryName at h
  split at h
  · next e he =>
    cases h
    exact slashless_of_name_mem (p := ⟨bareName t.name⟩) (by rw [he]; simp)
  · cases h

/-- A target is an entry of the agent's folder if it names one, stays in the folder, and is not kept
by the engine. -/
theorem ownEntry_eq_ok {site : Site} {a : Agent} {t : Target} {entry : String} {path folder : Path}
    (hs : a.scope = .folder folder) (h : ownEntry project site a t = .ok (entry, path)) :
    entryName t = .ok entry ∧ path = Project.resolve folder entry ∧ folder.contains path = true ∧
      path.same folder.normalize = false ∧ project.isDoc path = false ∧
      site.isScratch path = false := by
  simp only [ownEntry, hs, Scope.folder?] at h
  obtain ⟨name, hn, h⟩ := bind_eq_ok.mp h
  split at h
  · cases h
  next hin =>
  split at h
  · cases h
  next hkept =>
  cases h
  simp only [Bool.or_eq_true, Bool.not_eq_true', not_or, Bool.not_eq_true, Bool.not_eq_false]
    at hin hkept
  exact ⟨hn, rfl, hin.1, hin.2, hkept.1, hkept.2⟩

/-- **What a target can mean** to the manager of a folder: a direct entry of it. In the root of the
file system the way up is one of them. -/
theorem ownEntry_cases {site : Site} {a : Agent} {t : Target} {entry : String} {path : Path}
    (hdir : dir.Named) (hs : a.scope = .folder (pathOf dir))
    (h : ownEntry project site a t = .ok (entry, path)) :
    (∃ e, IsName e ∧ path = pathOf (dir ++ [e])) ∨ (dir = [] ∧ path = pathOf [".."]) := by
  obtain ⟨hentry, hpath, hin, hsame, -, -⟩ := ownEntry_eq_ok hs h
  have ht := entryName_slashless hentry
  rw [Project.resolve_pathOf hdir ht] at hpath
  rw [hpath] at hin hsame ⊢
  rcases Path.normalize_concat hdir (Project.trim_slashless ht) with
    ⟨-, he⟩ | ⟨-, hne, he⟩ | ⟨-, hnil, he⟩ | ⟨hname, he⟩
  · -- The folder itself is refused.
    rw [he, Path.normalize_pathOf hdir, (Path.same_pathOf hdir hdir).mpr rfl] at hsame
    cases hsame
  · -- So is the folder above.
    have hup : Location.Named dir.dropLast :=
      fun n hn => hdir n ((List.dropLast_prefix dir).subset hn)
    rw [he, Path.contains_pathOf hdir hup] at hin
    have hlen := hin.length_le
    rw [List.length_dropLast] at hlen
    have := List.length_pos_iff.mpr hne
    omega
  · exact Or.inr ⟨hnil, he⟩
  · exact Or.inl ⟨_, hname, he⟩

end Turn

end Arbor
