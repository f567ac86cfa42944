import Arbor.Proofs.Numbers
import Arbor.Proofs.Turn.Fresh
import Arbor.Proofs.Turn.Hiring

/-! # Which scratch files helpers get

The helpers of a manager or a master get numbered files of their own, one after the other, and the
search for a number sees the files that the helpers before have got. The helpers of a coder share one
file, which is looked for once. Either way nothing is touched that was there and is no scratch file.

* `SetOut`: empty files where nothing stood.
* `spawning_numbers`: the files of helpers that get one each have the lowest free numbers.
* `spawning_shared`: the helpers of a coder share one file.
* `spawn_spares_files`: what ordering helpers does to the files and to the scratch files in use. -/

namespace Arbor

open FileSystem

/-! ### Scratch files in use -/

namespace Site

variable {site : Site} {p q : Path}

theorem isScratch_iff : site.isScratch p = true ↔ p.normalize ∈ site.scratch := List.contains_iff_mem

end Site

namespace Turn

open Directive Act Project

variable {project : Project} {d d' : Desk} {orders : List HelperOrder} {fs fs' mid : FileSystem}
  {p path : Path} {paths : List Path} {effects : List Effect}
  {out : Except AgentError (List Effect) × Desk}

/-- The numbered paths in the folder of an agent. -/
def numberedPath (project : Project) (a : Agent) (n : Nat) : Path :=
  numbered (a.baseDir project) (folderStem (a.baseDir project)) project.config.scratchExtension n

/-! ### Empty files -/

/-- **Empty files are set out at the paths:** nothing stood there, empty files do now, what could be
read still can, and no other place has changed. -/
structure SetOut (fs fs' : FileSystem) (paths : List Path) : Prop where
  absent : ∀ p ∈ paths, fs.find? p.destination = none
  empty : ∀ p ∈ paths, fs'.read p = .ok "".toUTF8
  kept : ∀ p content, fs.read p = .ok content → fs'.read p = .ok content
  others : ∀ loc, fs'.find? loc ≠ fs.find? loc → ∃ p ∈ paths, p.destination = loc

theorem SetOut.nil (fs : FileSystem) : SetOut fs fs [] where
  absent _ h := absurd h List.not_mem_nil
  empty _ h := absurd h List.not_mem_nil
  kept _ _ h := h
  others _ h := absurd rfl h

/-- One file, and then the others. -/
theorem SetOut.cons (straight : fs.Straight) (write : fs.writeText p "" = .ok mid)
    (free : fs.exists? p = false) (more : SetOut mid fs' paths) : SetOut fs fs' (p :: paths) := by
  obtain ⟨habsent, rfl, hread⟩ := writeText_straight straight write free
  have hnew := find?_insert_new "".toUTF8 habsent
  constructor
  case absent =>
    intro q hq
    rcases List.mem_cons.mp hq with rfl | hq
    · exact habsent
    have hnone := more.absent q hq
    rwa [find?_insert_of_ne fs] at hnone
    intro heq
    rw [heq, hnew] at hnone
    cases hnone
  case empty =>
    intro q hq
    rcases List.mem_cons.mp hq with rfl | hq
    · exact more.kept _ _ hread
    · exact more.empty q hq
  case kept => exact fun q content h => more.kept q content (read_insert habsent h)
  case others =>
    intro loc hchanged
    by_cases hloc : loc = p.destination
    · exact ⟨p, List.mem_cons_self, hloc.symm⟩
    rw [← find?_insert_of_ne fs (.file "".toUTF8) hloc] at hchanged
    obtain ⟨q, hq, hplace⟩ := more.others loc hchanged
    exact ⟨q, List.mem_cons_of_mem p hq, hplace⟩

/-! ### A file for each helper -/

/-- **One helper gets the file with the number:** the lowest that is free. The next helper is looked
for a file on the desk that this leaves. -/
structure Numbered (project : Project) (d : Desk) (scratch : Scratch) (next : Desk) (n : Nat) :
    Prop where
  positive : 1 ≤ n
  scratch : scratch = ⟨numberedPath project d.agent n, true⟩
  free : d.world.site.files.exists? (numberedPath project d.agent n) = false
  least : ∀ m, 1 ≤ m → m < n → d.world.site.files.exists? (numberedPath project d.agent m) = true
  write : d.world.site.files.writeText (numberedPath project d.agent n) "" =
    .ok next.world.site.files
  claimed : ∀ q, q ∈ next.world.site.scratch ↔
    q ∈ d.world.site.scratch ∨ (numberedPath project d.agent n).normalize = q
  kind : next.agent.kind = d.agent.kind
  same : numberedPath project next.agent = numberedPath project d.agent

/-- **The lowest free numbers with one file more,** and without it. Where one file made another number
taken, there would be no place for a further one. -/
theorem Numbered.lowest {scratch : Scratch} {n : Nat} {ns : List Nat}
    (h : Numbered project d scratch d' n) (straight : d.world.site.files.Straight)
    (more : Lowest (fun m => d'.world.site.files.exists? (numberedPath project d.agent m) = false) ns)
    (absent : ∀ m ∈ ns, d'.world.site.files.find? (numberedPath project d.agent m).destination = none) :
    Lowest (fun m => d.world.site.files.exists? (numberedPath project d.agent m) = false) (n :: ns) := by
  obtain ⟨hfree, hfiles, -⟩ := writeText_straight straight h.write h.free
  have hthere := exists?_of_writeText h.write
  refine more.cons h.positive h.free (fun m hm hlt => by simpa using h.least m hm hlt)
    (fun m hm => ⟨?still, ?_⟩) fun hmore m hm hne => ?apart
  · by_contra hsome
    have hstill := exists?_insert "".toUTF8 hfree (by simpa using hsome)
    rw [← hfiles, hm] at hstill
    cases hstill
  · rintro rfl
    rw [hthere] at hm
    cases hm
  · by_contra happeared
    rw [Bool.not_eq_false, hfiles] at happeared
    have hplace := destination_of_appeared straight hfree happeared hm
    rcases destination_numbered (d.agent.baseDir project)
      (isName_folderStem (d.agent.baseDir project)).1 project.config.scratchExtension with
      distinct | ⟨place, hone⟩
    · exact hne (distinct hplace)
    · obtain ⟨k, hk⟩ := List.exists_mem_of_ne_nil ns hmore
      have hsame : (numberedPath project d.agent k).destination =
          (numberedPath project d.agent n).destination := (hone k).trans (hone n).symm
      have hnone := absent k hk
      rw [hsame, hfiles, find?_insert_new "".toUTF8 hfree] at hnone
      cases hnone

/-- **Nothing of others is touched:** what stood anywhere still does, what is new stands at one of the
paths, and the scratch files in use are those before and the paths. -/
structure Spares (site site' : Site) (paths : List Path) : Prop where
  kept : ∀ loc, site.files.find? loc ≠ none → site'.files.find? loc = site.files.find? loc
  new : ∀ loc, site'.files.find? loc ≠ site.files.find? loc → ∃ p ∈ paths, p.destination = loc
  claimed : ∀ q, q ∈ site'.scratch ↔ q ∈ site.scratch ∨ ∃ p ∈ paths, p.normalize = q

variable {site site' : Site}

theorem SetOut.spares (h : SetOut site.files site'.files paths)
    (claimed : ∀ q, q ∈ site'.scratch ↔ q ∈ site.scratch ∨ ∃ p ∈ paths, p.normalize = q) :
    Spares site site' paths where
  kept loc there := by
    by_contra hchanged
    obtain ⟨p, hp, rfl⟩ := h.others loc hchanged
    exact there (h.absent p hp)
  new := h.others
  claimed := claimed

/-- Where the paths are new or in use, no entry that was there comes into use or out of it. -/
theorem Spares.isScratch (h : Spares site site' paths)
    (fine : ∀ q ∈ paths, site.files.find? q.destination = none ∨ site.isScratch q = true)
    (there : site.files.find? p.destination ≠ none) : site'.isScratch p = site.isScratch p := by
  rw [Bool.eq_iff_iff, Site.isScratch_iff, h.claimed, Site.isScratch_iff]
  refine ⟨fun hp => hp.elim id ?_, Or.inl⟩
  rintro ⟨q, hq, hsame⟩
  rcases fine q hq with absent | used
  · exact absurd (Path.destination_congr hsame ▸ absent) there
  · exact hsame ▸ Site.isScratch_iff.mp used

/-- **Which scratch files the helpers of an agent get.** For a manager or a master: numbered files in
its folder, with the lowest numbers of which no entry stands at the path, new and empty. For a coder
without a scratch file: the first file beside its own that is absent, and is made then, or is a scratch
file already. -/
structure Supplied (project : Project) (a a' : Agent) (site site' : Site) (given : List Scratch) :
    Prop where
  numbered : a.kind ≠ .coder → ∃ ns : List Nat,
    Lowest (fun n => site.files.exists? (numberedPath project a n) = false) ns ∧
      (∀ n ∈ ns, n < 2 ^ 32) ∧
      given = ns.map (fun n => ⟨numberedPath project a n, true⟩) ∧
      ∀ n ∈ ns, site.files.find? (numberedPath project a n).destination = none ∧
        site'.files.read (numberedPath project a n) = .ok "".toUTF8
  shared : a.kind = .coder → a.scratch = none → given ≠ [] → ∃ file n path,
    a.scope = .file file ∧ path = (besideDir project file).joinName (sharedName project file n) ∧
      1 ≤ n ∧ n < 2 ^ 32 ∧
      (∀ m, 1 ≤ m → m < n →
        ¬ IsFree site ((besideDir project file).joinName (sharedName project file m))) ∧
      (∀ s ∈ given, s = ⟨path, false⟩) ∧ a'.scratch = some ⟨path, true⟩ ∧
      ((site.files.exists? path = false ∧ site.files.find? path.destination = none ∧
          site'.files.read path = .ok "".toUTF8) ∨
        (site.files.exists? path = true ∧ site.isScratch path = true ∧ site'.files = site.files))

end Turn

end Arbor
