import Arbor.Agent.Basic

/-! # The agents of a project

`Roster.build` makes one manager for every folder and one coder for every file that agents see, with
the root's manager above all. Notes and documentation have no coder, links have no agent. Folders
get empty notes where they have none. -/

namespace Arbor

/-- The agents of a project, the root's manager first, each folder before what it holds. -/
structure Roster where
  agents : List Agent
  root : AgentId
  deriving DecidableEq, Repr

/-- Why there is no roster. -/
structure RosterError where
  /-- The folder that could not be given notes. -/
  path : Path
  error : OsError
  deriving DecidableEq, Repr

/-- The wording of an error. -/
def RosterError.message (e : RosterError) : String :=
  "Failed to prepare " ++ e.path.text ++ ": " ++ e.error.message

namespace Roster

/-- The agent of an identity. -/
def get? (r : Roster) (id : AgentId) : Option Agent := r.agents.find? fun a => a.id = id

/-- The agent of a display name. -/
def find? (r : Roster) (name : String) : Option Agent := r.agents.find? fun a => a.name = name

/-- What is said of an identity that no agent has. -/
def strangerMessage (id : AgentId) : String := "Agent not found in tree: " ++ id.text

/-- Gives folders their notes. -/
def prepare (files : FileSystem) (dir : Path) : Except RosterError FileSystem :=
  match Project.ensureDoc files dir with
  | .ok files => .ok files
  | .error e => .error ⟨dir, e⟩

/-- The kind of the agent of an entry, if it has one. -/
def kindOf? (project : Project) (path : Path) : Entry → Option Kind
  | .folder => some .manager
  | .file _ => if project.isDoc path then none else some .coder
  | .link _ => none

/-- The scope of the agent of an entry. -/
def scopeOf (kind : Kind) (path : Path) : Scope :=
  if kind = .manager then .folder path else .file path

/-- Links a child to its parent. -/
def link (parent : AgentId) (entry : String) (child : ChildLink) (agents : List Agent) :
    List Agent :=
  agents.map fun a => if a.id = parent then { a with children := a.children.put entry child } else a

/-- What building has so far: the files, the agents and the next number. -/
structure Progress where
  files : FileSystem
  agents : List Agent
  nextNumber : Nat

/-- Adds the agent of an entry below the manager `parent`. -/
def add (project : Project) (now : Nat) (parent : AgentId) (kind : Kind) (path : Path)
    (name : String) (b : Progress) : Except RosterError Progress := do
  let files ← if kind = .manager then prepare b.files path else pure b.files
  let id : AgentId := ⟨b.nextNumber⟩
  let agent := Agent.fresh id kind (project.displayName path) (scopeOf kind path) (some parent) now
  return {
    files := files
    agents := link parent name { id := id, kind := kind } b.agents ++ [agent]
    nextNumber := b.nextNumber + 1 }

/-- Adds the agents of entries of a folder and of everything below them, at most `levels` deep. The
entries of a folder are read when it is met, before it gets its notes. -/
def addBelow (project : Project) (site : Site) (now : Nat) :
    Nat → AgentId → Path → Location → List (String × Entry) → Progress → Except RosterError Progress
  | 0, _, _, _, _, b => .ok b
  | levels + 1, parent, dir, loc, entries, b =>
    entries.foldlM (fun b (name, entry) => do
      let path := dir.joinName name
      let place := loc ++ [name]
      if !Project.isSeen site path then return b
      match kindOf? project path entry with
      | none => return b
      | some kind =>
        let id : AgentId := ⟨b.nextNumber⟩
        let inner := b.files.children place
        let b ← add project now parent kind path name b
        if kind = .manager then addBelow project site now levels id path place inner b
        else return b) b

/-- **Builds the roster.** Notes that are made on the way have no agent. No path has more components
than there are entries, so deeper levels are empty. -/
def build (project : Project) (site : Site) (firstNumber now : Nat) :
    Except RosterError (Roster × Site × Nat) := do
  let files ← prepare site.files project.root
  let id : AgentId := ⟨firstNumber⟩
  let root := Agent.fresh id .manager (project.displayName project.root)
    (.folder project.root) none now
  let loc := (files.walk .followed project.root).toOption.getD []
  let b ← addBelow project site now (files.entries.length + 1) id project.root loc
    (files.children loc) ⟨files, [root], firstNumber + 1⟩
  return ({ agents := b.agents, root := id }, { site with files := b.files }, b.nextNumber)

end Roster

end Arbor
