import Arbor.Directive.Parse
import Arbor.Prompt.Role
import Arbor.Prompt.Template
import Arbor.Turn.Interpret

/-! # One turn

A turn has two halves around the call of the model. `begin` renders the queued prompts and marks the
turn as in flight; `complete` records the reply, empties the queue, carries the reply out and ends
the turn. A reply that is no directive leaves one prompt that says so. -/

namespace Arbor.Turn

open Directive

/-- What a file shows, also when it cannot be read. -/
def shownContent (files : FileSystem) (p : Path) : String :=
  (files.readText? p).getD "<missing>"

/-- A file under its display name. -/
def viewFile (project : Project) (files : FileSystem) (p : Path) : Prompt.FileView :=
  ⟨project.displayName p, shownContent files p⟩

/-- How a child is shown to its manager. -/
def childLine (name : String) (link : ChildLink) : String :=
  (if link.kind = .manager then "FOLDER" else "FILE") ++ " \"" ++ name ++ "\""

/-- The variables of an agent's prompt. Files are read anew for every prompt. -/
def promptVars (project : Project) (site : Site) (a : Agent) (prompt : String) : Prompt.Vars where
  role := Prompt.role a.kind a.name
  reference := Prompt.reference a.kind
  examples := Prompt.examples a.kind
  task := a.task.map Task.text
  ownFile := a.scope.file?.map (viewFile project site.files)
  doc := (a.docPath? project).map (viewFile project site.files)
  memory := a.memory.map fun m => ⟨m.1, shownContent site.files m.2⟩
  children := a.children.map fun c => childLine c.1 c.2
  tree := project.listing site (a.baseDir project) project.config.maxTreeDepth
  prompt := prompt
  context := Exchange.history project.config.maxContext a.context

/-- The templates that can be rendered: all but the absent ones. -/
structure Templates where
  absent : List String
  deriving DecidableEq, Repr

/-- Renders a template. -/
def Templates.render (ts : Templates) (t : Prompt.Template) (v : Prompt.Vars) :
    Except Prompt.UnknownTemplate String :=
  if ts.absent.contains t.name then .error ⟨t.name⟩ else .ok (t.render v)

/-- What a turn asks the model. -/
structure Request where
  /-- The queued prompts, which are recorded with the reply. -/
  prompt : String
  system : String
  user : String
  deriving DecidableEq, Repr

/-- The queued prompts as one. -/
def joinedQueue (a : Agent) : String := String.intercalate "\n\n" a.queue

/-- **Starts a turn,** if a prompt is queued. -/
def begin (project : Project) (templates : Templates) (site : Site) (a : Agent) :
    Except Prompt.UnknownTemplate (Option (Request × Agent)) := do
  if a.queue.isEmpty then return none
  let prompt := joinedQueue a
  let vars := promptVars project site a prompt
  let system ← templates.render .system vars
  let user ← templates.render (.ofKind a.kind) vars
  return some ({ prompt := prompt, system := system, user := user }, { a with stalled := true })

/-- **Ends a turn** with the reply of the model. -/
def complete (project : Project) (prompt response : String) (desk : Desk) : List Effect × Desk :=
  let a := { desk.agent with
    context := desk.agent.context ++ [Exchange.mk prompt response]
    queue := [] }
  let (effects, after) := match Directive.parse a.kind.dialect response with
    | .ok x => interpret project x { desk with agent := a }
    | .error e => ([], { desk with agent := a.enqueue ("PARSING FAILED: " ++ e.message) })
  (effects, { after with agent := { after.agent with stalled := false } })

end Arbor.Turn
