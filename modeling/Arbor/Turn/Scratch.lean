import Arbor.Turn.World

/-! # Helpers and their scratch files

A helper works in a scratch file. The helpers of a coder share one beside the coder's file, which
the coder owns; a helper of any other agent gets a numbered one of its own in the agent's folder. -/

namespace Arbor.Turn

open Directive

/-- The scratch file that a coder's helpers share, made where it is absent. -/
def sharedScratch (project : Project) : Act Scratch := do
  let d ← get
  let path ← match d.agent.scratch, d.agent.scope.file? with
    | some scratch, _ => pure scratch.path
    | none, some file => pure (project.coderScratch d.world.site file)
    | none, none => throw .noFileOwned
  if !d.world.site.files.exists? path then
    Act.onFiles "create" (project.displayName path) fun fs => fs.writeText path ""
  Act.modifyWorld fun w => { w with site := w.site.claim path }
  Act.modifyAgent fun a => { a with scratch := some { path := path, owned := true } }
  return { path := path, owned := false }

/-- A new scratch file in the agent's folder. -/
def privateScratch (project : Project) : Act Scratch := do
  let d ← get
  let path := project.nextScratch d.world.site (d.agent.baseDir project)
  Act.onFiles "create" (project.displayName path) fun fs => fs.writeText path ""
  Act.modifyWorld fun w => { w with site := w.site.claim path }
  return { path := path, owned := true }

/-- Makes the scratch file and the identity of each helper in turn. -/
def spawnAll (project : Project) : List HelperOrder → Act (List Effect)
  | [] => return []
  | order :: rest => do
    let kind := (← get).agent.kind
    let scratch ← if kind = .coder then sharedScratch project else privateScratch project
    let id ← Act.freshAgent
    Act.modifyAgent fun a => { a with helpers := a.helpers ++ [id] }
    let more ← spawnAll project rest
    return .spawn id order.kind order.prompt scratch :: more

/-- **Starts helpers.** A helper itself may not. -/
def spawn (project : Project) (orders : List HelperOrder) : Act Step := do
  if (← get).agent.kind.isHelper then throw .helperSpawns
  let effects ← spawnAll project orders
  return ⟨.succeeded ("spawned " ++ Nat.repr effects.length ++ " agent(s)"), effects⟩

/-- Lets go of an agent's scratch file, and removes it if the agent owns it. -/
def releaseScratch (a : Agent) (site : Site) : Agent × Site :=
  let bare := { a with scratch := none }
  match a.scratch with
  | some { path, owned := true } =>
    match site.files.removeFile path with
    | .ok files => (bare, { site with files := files }.forget path)
    | .error .notFound => (bare, site.forget path)
    | .error _ => (bare, site)
  | _ => (bare, site)

end Arbor.Turn
