import Arbor.Turn.World

/-! # Changing the project

A coder overwrites its own file, a manager makes and removes direct entries of its folder, and both
kinds of notes are overwritten by their keepers. An entry that is made gets an agent, and the agent
of an entry that is removed goes. The files that the engine keeps can be neither made nor
removed. -/

namespace Arbor.Turn

open Directive

/-- Overwrites a file that the agent owns. -/
def overwrite (project : Project) (path : Path) (content : String) : Act Step := do
  let name := project.displayName path
  Act.onFiles "write" name fun fs => fs.writeText path content
  return .succeeded ("wrote " ++ Nat.repr content.utf8ByteSize ++ " bytes to " ++ name)

/-- **Overwrites the agent's own file.** -/
def change (project : Project) (content : String) : Act Step := do
  match (← get).agent.scope.file? with
  | none => throw .noFileOwned
  | some file => overwrite project file content

/-- **Overwrites the notes that the agent keeps.** -/
def writeDoc (project : Project) (content : String) : Act Step := do
  match (← get).agent.docPath? project with
  | none => throw .noDocOwned
  | some doc => overwrite project doc content

/-- A name without blanks around it and without slashes at its end. -/
def bareName (name : String) : String :=
  String.ofList ((Text.trimChars name.toList).reverse.dropWhile (· == '/')).reverse

/-- The direct entry of a folder that a target names. -/
def entryName (t : Target) : Except AgentError String :=
  match (Path.mk (bareName t.name)).components with
  | [.name entry] => .ok entry
  | _ => .error (.notDirectEntry t.name)

/-- The entry of the agent's folder that a target names, and its path. -/
def ownEntry (project : Project) (site : Site) (a : Agent) (t : Target) :
    Except AgentError (String × Path) := do
  let some dir := a.scope.folder? | throw .noFolderOwned
  let entry ← entryName t
  let path := Project.resolve dir entry
  if !dir.contains path || path.same dir.normalize then throw (.outsideScope t.name a.name)
  if project.isDoc path || site.isScratch path then throw (.managedByEngine t.name)
  return (entry, path)

/-- Makes a folder with empty notes. -/
def makeFolder (name : String) (path : Path) : Act Unit := do
  Act.onFiles "create" name fun fs => fs.makeFolder path
  Act.onFiles "create doc file for" name fun fs => Project.ensureDoc fs path

/-- **Makes an entry of the agent's folder** and asks for its agent. -/
def create (project : Project) (t : Target) (content : Option String) : Act Step := do
  let d ← get
  let (entry, path) ← ownEntry project d.world.site d.agent t
  if d.world.site.files.exists? path || (d.agent.children.get? entry).isSome then
    throw (.io "create" t.name .present)
  if t.isFolder && content.isSome then throw .contentForFolder
  if t.isFolder then makeFolder t.name path
  else Act.onFiles "create" t.name fun fs => fs.writeText path (content.getD "")
  let kind := if t.isFolder then Kind.manager else Kind.coder
  let id ← Act.freshAgent
  Act.modifyAgent fun a => { a with children := a.children.put entry { id := id, kind := kind } }
  return ⟨.succeeded ("created " ++ t.print), [.adopt id kind path]⟩

/-- **Removes an entry of the agent's folder** and lets its agent go. -/
def delete (project : Project) (t : Target) : Act Step := do
  let d ← get
  let (entry, path) ← ownEntry project d.world.site d.agent t
  let files := d.world.site.files
  if !files.exists? path then throw (.io "delete" t.name .absent)
  if t.isFolder != files.isFolder path then throw (.otherType t.name (files.isFolder path))
  let child := d.agent.children.get? entry
  if child.any fun link => d.agent.delegated.any fun x => x.1 = link.id then
    throw (.childBusy t.name)
  Act.onFiles "delete" t.name fun fs => if t.isFolder then fs.removeFolder path
    else fs.removeFile path
  match child with
  | none => return .succeeded ("deleted " ++ t.print)
  | some link =>
    Act.modifyAgent fun a => { a with children := a.children.drop entry }
    return ⟨.succeeded ("deleted " ++ t.print), [.release link.id]⟩

end Arbor.Turn
