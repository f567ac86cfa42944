import Arbor.Turn.World

/-! # Reading into memory

A file that an agent reads is remembered under its display name and shown in every later prompt of
the task. Of a folder its notes are remembered. All targets are found before any is remembered. -/

namespace Arbor.Turn

open Directive

/-- The file that a target stands for. -/
def locate (project : Project) (files : FileSystem) (base : Path) (t : Target) :
    Except AgentError Path :=
  let p := Project.resolve base t.name
  if !project.holds p then .error (.outsideProject t.name)
  else if t.isFolder then
    if !files.isFolder p then .error (.io "read folder" t.name .absent)
    else if !files.isFile (Project.docPath p) then .error (.io "read doc file of" t.name .absent)
    else .ok (Project.docPath p)
  else if !files.isFile p then .error (.io "read" t.name .absent)
  else .ok p

/-- Remembers files under their display names. -/
def remember (project : Project) (paths : List Path) (memory : Table Path) : Table Path :=
  paths.foldl (fun m p => m.put (project.displayName p) p) memory

/-- **Reads targets into memory.** -/
def read (project : Project) (targets : List Target) : Act Step := do
  let d ← get
  let base := d.agent.baseDir project
  let paths ← (targets.mapM (locate project d.world.site.files base) : Except AgentError _)
  Act.modifyAgent fun a => { a with memory := remember project paths a.memory }
  let names := paths.map project.displayName
  return .succeeded ("added " ++ String.intercalate ", " names ++ " to memory")

end Arbor.Turn
