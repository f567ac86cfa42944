import Arbor.Shell.Expand
import Arbor.Shell.Program.Basic

/-! # Redirections

What stands behind `<`, `>` and their like is carried out before a command runs and taken back
behind it. A redirection that cannot be carried out is told, and the command is not run. -/

namespace Arbor.Shell

namespace Sh

/-- Where a file that is written leads, made or emptied as asked. -/
def openSink (append : Bool) (name : String) : Sh (Except String Sink) := do
  let s ← get
  if name = "/dev/null" then return .ok .nowhere
  else if name = "/dev/stdout" then return .ok ((s.sinks.lookup 1).getD .nowhere)
  else if name = "/dev/stderr" then return .ok ((s.sinks.lookup 2).getD .nowhere)
  else
    let p ← locate name
    if append && s.files.isFile p then return .ok (.file p)
    else
      match s.files.writeText p "" with
      | .ok files => do
        modify fun s => { s with files := files }
        return .ok (.file p)
      | .error e =>
        let reason := if e = .notFound || e = .notFolder then "Directory nonexistent" else e.reason
        return .error ("cannot create " ++ name ++ ": " ++ reason)

/-- Leads a descriptor elsewhere. -/
def setSink (descriptor : Nat) (sink : Sink) : Sh Unit :=
  modify fun s => { s with sinks := (descriptor, sink) :: s.sinks.filter fun k =>
    k.1 != descriptor }

/-- Closes a descriptor. -/
def close (descriptor : Nat) : Sh Unit :=
  modify fun s => { s with
    sinks := s.sinks.filter fun k => k.1 != descriptor
    inputs := s.inputs.filter fun d => d.1 != descriptor }

/-- Leads a descriptor to where another leads, or closes it. -/
def duplicate (descriptor : Nat) (target : String) : Sh (Option String) := do
  let s ← get
  if target = "-" then do
    close descriptor
    return none
  else
    let number? := Program.count? target
    match number?.bind fun n => s.sinks.lookup n, number?.bind fun n => s.inputs.lookup n with
    | some sink, _ => do
      setSink descriptor sink
      return none
    | none, some n => do
      set { s with inputs := (descriptor, n) :: s.inputs.filter fun d => d.1 != descriptor }
      return none
    | none, none => return some (target ++ ": Bad file descriptor")

/-- Carries out a redirection; what it says if it cannot. -/
def redirect (run : Script → Sh Unit) (r : Redirect) : Sh (Option String) := do
  let target ← textOf run r.target
  match r.kind with
  | .input =>
    match ← readFile target with
    | .ok content => do
      openInput r.descriptor ⟨content, true, false⟩
      return none
    | .error .isFolder => do
      openInput r.descriptor ⟨.empty, true, true⟩
      return none
    | .error _ => return some ("cannot open " ++ target ++ ": No such file")
  | .document => do
    openInput r.descriptor (.pipe (.ofText target))
    return none
  | .duplicate => duplicate r.descriptor target
  | kind =>
    match ← openSink (kind = .append) target with
    | .ok sink => do
      setSink r.descriptor sink
      return none
    | .error text => return some text

/-- Carries out redirections up to the first that fails. -/
def redirectAll (run : Script → Sh Unit) : List Redirect → Sh Bool
  | [] => return true
  | r :: rest => do
    match ← redirect run r with
    | none => redirectAll run rest
    | some text => do
      tell text
      finish 2
      return false

/-- **Runs something under redirections.** A failure of those ends the shell if it is `fatal`. -/
def redirected (run : Script → Sh Unit) (fatal : Bool) (rs : List Redirect) (act : Sh Unit) :
    Sh Unit := do
  let before ← get
  let restore : Sh Unit := do
    modify fun s => { s with sinks := before.sinks }
    if !rs.isEmpty then restoreInputs before
  try
    if ← redirectAll run rs then act
    else if fatal then throw (.exit 2)
    restore
  catch stop => do
    restore
    throw stop

end Sh

end Arbor.Shell
