import Arbor.Command.Output
import Arbor.Directive.Print
import Arbor.FileSystem

/-! # Refused directives

The reasons for which a directive is not carried out, and their wording. None of them ends a turn:
each becomes the next prompt of the agent that caused it. -/

namespace Arbor

open Directive

/-- Why a file operation of a directive did not happen. -/
inductive IoCause where
  | os (error : OsError)
  /-- Nothing stands at the path. -/
  | absent
  /-- Something stands at the path already. -/
  | present
  deriving DecidableEq, Repr

/-- The wording of a cause. -/
def IoCause.message : IoCause → String
  | .os e => e.message
  | .absent => "no such file or directory"
  | .present => "already exists"

/-- Why a directive is refused. -/
inductive AgentError where
  /-- The path is outside the project. -/
  | outsideProject (name : String)
  /-- The path is outside the agent's folder. -/
  | outsideScope (name agent : String)
  | notDirectEntry (name : String)
  | managedByEngine (name : String)
  | noFileOwned
  | noFolderOwned
  | noDocOwned
  | contentForFolder
  /-- The entry is of the other type. -/
  | otherType (name : String) (isFolder : Bool)
  | helperSpawns
  | childrenActive (count : Nat)
  | helpersActive (count : Nat)
  | rootActive
  | noRoot
  | nothingToWaitFor
  | noChild (target : Target)
  /-- The child is of the other type. -/
  | otherChild (name : String) (isFolder : Bool)
  | childBusy (name : String)
  | commandRefused (command : String)
  /-- The executor itself failed. -/
  | executor (text : String)
  | commandFailed (output : Command.Output)
  | human (text : String)
  | io (action path : String) (cause : IoCause)
  deriving DecidableEq, Repr

/-- The wording of a refusal by permission. -/
def denied (reason : String) : String := "permission denied: " ++ reason

/-- The wording of a refusal. -/
def AgentError.message : AgentError → String
  | .outsideProject name => denied (name ++ " is outside the project")
  | .outsideScope name agent => denied (name ++ " is outside " ++ agent)
  | .notDirectEntry name =>
    denied (name ++ " is not a direct entry of this directory; delegate nested work instead")
  | .managedByEngine name => denied (name ++ " is managed by the engine")
  | .noFileOwned => denied "no file owned"
  | .noFolderOwned => denied "no directory owned"
  | .noDocOwned => denied "no doc file owned"
  | .contentForFolder => denied "CONTENT can only be given for a FILE"
  | .otherType name isFolder => denied (name ++ " is " ++ if isFolder then "a folder" else "a file")
  | .helperSpawns => denied "ephemeral agents cannot spawn helpers"
  | .childrenActive count => Nat.repr count ++ " child agent(s) still active"
  | .helpersActive count => Nat.repr count ++ " ephemeral agent(s) still active"
  | .rootActive => "root agent still active"
  | .noRoot => "no root agent attached"
  | .nothingToWaitFor => "nothing to wait for"
  | .noChild target => "no child named " ++ target.print
  | .otherChild name isFolder => name ++ " is a " ++ if isFolder then "FOLDER" else "FILE"
  | .childBusy name => name ++ " is still working on a delegated task"
  | .commandRefused command => "Invalid command '" ++ command ++ "'"
  | .executor text => text
  | .commandFailed output => output.fold
  | .human text => "human interface failed: " ++ text
  | .io action path cause => action ++ " " ++ path ++ ": " ++ cause.message

end Arbor
