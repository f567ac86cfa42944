import Arbor.FileSystem
import Arbor.Shell.Script
import Arbor.Shell.Stream
import Arbor.Table

/-! # The state of a shell

Files, variables, where the descriptors lead, and the time that has passed. What is written through
a descriptor lands in a buffer, in a file, or nowhere. Buffers 1 and 2 are what the caller sees;
others join the stages of pipelines. A buffer is read in the order of the times at which it was
written to, so what a command in the background writes late stands late. Times are in
microseconds. -/

namespace Arbor.Shell

/-- Where a descriptor leads. -/
inductive Sink where
  | buffer (number : Nat)
  | file (path : Path)
  | nowhere
  deriving DecidableEq, Repr

/-- Something that was written to a buffer. -/
structure Chunk where
  time : Nat
  /-- Who wrote it. -/
  process : Nat
  content : Stream
  deriving DecidableEq, Repr

/-- A command in the background and when it ends. -/
structure Job where
  process : Nat
  /-- The last of the processes that it started. -/
  lastProcess : Nat
  ending : Nat
  status : Nat
  /-- The signal that ended it. -/
  signal : Option Nat
  /-- The command writes to nothing that the caller reads. -/
  detached : Bool
  deriving DecidableEq, Repr

/-- A signal that is sent to a process at a time. -/
structure Delivery where
  time : Nat
  target : Nat
  signal : Nat
  deriving DecidableEq, Repr

/-- Something that is open for reading: what is left of it, and what it is. -/
structure Source where
  rest : Stream
  /-- It is a file and not a pipe. -/
  isFile : Bool
  /-- It is a folder, which cannot be read. -/
  isFolder : Bool
  deriving DecidableEq, Repr

/-- A source with nothing in it. -/
def Source.none : Source := ⟨.empty, false, false⟩

/-- A source that another program has written. -/
def Source.pipe (s : Stream) : Source := ⟨s, false, false⟩

/-- The options of a shell. -/
structure Settings where
  /-- A failed command ends the shell. -/
  strict : Bool
  /-- An unset parameter ends the shell. -/
  demanding : Bool
  /-- Words are not matched against file names. -/
  unmatched : Bool
  /-- Commands are written to the standard error before they run. -/
  traced : Bool
  /-- Commands are read and not run. -/
  idle : Bool
  deriving DecidableEq, Repr

/-- The options of a shell that was given none. -/
def Settings.plain : Settings where
  strict := false
  demanding := false
  unmatched := false
  traced := false
  idle := false

/-- The state of a shell. -/
structure State where
  /-- The name of the shell in its messages. -/
  name : String
  /-- The command of the shell that runs what is told of, if there is one. -/
  context : String
  files : FileSystem
  /-- The rights of entries that are not the usual ones. -/
  modes : List (Location × Nat)
  cwd : Path
  bindings : Table String
  /-- The variables that other programs see. -/
  exported : List String
  /-- The variables that keep their values. -/
  frozen : List String
  /-- The positional parameters. -/
  arguments : List String
  functions : List (String × Script)
  /-- Variables of the function that runs, with what they were outside of it. -/
  locals : Option (List (String × Option String))
  /-- What is done on signals and at the end, by name. -/
  traps : Table String
  settings : Settings
  /-- The exit code of the last command. -/
  status : Nat
  now : Nat
  /-- When time is up. -/
  limit : Nat
  /-- The process that the shell runs in. -/
  process : Nat
  /-- The process of the shell that it belongs to. -/
  shell : Nat
  /-- Signals that are on the way. -/
  pending : List Delivery
  jobs : List Job
  /-- The last command that was put in the background. -/
  lastJob : Option Nat
  nextProcess : Nat
  buffers : List (Nat × List Chunk)
  sinks : List (Nat × Sink)
  /-- What is open for reading, each under a number. Processes read on where others have stopped. -/
  opened : List (Nat × Source)
  /-- The descriptors for reading, with the numbers of what they lead to. -/
  inputs : List (Nat × Nat)
  nextSource : Nat
  /-- Short names for commands. -/
  aliases : Table String
  /-- The rights that new files do not get. -/
  mask : Nat
  /-- The word of the last option that was read, and the place in it of the next one. -/
  optionWord : Option String
  optionChar : Nat
  niceness : Nat
  /-- The exit code of the command is looked at. -/
  tested : Bool
  /-- How many loops of the shell are around the command. -/
  loops : Nat
  /-- The line of the command that runs. -/
  line : Nat

/-- Why a shell stops before the end of its script. -/
inductive Stop where
  | exit (code : Nat)
  | killed (signal : Nat)
  /-- Time is up. -/
  | overrun
  /-- Nobody reads on what was written. -/
  | unread
  /-- A function returns. -/
  | returned (code : Nat)
  | leaveLoop (levels : Nat)
  | nextRound (levels : Nat)
  deriving DecidableEq, Repr

/-- A part of the run of a shell. -/
abbrev Sh := ExceptT Stop (StateM State)

/-- The process of the shell itself. -/
def ownProcess : Nat := 1000

namespace State

/-- The folders in which programs are looked for. -/
def programFolders : String := "/usr/local/sbin:/usr/local/bin:/usr/sbin:/usr/bin:/sbin:/bin"

/-- The folders that every system has. -/
def standardFolders : List Location :=
  [["bin"], ["boot"], ["dev"], ["etc"], ["home"], ["lib"], ["media"], ["mnt"], ["opt"], ["proc"],
    ["root"], ["run"], ["sbin"], ["srv"], ["sys"], ["tmp"], ["usr"], ["usr", "bin"],
    ["usr", "include"], ["usr", "lib"], ["usr", "local"], ["usr", "local", "bin"],
    ["usr", "local", "lib"], ["usr", "sbin"], ["usr", "share"], ["usr", "src"], ["var"],
    ["var", "lib"], ["var", "log"], ["var", "tmp"]]

/-- The devices that every system has. -/
def devices : List String :=
  ["full", "null", "random", "stderr", "stdin", "stdout", "tty", "urandom", "zero"]

/-- A file system with the folders and devices that every system has. -/
def furnished (files : FileSystem) : FileSystem :=
  let wanted := standardFolders.map (·, Entry.folder)
    ++ devices.map fun d => (["dev", d], Entry.file .empty)
  ⟨files.entries ++ wanted.filter fun e => (files.entries.lookup e.1).isNone⟩

/-- The variables that a shell sets for itself. -/
def ownBindings : Table String :=
  [("IFS", " \t\n"), ("OPTIND", "1"), ("PPID", "999"), ("PS1", "# "), ("PS2", "> "), ("PS4", "+ ")]

/-- A shell in a folder, at time zero. -/
def start (files : FileSystem) (cwd : Path) (limit : Nat) : State where
  name := "/bin/sh"
  context := ""
  files := furnished files
  modes := []
  cwd := cwd
  bindings := ownBindings ++ [("HOME", "/root"), ("PATH", programFolders), ("PWD", cwd.text)]
  exported := ["HOME", "PATH", "PWD"]
  frozen := []
  arguments := []
  functions := []
  locals := none
  traps := []
  settings := .plain
  status := 0
  now := 0
  limit := limit
  process := ownProcess
  shell := ownProcess
  pending := []
  jobs := []
  lastJob := none
  nextProcess := ownProcess + 1
  buffers := [(1, []), (2, [])]
  sinks := [(1, .buffer 1), (2, .buffer 2)]
  opened := [(0, .none)]
  inputs := [(0, 0)]
  nextSource := 1
  aliases := []
  mask := 0o022
  optionWord := none
  optionChar := 0
  niceness := 0
  tested := false
  loops := 0
  line := 1

/-- A path as seen from the folder of the shell; no name is no path. -/
def locate (s : State) (name : String) : Path := if name.isEmpty then ⟨""⟩ else s.cwd.join ⟨name⟩

/-- The rights of an entry at a location. -/
def mode (s : State) (loc : Location) : Nat :=
  let usual := match s.files.find? loc with
    | some .folder => 0o755
    | some (.link _) => 0o777
    | _ => 0o644
  (s.modes.lookup loc).getD usual

/-- Gives rights to a location. -/
def setMode (s : State) (loc : Location) (mode : Nat) : State :=
  { s with modes := (loc, mode) :: s.modes.filter fun m => m.1 != loc }

/-- The entry may be run. -/
def isRunnable (s : State) (loc : Location) : Bool :=
  [0o100, 0o010, 0o001].any fun right => s.mode loc / right % 2 = 1

/-- What a buffer holds, in the order of time. -/
def buffer (s : State) (n : Nat) : Stream :=
  let chunks := ((s.buffers.lookup n).getD []).mergeSort fun a b => a.time ≤ b.time
  chunks.foldl (fun all c => all.append c.content) .empty

/-- Adds to a buffer. -/
def addTo (s : State) (n : Nat) (content : Stream) : State :=
  let chunk : Chunk := { time := s.now, process := s.process, content := content }
  let old := (s.buffers.lookup n).getD []
  { s with buffers := (n, old ++ [chunk]) :: s.buffers.filter fun b => b.1 != n }

/-- When all commands have ended, in the background or not. -/
def ending (s : State) : Nat := (s.jobs.map Job.ending).foldl max s.now

/-- When nothing more can be written to what the caller reads. -/
def lastWrite (s : State) : Nat :=
  ((s.jobs.filter fun j => !j.detached).map Job.ending).foldl max s.now

end State

namespace Sh

/-- Sets the exit code. -/
def finish (code : Nat) : Sh Unit := modify fun s => { s with status := code }

/-- A path as seen from the folder of the shell. -/
def locate (name : String) : Sh Path := do return (← get).locate name

/-- Adds to a file. -/
def appendFile (fs : FileSystem) (p : Path) (bytes : List UInt8) : FileSystem :=
  let old := ((fs.read p).toOption.map ByteArray.toList).getD []
  ((fs.write p ⟨(old ++ bytes).toArray⟩).toOption).getD fs

/-- Writes through a descriptor. What never ends is read by the next stage of a pipeline at most. -/
def emit (descriptor : Nat) (out : Stream) : Sh Unit := do
  match (← get).sinks.lookup descriptor with
  | some (.buffer n) =>
    modify fun s => s.addTo n out
    if out.isEndless then throw (if n ≤ 2 then .overrun else .unread)
  | some (.file p) =>
    if out.isEndless then throw .overrun
    modify fun s => { s with files := appendFile s.files p out.start }
  | _ => if out.isEndless then throw .overrun

/-- Writes a text to the standard output. -/
def say (text : String) : Sh Unit := emit 1 (.ofText text)

/-- Writes a line to the standard error. -/
def complain (text : String) : Sh Unit := emit 2 (.ofText (text ++ "\n"))

/-- Writes a line to the standard error in the name of the shell. -/
def report (text : String) : Sh Unit := do
  let s ← get
  complain (s.name ++ ": " ++ Nat.repr s.line ++ ": " ++ text)

/-- Says something of a command, behind the command of the shell that runs it. -/
def tell (text : String) : Sh Unit := do report ((← get).context ++ text)

/-- Runs something in the context of a command of the shell. -/
def within (context : String) (act : Sh Unit) : Sh Unit := do
  let before := (← get).context
  modify fun s => { s with context := context }
  try act
  catch stop => do
    modify fun s => { s with context := before }
    throw stop
  modify fun s => { s with context := before }

/-- Lets time pass. -/
def pass (span : Nat) : Sh Unit := do
  modify fun s => { s with now := s.now + span }
  if (← get).limit ≤ (← get).now then throw .overrun

/-- What a descriptor for reading leads to. -/
def sourceAt? (descriptor : Nat) : Sh (Option Source) := do
  let s ← get
  return (s.inputs.lookup descriptor).bind fun n => s.opened.lookup n

/-- The standard input. -/
def input : Sh Source := do return (← sourceAt? 0).getD .none

/-- Leads a descriptor for reading to a source of its own. -/
def openInput (descriptor : Nat) (source : Source) : Sh Unit :=
  modify fun s => { s with
    opened := (s.nextSource, source) :: s.opened
    inputs := (descriptor, s.nextSource) :: s.inputs.filter fun d => d.1 != descriptor
    nextSource := s.nextSource + 1 }

/-- Leaves so much of the standard input to be read. -/
def leaveInput (rest : Stream) : Sh Unit :=
  modify fun s => { s with
    opened := match s.inputs.lookup 0 with
      | some n => s.opened.map fun o => if o.1 = n then (n, { o.2 with rest := rest }) else o
      | none => s.opened }

/-- Takes all of the standard input. -/
def takeInput : Sh Stream := do
  let source ← input
  leaveInput .empty
  return source.rest

/-- Gives back what was taken of the standard input without need; a pipe takes nothing back. -/
def giveBack (rest : Stream) : Sh Unit := do
  if (← input).isFile then leaveInput rest

/-- Leads the descriptors for reading to where they led before, and forgets what was opened
since. -/
def restoreInputs (before : State) : Sh Unit :=
  modify fun s => { s with
    inputs := before.inputs
    opened := s.opened.filter fun o => o.1 < before.nextSource
    nextSource := before.nextSource }

/-- Runs something with a standard input of its own. -/
def withInput (source : Source) (act : Sh Unit) : Sh Unit := do
  let before ← get
  openInput 0 source
  try act
  catch stop => do
    restoreInputs before
    throw stop
  restoreInputs before

/-- Reads a file or a device. -/
def readFile (name : String) : Sh (Except OsError Stream) := do
  match name with
  | "/dev/null" => return .ok .empty
  | "/dev/zero" | "/dev/full" => return .ok ⟨[], [0]⟩
  | "/dev/random" | "/dev/urandom" => return .ok ⟨[], [0x9d, 0x2c, 0xe1, 0x57, 0x83, 0x0b]⟩
  | "/dev/stdin" => return .ok (← takeInput)
  | _ =>
    match (← get).files.read (← locate name) with
    | .ok bytes => return .ok (.ofBytes bytes.toList)
    | .error e => return .error e

/-- Runs something as a process of its own: what it sets is lost, what it writes stays. -/
def isolated (act : Sh Unit) : Sh Unit := do
  let outer ← get
  let restore : Sh Unit := modify fun s => { outer with
    files := s.files
    modes := s.modes
    status := s.status
    now := s.now
    jobs := s.jobs
    pending := s.pending
    nextProcess := s.nextProcess
    opened := s.opened.filter fun o => o.1 < outer.nextSource
    buffers := s.buffers }
  modify fun s => { s with process := s.nextProcess, nextProcess := s.nextProcess + 1 }
  try
    act
    restore
  catch
    | .exit code => do restore; finish code
    | .returned code => do restore; finish code
    | .leaveLoop _ => restore
    | .nextRound _ => restore
    | stop => do restore; throw stop

/-- Runs something with its output led into a buffer, and returns what was written. -/
def captured (act : Sh Unit) : Sh Stream := do
  let n := (← get).nextProcess
  modify fun s => { s with nextProcess := n + 1, buffers := (n, []) :: s.buffers }
  let inside : Sh Unit := do
    modify fun s => { s with sinks := (1, .buffer n) :: s.sinks.filter fun k => k.1 != 1 }
    act
  try isolated inside
  catch
    | .unread => pure ()
    | stop => throw stop
  let out := (← get).buffer n
  modify fun s => { s with buffers := s.buffers.filter fun b => b.1 != n }
  return out

/-- Runs something whose exit code is looked at: it does not end a strict shell. -/
def probed (act : Sh Unit) : Sh Bool := do
  let before := (← get).tested
  modify fun s => { s with tested := true }
  act
  modify fun s => { s with tested := before }
  return (← get).status = 0

end Sh

end Arbor.Shell
