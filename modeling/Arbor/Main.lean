import Arbor.Command.Execute
import Arbor.Command.PolicyDocument
import Arbor.CommandLine
import Arbor.Engine.Settle

/-! # The program

The project is read into memory, the engine is started, and the prompt is run. Whoever sits at the
standard input is the model and, behind a master, the human: every call is written out, and its
reply is read up to a line with a single dot. At the end the files that changed are written back. -/

namespace Arbor.Main

/-- Reads what stands below a folder. -/
partial def load (path : String) (location : Location) (fs : FileSystem) : IO FileSystem := do
  let mut fs := fs
  for entry in ← (← IO.FS.realPath path).readDir do
    let inner := path ++ "/" ++ entry.fileName
    let place := location ++ [entry.fileName]
    if ← entry.path.isDir then
      fs ← load inner place (fs.insert place .folder)
    else
      fs := fs.insert place (.file (← IO.FS.readBinFile inner))
  return fs

/-- A file with these bytes stands at a location. -/
def holds (fs : FileSystem) (location : Location) (bytes : ByteArray) : Bool :=
  match fs.find? location with
  | some (.file old) => old.data == bytes.data
  | _ => false

/-- Writes back what differs from what was read. -/
def store (before after : FileSystem) : IO Unit := do
  for (location, entry) in after.entries.reverse do
    let path := (FileSystem.pathOf location).text
    match entry with
    | .folder => if (before.find? location).isNone then IO.FS.createDirAll path
    | .file bytes => if !holds before location bytes then IO.FS.writeBinFile path bytes
    | .link _ => pure ()
  for (location, entry) in before.entries do
    let path := (FileSystem.pathOf location).text
    if (after.find? location).isNone then
      match entry with
      | .file _ => IO.FS.removeFile path
      | _ => IO.FS.removeDirAll path

/-- The text up to a line with a single dot, or to the end of the input. -/
partial def readReply (input : IO.FS.Stream) (lines : String) : IO String := do
  let line ← input.getLine
  if line.isEmpty || line = ".\n" then return lines else readReply input (lines ++ line)

/-- What the human says to a question; the end of the input ends the session. -/
def askHuman (question : String) : IO HumanAnswer := do
  IO.print ("\n" ++ question ++ "\n> ")
  (← IO.getStdout).flush
  let line ← (← IO.getStdin).getLine
  return .ok (if line.isEmpty then "exit" else String.ofList (Text.trimEndChars line.toList))

/-- What a command comes to. -/
def runCommand (project : Project) (files : FileSystem) (command : String) (cwd : Path) :
    ExecutorAnswer :=
  match Command.execute files cwd project.config.commandTimeout command with
  | .ok output => .ok output
  | .error e => .error e.message

/-- The engine with answers of the executor and of the human laid down. -/
def prepared (e : Engine) (executor : List ExecutorAnswer) (human : List HumanAnswer) : Engine :=
  { e with world := { e.world with
      ran := []
      asked := []
      executor := { e.world.executor with answers := executor }
      human := { e.world.human with answers := human } } }

/-- Takes a step and settles. Commands and questions that it leads to are answered one by one, each
after a trial with the answers so far. -/
partial def takeStep (step : Engine → Engine) (e : Engine) (executor : List ExecutorAnswer)
    (human : List HumanAnswer) : IO Engine := do
  let trial := (step (prepared e executor human)).settle
  match trial.world.ran[executor.length]?, trial.world.asked[human.length]? with
  | some (command, cwd), _ =>
    let answer := runCommand e.project trial.world.site.files command cwd
    takeStep step e (executor ++ [answer]) human
  | none, some question => takeStep step e executor (human ++ [← askHuman question])
  | none, none => return trial

/-- The open calls, the oldest first. -/
def openCalls (e : Engine) : List (Call × Slot) :=
  (e.slots.filterMap fun s => s.phase.call?.map fun c => (c, s)).mergeSort
    fun a b => a.1.number ≤ b.1.number

/-- Answers calls until the run has its result or the input ends. -/
partial def converse (e : Engine) : IO Engine := do
  match e.runs.any fun r => !r.stage.isOver, openCalls e with
  | true, (call, slot) :: _ => do
    IO.println ("\n=== " ++ slot.agent.name ++ " ===")
    match call.request.system with
    | some system => IO.println (system ++ "\n")
    | none => pure ()
    for message in call.request.messages do
      IO.println message.content
    IO.println "--- reply ---"
    let reply ← readReply (← IO.getStdin) ""
    if reply.isEmpty then return e.shutdown.settle
    converse (← takeStep (fun e => e.answer slot.id (.ok reply)) e [] [])
  | _, _ => return e

/-- The variables that the settings come from. -/
def settingNames : List String :=
  ["OPENROUTER_API_KEY", "DEFAULT_MODEL", "CODETREE_MAX_TREE_DEPTH",
    "CODETREE_COMMAND_TIMEOUT_SECS",
    "CODETREE_PROVIDER_BACKOFF_SECS", "CODETREE_WATCHDOG_SECS", "CODETREE_MAX_CONSECUTIVE_ERRORS",
    "CODETREE_REFRESH_DOCS", "CODETREE_SCRATCH_EXTENSION", "CODETREE_POLICY"]

/-- The environment, as far as it holds settings. -/
def environment : IO Config.Environment := do
  let mut env : Config.Environment := []
  for name in settingNames do
    match ← IO.getEnv name with
    | some value => env := env ++ [(name, value)]
    | none => pure ()
  return env

/-- The text of the allow-list, if one is configured and can be read. -/
def policyText (env : Config.Environment) : IO (Option String) := do
  match env.lookup "CODETREE_POLICY" with
  | none => return none
  | some path =>
    try return some (← IO.FS.readFile path)
    catch _ => return none

/-- The allow-list of a text. -/
def loadPolicy (text : Option String) (path : String) : Except ConfigError Command.Policy :=
  match text with
  | none => .error (.policyUnreadable path)
  | some text =>
    match Command.Policy.ofDocument? text with
    | none => .error (.policyMalformed path)
    | some policy => .ok policy

/-- One line on an agent. -/
def describe (a : Agent) : String :=
  a.kind.text ++ " " ++ a.name ++ (if a.isActive then " (active)" else "") ++ ", " ++
    Nat.repr a.completed.length ++ " task(s) completed"

/-- Says why the program cannot go on. -/
def refuse (code : UInt32) (text : String) : IO UInt32 := do
  IO.eprintln ("error: " ++ text)
  return code

/-- Shows how the run ended. -/
def conclude (line : CommandLine) (e : Engine) : IO UInt32 := do
  if line.dumpState then
    for a in e.agents do
      IO.eprintln (describe a)
  match e.runs.head?.map Run.stage with
  | some (.finished payload) => do
    IO.println payload
    return 0
  | some (.failed error) => refuse 1 error.message
  | _ => return 0

/-- Runs the prompt in a project that was read into memory. -/
def work (line : CommandLine) (config : Config) (root : Path) (files : FileSystem) : IO UInt32 := do
  match Project.openAt files root config with
  | .error e => refuse 1 e.message
  | .ok project =>
    match Roster.build project { files := files, scratch := [] } 1 0 with
    | .error e => refuse 1 e.message
    | .ok (roster, site, next) => do
      let world := { World.start files [] [] next with site := site }
      let start := Engine.launch project { absent := [] } world roster true
      let ready := if line.master then (start.attachMaster none).toOption.getD start else start
      let target := ready.master.getD ready.root
      let begun ← takeStep (fun e => e.run target line.prompt) ready [] []
      let ended ← converse begun
      store files ended.world.site.files
      conclude line ended

end Arbor.Main

/-- Runs a prompt on a project. -/
def main (args : List String) : IO UInt32 := do
  match Arbor.CommandLine.parse args with
  | .error e => do
    IO.eprintln ("error: " ++ e.message ++ "\n\n" ++ Arbor.CommandLine.usage)
    return 2
  | .ok line => do
    let env ← Arbor.Main.environment
    let policy ← Arbor.Main.policyText env
    match Arbor.Config.ofEnvironment env (Arbor.Main.loadPolicy policy) with
    | .error e => Arbor.Main.refuse 1 e.message
    | .ok config => do
      let config := { config with model := line.model.getD config.model }
      let root ← IO.FS.realPath line.root
      let path : Arbor.Path := ⟨root.toString⟩
      let above := (path.text.splitOn "/").filter fun n => !n.isEmpty
      let bare := (Arbor.FileSystem.mk []).plant path .folder
      let files ← Arbor.Main.load path.text above bare
      Arbor.Main.work line config path files
