import Arbor.Shell.Expand
import Arbor.Shell.Program.Basic
import Arbor.Shell.Signal

/-! # Processes and signals

A shell is a process, and so is each command that it puts in the background. A command in the
background is run at once, with its times counted from its own start; what was written later than
the moment at which it was killed is taken back. A signal to a shell that is not the one that runs
waits until that one goes on. -/

namespace Arbor.Shell

namespace Sh

/-- How long a process takes to start, in microseconds. -/
def startTime : Nat := 500

/-! ### Signals to the shell -/

/-- Takes a signal: by its trap, or as is usual for it. -/
def receive (run : Script → Sh Unit) (signal : Nat) : Sh Unit := do
  let s ← get
  match if Signal.isFinal signal then none else (Signal.name? signal).bind s.traps.get? with
  | some "" => return ()
  | some text => do
    runText run text.toList
    finish s.status
  | none =>
    match Signal.action signal with
    | .ends => throw (.killed signal)
    | .stops => throw .overrun
    | .nothing => return ()

/-- Takes the signals that have come. -/
def receiveAll (run : Script → Sh Unit) : Sh Unit := do
  let s ← get
  let here := fun (d : Delivery) => d.target = s.process && d.time ≤ s.now
  modify fun s => { s with pending := s.pending.filter fun d => !here d }
  for d in s.pending.filter here do
    receive run d.signal

/-- **Runs something to its end as a shell does:** an early end is an end, and what was asked for
the end is done then. -/
def session (run : Script → Sh Unit) (act : Sh Unit) : Sh Unit := do
  let ended (act : Sh Unit) : Sh Nat := do
    try
      act
      return (← get).status
    catch
      | .exit code => return code
      | .returned code => return code
      | .leaveLoop _ => return (← get).status
      | .nextRound _ => return (← get).status
      | stop => throw stop
  let code ← ended (do act; receiveAll run)
  finish code
  match (← get).traps.get? "EXIT" with
  | none => return ()
  | some text => do
    modify fun s => { s with traps := s.traps.drop "EXIT" }
    finish (← ended (do runText run text.toList; finish code))

/-- Runs something as a shell of its own, without the traps of this one. -/
def subshell (run : Script → Sh Unit) (act : Sh Unit) : Sh Unit :=
  isolated (session run (do
    modify fun s => { s with traps := s.traps.filter fun t => t.2.isEmpty, loops := 0 }
    act))

/-! ### Commands in the background -/

/-- Both outputs of a command lead elsewhere. -/
def isDetached : Script → Bool
  | .simple _ _ _ rs => [1, 2].all fun n => rs.any fun r => r.descriptor = n
  | .redirected _ rs => [1, 2].all fun n => rs.any fun r => r.descriptor = n
  | _ => false

/-- Runs something in the background. -/
def inBackground (run : Script → Sh Unit) (detached : Bool) (act : Sh Unit) : Sh Unit := do
  let before ← get
  modify fun s => { s with now := s.now + startTime }
  let ending ← try
      withInput .none (subshell run act)
      pure (← get).now
    catch
      | .overrun => pure (max (← get).now before.limit)
      | stop => throw stop
  let job : Job := {
    process := before.nextProcess
    lastProcess := (← get).nextProcess - 1
    ending := ending
    status := (← get).status
    signal := none
    detached := detached }
  modify fun s => { s with
    now := before.now
    status := 0
    lastJob := some job.process
    jobs := s.jobs ++ [job] }

/-- Ends a job now. -/
def cutShort (signal : Nat) (job : Job) : Sh Unit := do
  let now := (← get).now
  let late := fun (c : Chunk) =>
    job.process ≤ c.process && c.process ≤ job.lastProcess && now < c.time
  modify fun s => { s with
    buffers := s.buffers.map fun b => (b.1, b.2.filter fun c => !late c)
    jobs := s.jobs.map fun j =>
      if j.process = job.process && now < j.ending then
        { j with ending := now, status := 128 + signal, signal := some signal }
      else j }

/-- Sends a signal to a job. -/
def signalJob (signal : Nat) (job : Job) : Sh Unit := do
  match Signal.action signal with
  | .ends => cutShort signal job
  | .stops => modify fun s => { s with
      jobs := s.jobs.map fun j =>
        if j.process = job.process then { j with ending := max j.ending s.limit } else j }
  | .nothing => return ()

/-- The signal of a text: a number or a name. -/
def signal? (s : String) : Option Nat := (Program.count? s).or (Signal.number? s)

/-- Says what is wrong with the arguments of `kill`. -/
def badKill (text : String) : Sh Unit := do
  report ("kill: " ++ text)
  finish 2

/-- Sends a signal to a process. -/
def killOne (run : Script → Sh Unit) (signal : Nat) (target : String) : Sh Unit := do
  let s ← get
  match Program.count? target with
  | none =>
    if target.startsWith "%" then badKill ("No such job: " ++ target)
    else badKill ("Illegal number: " ++ target)
  | some process =>
    if process = s.process then receive run signal
    else if process = s.shell || process = ownProcess then
      modify fun s => { s with pending := s.pending ++ [⟨s.now, process, signal⟩] }
    else
      match s.jobs.find? fun j => j.process = process with
      | some job => signalJob signal job
      | none => do
        report "kill: No such process\n"
        finish 1

/-- The names of signals, one below the other or one of them. -/
def listSignals : List String → Sh Unit
  | [] => do
    say (String.join (("0" :: Signal.names).map (· ++ "\n")))
    finish 0
  | number :: _ =>
    match Program.count? number with
    | none => badKill ("Illegal number: " ++ number)
    | some n =>
      match Signal.name? (if 128 < n then n - 128 else n) with
      | some name => do
        say (name ++ "\n")
        finish 0
      | none => badKill ("invalid signal number or exit status: " ++ number)

/-- Sends a signal to processes. -/
def killAll (run : Script → Sh Unit) (signal : Nat) (targets : List String) : Sh Unit := do
  finish 0
  if targets.isEmpty then
    badKill ("Usage: kill [-s sigspec | -signum | -sigspec] [pid | job]... or\n" ++
      "kill -l [exitstatus]")
  for target in targets do
    killOne run signal target

/-- Sends a signal to the shell or to a command in the background. -/
def kill (run : Script → Sh Unit) : Program
  | "-l" :: rest => listSignals rest
  | "-s" :: name :: rest =>
    match signal? name with
    | some signal => killAll run signal rest
    | none => badKill ("invalid signal number or name: " ++ name)
  | "--" :: rest => killAll run 15 rest
  | arg :: rest =>
    match arg.toList with
    | '-' :: name =>
      match signal? (String.ofList name) with
      | some signal => killAll run signal rest
      | none => badKill ("Illegal option -" ++ String.ofList (name.take 1))
    | _ => killAll run 15 (arg :: rest)
  | [] => killAll run 15 []

/-- Waits for a command in the background, and ends as it has ended. -/
def waitFor (target : String) : Sh Unit := do
  let jobs := (← get).jobs
  match (Program.count? target).bind fun n => jobs.find? fun j => j.process = n with
  | none =>
    if (Program.count? target).isSome then finish 127
    else do
      report ("wait: " ++ (if target.startsWith "%" then "No such job: "
        else "Illegal number: ") ++ target)
      finish 2
  | some job => do
    modify fun s => { s with now := max s.now job.ending }
    pass 0
    match job.signal.bind Signal.ending? with
    | some text => complain text
    | none => pure ()
    finish job.status

/-- Waits for the commands in the background. -/
def wait : Program := fun targets => do
  if targets.isEmpty then do
    modify fun s => { s with now := s.ending }
    pass 0
    finish 0
  for target in targets do
    waitFor target

/-! ### Traps -/

/-- A text between quotes, as a shell would read it back. -/
def quoted (s : String) : String :=
  "'" ++ String.intercalate "'\"'\"'" (s.splitOn "'") ++ "'"

/-- Writes the traps in the order of their signals. -/
def listTraps : Sh Unit := do
  let s ← get
  for name in "EXIT" :: Signal.names do
    match s.traps.get? name with
    | some text => say ("trap -- " ++ quoted text ++ " " ++ name ++ "\n")
    | none => pure ()

/-- Says what is done on signals. -/
def trap : Program := fun args => do
  finish 0
  match if args.head? = some "--" then args.drop 1 else args with
  | [] => listTraps
  | first :: rest =>
    let resets := rest.isEmpty || first = "-" || (Program.count? first).isSome
    let names := if rest.isEmpty || (first != "-" && resets) then first :: rest else rest
    for name in names do
      match (signal? name).bind Signal.name? with
      | none => return ← Program.fail 1 ("trap: " ++ name ++ ": bad trap")
      | some name => modify fun s => { s with
          traps := if resets then s.traps.drop name else s.traps.put name first }

end Sh

end Arbor.Shell
