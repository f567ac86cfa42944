/-! # Signals

The signals by name and number, what they do to a process that takes no care of them, and how the
end by a signal is told. -/

namespace Arbor.Shell.Signal

/-- The signals in the order of their numbers, from one on. Some have numbers for names. -/
def names : List String :=
  ["HUP", "INT", "QUIT", "ILL", "TRAP", "ABRT", "BUS", "FPE", "KILL", "USR1", "SEGV",
    "USR2", "PIPE",
    "ALRM", "TERM", "16", "CHLD", "CONT", "STOP", "TSTP", "TTIN", "TTOU", "URG", "XCPU", "XFSZ",
    "VTALRM", "PROF", "WINCH", "IO", "PWR", "SYS", "32", "33", "RTMIN"] ++
  (List.range 15).map (fun n => "RTMIN+" ++ Nat.repr (n + 1)) ++
  (List.range 14).map (fun n => "RTMAX-" ++ Nat.repr (14 - n)) ++ ["RTMAX"]

/-- The name of a number; `EXIT` is the end of a shell. -/
def name? (n : Nat) : Option String := if n = 0 then some "EXIT" else names[n - 1]?

/-- The number of a name, in large or small letters. -/
def number? (s : String) : Option Nat :=
  let name := s.map Char.toUpper
  if name = "EXIT" then some 0 else (names.idxOf? name).map (· + 1)

/-- What a signal does to a process that takes no care of it. -/
inductive Action where
  | ends
  | stops
  | nothing
  deriving DecidableEq, Repr

/-- The action of a signal. -/
def action (n : Nat) : Action :=
  if [0, 17, 18, 23, 28].contains n then .nothing
  else if [19, 20, 21, 22].contains n then .stops
  else .ends

/-- A process cannot take care of the signal. -/
def isFinal (n : Nat) : Bool := n = 9 || n = 19

/-- How the end by a signal is told; nothing is said of some. -/
def ending? (n : Nat) : Option String :=
  match n with
  | 1 => some "Hangup"
  | 2 => none
  | 3 => some "Quit"
  | 4 => some "Illegal instruction"
  | 5 => some "Trace/breakpoint trap"
  | 6 => some "Aborted"
  | 7 => some "Bus error"
  | 8 => some "Floating point exception"
  | 9 => some "Killed"
  | 10 => some "User defined signal 1"
  | 11 => some "Segmentation fault"
  | 12 => some "User defined signal 2"
  | 13 => none
  | 14 => some "Alarm clock"
  | 15 => some "Terminated"
  | n => some ("Signal " ++ Nat.repr n)

end Arbor.Shell.Signal
