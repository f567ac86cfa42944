import Arbor.Agent.Basic

/-! # How an envelope becomes a prompt

Every envelope leaves exactly one prompt on the queue. A task wakes an agent that has none; a busy
agent hears of it as one more prompt and stays with the task it has. A report strikes its sender off
those that work for the agent. The master counts every envelope as activity. -/

namespace Arbor.Agent

/-- Takes on a task, unless the agent has one. -/
def takeTask (a : Agent) (sender : Option AgentId) (task : Task) (now : Nat) : Agent :=
  if a.isActive then a.enqueue ("Additional task: " ++ task.text)
  else (a.activate task sender now).enqueue task.text

/-- Strikes the sender of a report off the children or else off the helpers that work for the
agent. -/
def dismiss (a : Agent) (sender : AgentId) : Agent :=
  if a.delegated.any fun d => d.1 = sender then a.dismissChild sender else a.dismissHelper sender

/-- Takes note of a report. A helper has nobody who could report to it. -/
def takeReport (a : Agent) (r : Report) : Agent :=
  (if a.kind.isHelper then a else a.dismiss r.sender).enqueue r.relay

/-- **Takes in an envelope.** -/
def receive (a : Agent) (e : Envelope) (now : Nat) : Agent :=
  let a := if a.kind = .master then a.touch now else a
  match e with
  | .plain text => a.enqueue text
  | .task sender task => a.takeTask sender task now
  | .report r => a.takeReport r

end Arbor.Agent
