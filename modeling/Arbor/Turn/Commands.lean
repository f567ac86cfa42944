import Arbor.Turn.World

/-! # Running commands

A command is checked against the allow-list and then handed to the executor. Its folded output is
the answer, as a success or as a failure by its exit code. -/

namespace Arbor.Turn

/-- **Runs a command in the agent's folder.** -/
def run (project : Project) (command : String) : Act Step := do
  match project.config.policy.check command with
  | .error _ => throw (.commandRefused command)
  | .ok _ =>
    let cwd := (← get).agent.baseDir project
    match ← Act.execute command cwd with
    | .error text => throw (.executor text)
    | .ok output =>
      if output.code = 0 then return .succeeded output.fold else throw (.commandFailed output)

end Arbor.Turn
