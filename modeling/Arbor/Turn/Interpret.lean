import Arbor.Turn.Commands
import Arbor.Turn.Delegation
import Arbor.Turn.Memory

/-! # Carrying out a directive

`interpret` carries out one directive for one agent. What concerns the agent and the files happens
here; what concerns other agents comes back as effects. At most one prompt is left on the queue: the
success or the failure of the verb, or the reply of the human. -/

namespace Arbor.Turn

open Directive

/-- The master records activity before it works on the project. -/
def touchFirst (d : Dialect) : Act Unit := if d = .master then Act.touch else pure ()

/-- What a directive does. -/
def perform (project : Project) : {d : Dialect} → Directive d → Act Step
  | d, .read targets => do touchFirst d; read project targets
  | d, .run command => do touchFirst d; run project command
  | d, .spawn orders => do touchFirst d; spawn project orders
  | _, .wait => wait
  | .coder, .finish report => finish project report
  | .manager, .finish report => finish project report
  | .master, .finish report => finishMaster report
  | _, .change content => change project content
  | _, .create target content => create project target content
  | _, .delete target => delete project target
  | _, .assign assignments => assign assignments
  | _, .updateReadme content => writeDoc project content
  | _, .delegate prompt => do Act.touch; delegateToRoot prompt
  | _, .updateDocumentation content => writeDoc project content
  | _, .message question => message question

/-- The prompt that the outcome of a verb leaves. -/
def followUpPrompt? (verb : Verb) : Except AgentError Step → Option String
  | .error e => some (verb.text ++ " failed: " ++ e.message)
  | .ok ⟨.silent, _⟩ => none
  | .ok ⟨.succeeded note, _⟩ => some (verb.text ++ " succeeded: " ++ note)
  | .ok ⟨.prompt text, _⟩ => some text

/-- The effects of an outcome; a refusal has none. -/
def effectsOf : Except AgentError Step → List Effect
  | .error _ => []
  | .ok step => step.effects

/-- **Carries out a directive,** leaves its prompt on the queue and returns its effects. -/
def interpret (project : Project) {d : Dialect} (x : Directive d) (desk : Desk) :
    List Effect × Desk :=
  let (outcome, after) := (perform project x).run desk
  let agent := (followUpPrompt? x.verb outcome).elim after.agent after.agent.enqueue
  (effectsOf outcome, { after with agent := agent })

end Arbor.Turn
