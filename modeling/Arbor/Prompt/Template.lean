import Arbor.Agent.Kind

/-! # Prompts

A prompt is rendered from a fixed template and the variables of the agent. A section whose variable
is absent or empty is left out. The sections stand under headings, file contents between fences. -/

namespace Arbor.Prompt

/-- A named piece of text that is shown to the model. -/
structure FileView where
  name : String
  content : String
  deriving DecidableEq, Repr

/-- Everything a template may use. -/
structure Vars where
  role : String
  reference : String
  examples : String
  task : Option String
  ownFile : Option FileView
  doc : Option FileView
  memory : List FileView
  children : List String
  /-- The listing of the codebase. -/
  tree : String
  /-- The queued prompts of the turn. -/
  prompt : String
  /-- The earlier turns. -/
  context : String
  deriving DecidableEq, Repr

/-- The templates. -/
inductive Template where
  | system
  | coder
  | tester
  | manager
  | master
  | docUpdate
  deriving DecidableEq, Repr

namespace Template

/-- The name of a template. -/
def name : Template → String
  | .system => "system"
  | .coder => "coder"
  | .tester => "tester"
  | .manager => "manager"
  | .master => "master"
  | .docUpdate => "doc_update"

/-- All templates. -/
def all : List Template := [.system, .coder, .tester, .manager, .master, .docUpdate]

/-- The template of a name. -/
def ofName? (s : String) : Option Template := all.find? fun t => t.name == s

/-- The template of an agent's own turns. -/
def ofKind : Kind → Template
  | .master => .master
  | .manager => .manager
  | .coder => .coder
  | .helper .tester => .tester

end Template

/-- Lines between fences. -/
def fenced (text : String) : String := "```\n" ++ text ++ "\n```\n"

/-- The task under its heading, nothing if there is none. -/
def taskSection (heading : String) (task : Option String) : String :=
  match task with
  | some text => if text.isEmpty then "" else "## " ++ heading ++ "\n" ++ text ++ "\n\n"
  | none => ""

/-- A file of the agent under its heading, with a remark before the content. -/
def fileSection (heading remark : String) (file : Option FileView) : String :=
  match file with
  | some f => "## " ++ heading ++ ": " ++ f.name ++ "\n" ++ remark ++ fenced f.content ++ "\n"
  | none => ""

/-- The notes under their heading. -/
def docSection (heading : String) (doc : Option FileView) : String :=
  match doc with
  | some d => "## " ++ heading ++ " (" ++ d.name ++ ")\n" ++ d.content ++ "\n\n"
  | none => ""

/-- The remembered files, each under its name. -/
def memorySection (memory : List FileView) : String :=
  String.join (memory.map fun f => "## " ++ f.name ++ "\n" ++ fenced f.content ++ "\n")

/-- The children as a list. -/
def childrenSection (children : List String) : String :=
  "## Children\n" ++
    (if children.isEmpty then "(none)\n"
      else String.join (children.map fun c => "- " ++ c ++ "\n")) ++ "\n"

/-- The listing, the earlier turns and the prompt, which end the template of every kind. -/
def closing (v : Vars) : String :=
  "## Codebase\n" ++ fenced v.tree ++ "\n" ++
    (if v.context.isEmpty then "" else "## Earlier turns\n" ++ v.context ++ "\n") ++
    "## Prompt\n" ++ v.prompt

/-- The system text of a turn. -/
def systemText (v : Vars) : String :=
  "You are " ++ v.role ++ "\n\n" ++
    "You act on the codebase by replying with exactly ONE directive per turn and\n" ++
    "nothing else. The engine executes it and answers with the result on your next\n" ++
    "turn.\n\n" ++ v.reference ++ "\n\nExamples:\n" ++ v.examples

/-- The request for new notes after a finished task. -/
def docUpdateText (v : Vars) : String :=
  let docName := (v.doc.map FileView.name).getD ""
  let notes := (v.doc.map FileView.content).getD ""
  "You keep the notes file " ++ docName ++ " for the directory it lives in. The\n" ++
    "agent responsible for this directory just finished a task. Rewrite the notes\n" ++
    "so the next agent understands what the directory contains and how its parts\n" ++
    "fit together.\n\n" ++
    "Reply with the complete new content of the notes file and nothing else.\n\n" ++
    "## Finished task\n" ++ v.task.getD "None" ++ "\n\n" ++
    "## Outcome\n" ++ v.prompt ++ "\n\n" ++
    "## Current notes\n" ++ notes ++ "\n\n" ++
    "## Directory\n```\n" ++ v.tree ++ "\n```"

/-- What a tester is told before its file. -/
def testerRemark : String :=
  "Write the tests into this file with CHANGE, run them with RUN, and FINISH with\n" ++
    "a short report of what passed and what failed.\n"

/-- **The text of a template.** -/
def Template.render (t : Template) (v : Vars) : String :=
  match t with
  | .system => systemText v
  | .coder =>
    taskSection "Task" v.task ++ fileSection "Your file" "" v.ownFile ++
      memorySection v.memory ++ closing v
  | .tester =>
    taskSection "Testing task" v.task ++
      fileSection "Your scratch file" testerRemark v.ownFile ++
      memorySection v.memory ++ closing v
  | .manager =>
    taskSection "Task" v.task ++ docSection "Notes for this directory" v.doc ++
      childrenSection v.children ++ memorySection v.memory ++ closing v
  | .master =>
    taskSection "Request from the human" v.task ++ docSection "Project documentation" v.doc ++
      memorySection v.memory ++ closing v
  | .docUpdate => docUpdateText v

/-- A template that is not there, or that cannot be rendered. -/
structure UnknownTemplate where
  name : String
  deriving DecidableEq, Repr

/-- The wording of the failure. -/
def UnknownTemplate.message (e : UnknownTemplate) : String := "Unknown template: " ++ e.name

/-- Renders the template of a name. -/
def render (name : String) (v : Vars) : Except UnknownTemplate String :=
  match Template.ofName? name with
  | some t => .ok (t.render v)
  | none => .error ⟨name⟩

end Arbor.Prompt
