import Arbor.Agent.Kind

/-! # What an agent is told about itself

The description of an agent's role, the reference of its dialect and example replies, by kind. -/

namespace Arbor.Prompt

/-- What a coder may say. -/
def coderReference : String :=
  r#"Directives:
  READ FILE "name" [FILE "other" ...]     add files to your memory (paths relative to your directory)
  RUN COMMAND="command"                   run an allowed shell command in your directory
  CHANGE CONTENT="full new file content"  overwrite your own file
  SPAWN TESTER PROMPT="what to test"      start a tester (repeat TESTER PROMPT=... for more)
  WAIT                                    wait for your testers to report
  FINISH PROMPT="summary"                 report your work and end the task

Strings are double-quoted and may span lines; write \" for a quote and \\ for a backslash."#

/-- What a tester may say. -/
def testerReference : String :=
  r#"Directives:
  READ FILE "name" [FILE "other" ...]     add files to your memory (paths relative to your directory)
  RUN COMMAND="command"                   run an allowed shell command in your directory
  CHANGE CONTENT="full new file content"  overwrite your scratch file
  WAIT                                    wait (only useful while something is running)
  FINISH PROMPT="report"                  report the test results and end

Strings are double-quoted and may span lines; write \" for a quote and \\ for a backslash."#

/-- What a manager may say. -/
def managerReference : String :=
  r#"Directives:
  READ FILE "name" | FOLDER "name" ...           add files (or a folder's notes) to your memory
  CREATE FILE "name" [CONTENT="..."]             create a file directly inside your directory
  CREATE FOLDER "name"                           create a sub-directory directly inside your directory
  DELETE FILE "name" | FOLDER "name"             delete an entry of your directory
  DELEGATE FILE "name" PROMPT="task" ...         give tasks to children (FOLDER for sub-directories)
  RUN COMMAND="command"                          run an allowed shell command in your directory
  UPDATE_README CONTENT="notes"                  overwrite the notes of your directory
  SPAWN TESTER PROMPT="what to test"             start a tester in a scratch file
  WAIT                                           wait for children and testers to report
  FINISH PROMPT="summary"                        report your work and end the task (children must be done)

Strings are double-quoted and may span lines; write \" for a quote and \\ for a backslash."#

/-- What the master may say. -/
def masterReference : String :=
  r#"Directives:
  READ FILE "name" | FOLDER "name" ...   add files (or a folder's notes) to your memory
  DELEGATE PROMPT="task"                 hand a task to the root agent of the codebase
  SPAWN TESTER PROMPT="what to test"     start a tester in a scratch file
  RUN COMMAND="command"                  run an allowed shell command at the project root
  WAIT                                   wait for the root agent and testers to report
  UPDATE_DOCUMENTATION CONTENT="text"    overwrite the project documentation
  MESSAGE PROMPT="question"              ask the human something and keep working
  FINISH PROMPT="summary"                hand back to the human once everything reported

Strings are double-quoted and may span lines; write \" for a quote and \\ for a backslash."#

/-- Replies of a coder. -/
def coderExamples : String :=
  r#"READ FILE "helpers.py"
CHANGE CONTENT="def add(a, b):
    return a + b
"
SPAWN TESTER PROMPT="Check add() with negative numbers"
FINISH PROMPT="Implemented add()""#

/-- Replies of a tester. -/
def testerExamples : String :=
  r#"CHANGE CONTENT="from calc import add

def test_add():
    assert add(-1, 1) == 0
"
RUN COMMAND="pytest -q calc_scratch.py"
FINISH PROMPT="1 passed""#

/-- Replies of a manager. -/
def managerExamples : String :=
  r#"READ FOLDER "utils"
CREATE FILE "cli.py"
DELEGATE FILE "cli.py" PROMPT="Add an argument parser" FOLDER "utils" PROMPT="Expose parse_args"
WAIT
UPDATE_README CONTENT="cli.py: entry point. utils/: helpers."
FINISH PROMPT="CLI added""#

/-- Replies of the master. -/
def masterExamples : String :=
  r#"READ FILE "README.md"
DELEGATE PROMPT="Add input validation to every public function"
WAIT
RUN COMMAND="pytest -q"
FINISH PROMPT="Validation added, 12 tests pass""#

/-- The role of an agent of the given kind and name. -/
def role (kind : Kind) (name : String) : String :=
  match kind with
  | .master =>
    "the master agent of a software project. You take requests from a human, hand them to the " ++
      "root agent of the codebase, check the outcome and report back to the human."
  | .manager =>
    "the agent responsible for the directory `" ++ name ++
      "`. You plan work for your directory, " ++
      "delegate file-level work to your children and keep the directory notes current."
  | .coder =>
    "the agent responsible for the file `" ++ name ++
      "`. You read, change and test this one file."
  | .helper _ =>
    "a tester working in the scratch file `" ++ name ++
      "`. You write tests there, run them and report the results."

/-- The reference of the dialect. -/
def reference : Kind → String
  | .master => masterReference
  | .manager => managerReference
  | .coder => coderReference
  | .helper _ => testerReference

/-- Example replies. -/
def examples : Kind → String
  | .master => masterExamples
  | .manager => managerExamples
  | .coder => coderExamples
  | .helper _ => testerExamples

end Arbor.Prompt
