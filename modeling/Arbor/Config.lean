import Arbor.Command.Policy
import Arbor.Text.Decimal

/-! # Settings

The settings of a run come from environment variables; every one but the key of the provider has a
value by default. Variables are looked at in a fixed order and the first that cannot be read is
reported, with its text as it was given. -/

namespace Arbor

open Command

/-- The settings. Times are in milliseconds. -/
structure Config where
  apiKey : String
  model : String
  /-- How deep the listing of the codebase goes. -/
  maxTreeDepth : Nat
  commandTimeout : Nat
  /-- How long an agent waits when the provider refuses a turn. -/
  providerBackoff : Nat
  /-- How long the master may be inactive. -/
  watchdogInterval : Nat
  /-- How many turns in a row may fail. -/
  maxFailures : Nat
  /-- The extension of scratch files, without a dot. -/
  scratchExtension : String
  /-- The budget of earlier turns in a prompt, in bytes. -/
  maxContext : Nat
  /-- Whether a manager's notes are written anew after its task. -/
  refreshDocs : Bool
  policy : Policy
  deriving DecidableEq, Repr

/-- Why there are no settings. -/
inductive ConfigError where
  | missing (key : String)
  | invalid (key value : String)
  /-- The file of the allow-list cannot be read as text. -/
  | policyUnreadable (path : String)
  /-- The file of the allow-list is not a list of programs. -/
  | policyMalformed (path : String)
  deriving DecidableEq, Repr

/-- The wording of an error, as far as it is fixed here. -/
def ConfigError.message : ConfigError → String
  | .missing v => "Missing required environment variable: " ++ v
  | .invalid v value => "Invalid value for " ++ v ++ ": " ++ value
  | .policyUnreadable path => "Failed to read command policy " ++ path
  | .policyMalformed path => "Failed to parse command policy " ++ path

namespace Config

/-- Environment variables and their values. -/
abbrev Environment := List (String × String)

/-- A variable that is read by `parse`, after blanks around it are dropped. -/
def setting {α : Type} (env : Environment) (key : String) (default : α)
    (parse : String → Option α) : Except ConfigError α :=
  match env.lookup key with
  | none => .ok default
  | some value =>
    match parse (Text.trim value) with
    | some a => .ok a
    | none => .error (.invalid key value)

/-- The words for the truth values. -/
def bool? (s : String) : Option Bool :=
  if s = "true" then some true else if s = "false" then some false else none

/-- A number of 64 bits. -/
def word64? : String → Option Nat := Text.decimal? UInt64.size

/-- A number of 32 bits. -/
def word32? : String → Option Nat := Text.decimal? UInt32.size

/-- **The settings of an environment.** `loadPolicy` reads the allow-list at a path. -/
def ofEnvironment (env : Environment) (loadPolicy : String → Except ConfigError Policy) :
    Except ConfigError Config := do
  let some apiKey := env.lookup "OPENROUTER_API_KEY"
    | throw (.missing "OPENROUTER_API_KEY")
  let model := (env.lookup "DEFAULT_MODEL").getD "anthropic/claude-sonnet-4.5"
  let maxTreeDepth ← setting env "CODETREE_MAX_TREE_DEPTH" 3 word64?
  let commandTimeout ← setting env "CODETREE_COMMAND_TIMEOUT_SECS" 60 word64?
  let providerBackoff ← setting env "CODETREE_PROVIDER_BACKOFF_SECS" 30 word64?
  let watchdog ← setting env "CODETREE_WATCHDOG_SECS" 600 word64?
  let maxFailures ← setting env "CODETREE_MAX_CONSECUTIVE_ERRORS" 5 word32?
  let refreshDocs ← setting env "CODETREE_REFRESH_DOCS" true bool?
  let scratchExtension := match env.lookup "CODETREE_SCRATCH_EXTENSION" with
    | some ext => String.ofList (ext.toList.dropWhile (· == '.'))
    | none => "py"
  let policy ← match env.lookup "CODETREE_POLICY" with
    | some path => loadPolicy path
    | none => pure Policy.standard
  return {
    apiKey := apiKey
    model := model
    maxTreeDepth := maxTreeDepth
    commandTimeout := commandTimeout * 1000
    providerBackoff := providerBackoff * 1000
    watchdogInterval := watchdog * 1000
    maxFailures := maxFailures
    scratchExtension := scratchExtension
    maxContext := 24000
    refreshDocs := refreshDocs
    policy := policy }

/-- The settings that hold when nothing is configured. -/
def standard (apiKey model : String) : Config where
  apiKey := apiKey
  model := model
  maxTreeDepth := 3
  commandTimeout := 60000
  providerBackoff := 30000
  watchdogInterval := 600000
  maxFailures := 5
  scratchExtension := "py"
  maxContext := 24000
  refreshDocs := true
  policy := .standard

end Config

end Arbor
