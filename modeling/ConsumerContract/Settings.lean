import ConsumerContract.Notice
import ConsumerContract.QueryString

/-!
# Settings

What all interactions of one contract share. What is not asked for comes from the environment, and from
the usual values where the environment is silent or names no known version.
-/

namespace ConsumerContract

/-- What the environment says. -/
structure Environment where
  version : Option String := none
  logLevel : Option String := none
  deriving DecidableEq, Repr

/-- What all interactions of one contract share. -/
structure Settings where
  consumer : String
  provider : String
  version : Version
  queryStyle : QueryStyle
  logLevel : String
  deriving DecidableEq, Repr

/-- How log lines are written. -/
structure Logging where
  level : String
  json : Bool := false
  withTarget : Bool := true
  deriving DecidableEq, Repr

namespace Environment

/-- The version that the environment asks for. -/
def versionOrStandard (env : Environment) : Noted Version :=
  match env.version with
  | none => pure .standard
  | some s =>
    match Version.read s with
    | some version => pure version
    | none => do
      Noted.give (.versionIgnored s)
      pure .standard

end Environment

namespace Settings

/-- The log level for which nothing else is asked. -/
def usualLogLevel : String :=
  "info"

/-- Settings for two participants in an environment. -/
def between (consumer provider : String) (env : Environment) : Noted Settings := do
  let version ← env.versionOrStandard
  pure ⟨consumer, provider, version, .never, env.logLevel.getD usualLogLevel⟩

/-- Settings for participants without names. -/
def unnamed (env : Environment) : Noted Settings :=
  between "" "" env

/-- How log lines are written. -/
def logging (s : Settings) : Logging where
  level := s.logLevel

end Settings

end ConsumerContract
