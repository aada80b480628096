import ConsumerContract.Matcher.Ready
import ConsumerContract.Settings
import ConsumerContract.Shape.Basic

/-!
# Samples

A template, settings and records to try the library with.
-/

namespace ConsumerContract.Samples

/-- A user, with matchers for what changes from user to user. -/
def userTemplate : Noted Template := do
  let emails ← Matcher.atLeast (.matcher (.regex "fred@example.com" "^[^@]+@[^@]+$")) 2
  pure (.ofFields [
    ("id", .matcher Matcher.uuid),
    ("name", .matcher (.like (.ofString "Fred"))),
    ("role", .ofString "admin"),
    ("emails", .matcher emails)])

/-- Settings for a web application and the service behind it. -/
def settings (version : Version) (env : Environment) : Noted Settings := do
  let s ← Settings.between "web-app" "user-service" env
  pure { s with version := version }

/-- A record without hints. -/
def wordRecord {n : Nat} (text integer : Shape n) : RecordType n where
  name := "SampleWord"
  fields := [
    { ident := "word", shape := text },
    { ident := "length", shape := integer }]

/-- The hint of a date. -/
def dateHint : String :=
  "example=2000-01-01,regex=^\\d\x7b4\x7d-\\d\x7b2\x7d-\\d\x7b2\x7d$"

/-- A record with a hint of each sort. -/
def datedRecord {n : Nat} (text words score : Shape n) : RecordType n where
  name := "SampleDated"
  fields := [
    { ident := "date", hint := some dateHint, shape := text },
    { ident := "words", hint := some "min=2", shape := words },
    { ident := "score", hint := some "example=9.5", shape := score },
    { ident := "cache_key", skipped := true, shape := text }]

end ConsumerContract.Samples
