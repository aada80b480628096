import ConsumerContract.Error
import ConsumerContract.Matcher.Marker

/-!
# Validation

A contract of a version must not use matchers that only a later version can express. The check goes
through marker JSON: every object that names a later version is refused, by what it compares. Each
comparison is named once, in the order in which the walk first comes upon it: an object before its
members, members in the order of their keys.
-/

namespace ConsumerContract

namespace Validation

/-- What an object of unknown comparison is called. -/
def unnamed : String :=
  "unknown"

/-- The comparison of an object that `version` cannot express. -/
def refusal? (version : Version) (members : List (String × Json)) : Option String :=
  match ((Dict.get? Marker.versionKey members).bind Json.asText?).bind Version.read with
  | some needed =>
    if version < needed then
      some (((Dict.get? Marker.comparisonKey members).bind Json.asText?).getD unnamed)
    else none
  | none => none

/-- Adds a word unless it is there. -/
def note (found : List String) : Option String → List String
  | some word => if word ∈ found then found else found ++ [word]
  | none => found

mutual

/-- Adds to `found` the comparisons in a value that `version` cannot express. -/
def scan (version : Version) (found : List String) : Json → List String
  | .arr items => scanItems version found items
  | .obj members => scanMembers version (note found (refusal? version members)) members
  | _ => found

/-- Goes through items. -/
def scanItems (version : Version) (found : List String) : List Json → List String
  | [] => found
  | v :: rest => scanItems version (scan version found v) rest

/-- Goes through members. -/
def scanMembers (version : Version) (found : List String) : List (String × Json) → List String
  | [] => found
  | (_, v) :: rest => scanMembers version (scan version found v) rest

end

/-- The comparisons in marker JSON that `version` cannot express. -/
def offending (version : Version) (value : Json) : List String :=
  scan version [] value

/-- Fails if marker JSON holds comparisons that `version` cannot express. -/
def check (version : Version) (value : Json) : Attempt Unit :=
  match offending version value with
  | [] => pure ()
  | words => ⟨.error (.specificationMismatch version words), [.matchersRefused version words]⟩

end Validation

/-- Fails if the template has matchers that `version` cannot express. -/
def Template.validate (version : Version) (t : Template) : Attempt Unit :=
  Validation.check version t.marker.canonical

end ConsumerContract
