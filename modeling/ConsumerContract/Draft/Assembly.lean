import ConsumerContract.Draft.Basic
import ConsumerContract.Json.Printer
import ConsumerContract.Resolution
import ConsumerContract.Settings
import ConsumerContract.Text.Uppercase
import ConsumerContract.Text.Utf8

/-!
# Assembly

A draft becomes an interaction or a message of a version: every template is resolved, and what is recorded
for it is put together. In version 2 the rules of all parts share one dictionary, so each part is resolved
at a path of its own; later versions keep the parts apart, and each is resolved at the root. The path, the
headers and the values of the query must come out as texts, numbers or truth values, for they are texts on
the wire.
-/

namespace ConsumerContract

/-- Where in a request, response or message a template stands. -/
inductive Place where
  | path
  /-- The value at index `i` of a query parameter. -/
  | query (name : String) (i : Nat)
  | header (name : String)
  | body
  deriving DecidableEq, Repr

namespace Place

/-- The path of the place in the one dictionary of version 2. -/
def sharedRoot : Place → String
  | .path => Path.field Path.root "path"
  | .query name i => Path.index (Path.field (Path.field Path.root "query") name) i
  | .header name => Path.field (Path.field Path.root "headers") name
  | .body => Path.field Path.root "body"

/-- The path at which the place is resolved. -/
def root (version : Version) (place : Place) : String :=
  if version.usesRuleSets then Path.root else place.sharedRoot

/-- The place in words. -/
def words : Place → String
  | .path => "request path"
  | .query name _ => "query parameter " ++ name
  | .header name => "header " ++ name
  | .body => "body"

end Place

/-- A value as a text on the wire. -/
def Json.asScalar? : Json → Option String
  | .str s => some s
  | .num n => some (Json.num n).compact
  | .bool b => some (Json.bool b).compact
  | _ => none

/-- What was recorded for one place. -/
structure Placed where
  place : Place
  resolution : Resolution

namespace Placed

/-- Takes up what is said of a place, by path from the place itself. The path, a header and a query
parameter have room for what is said of the whole only; of several values of a parameter the first of
which something is said decides. -/
def takeUp {α : Type} (p : ByPart α) (place : Place) (entries : List (String × α)) : ByPart α :=
  match place, Dict.get? Path.root entries with
  | .path, whole => { p with path := whole }
  | .query name _, some a => { p with query := Dict.insertNew name a p.query }
  | .header name, some a => { p with header := Dict.insert name a p.header }
  | .query .., none | .header _, none => p
  | .body, _ => { p with body := entries }

/-- The rules of all places in one dictionary. -/
def sharedRules (parts : List Placed) : Rules :=
  parts.foldl (fun rules p => Dict.insertAll rules p.resolution.rules) []

/-- The rules of all places by part. -/
def rulesByPart (parts : List Placed) : ByPart RuleSet :=
  parts.foldl (fun sets p => takeUp sets p.place (Rules.ruleSets p.resolution.rules)) {}

/-- The generators of all places by part. -/
def generatorsByPart (parts : List Placed) : ByPart Generator :=
  parts.foldl (fun gens p => takeUp gens p.place p.resolution.generators) {}

/-- The rules of all places in the shape of `version`, if there are any. -/
def rules (version : Version) (parts : List Placed) : Option PartRules :=
  let all : PartRules :=
    if version.usesRuleSets then .byPart (rulesByPart parts) else .flat (sharedRules parts)
  if all.isEmpty then none else some all

/-- The generators of all places, if there are any. Version 2 has none. -/
def generators (version : Version) (parts : List Placed) : Option (ByPart Generator) :=
  if version.usesRuleSets then
    let all := generatorsByPart parts
    if all.isEmpty then none else some all
  else none

end Placed

namespace Assembly

/-- Resolves the template of a place. -/
def resolveAt (version : Version) (place : Place) (t : Template) : Attempt Placed := do
  let resolution ← t.resolve version (place.root version)
  pure ⟨place, resolution⟩

/-- The value of a place, as a text. -/
def textOf (p : Placed) : Except Error String :=
  match p.resolution.body.asScalar? with
  | some s => .ok s
  | none =>
    .error (.invalidPart p.place.words
      ("expected a string, found " ++ p.resolution.body.compact))

/-- Resolves the template of a place whose value must be a text. -/
def resolveText (version : Version) (place : Place) (t : Template) :
    Attempt (String × Placed) := do
  let placed ← resolveAt version place t
  let text ← Attempt.ofExcept (textOf placed)
  pure (text, placed)

/-- Resolves the values of a query parameter, the first of them at index `i`. -/
def queryValues (version : Version) (name : String) (i : Nat) :
    List Template → Attempt (List (String × Placed))
  | [] => pure []
  | t :: rest => do
    let value ← resolveText version (.query name i) t
    let more ← queryValues version name (i + 1) rest
    pure (value :: more)

/-- Resolves the parameters of a query. -/
def query (version : Version) (parameters : List (String × List Template)) :
    Attempt (List (String × List (String × Placed))) :=
  Attempt.each (fun (name, values) => do
    let values ← queryValues version name 0 values
    pure (name, values)) parameters

/-- Resolves headers. -/
def headers (version : Version) (fields : List (String × Template)) :
    Attempt (List (String × (String × Placed))) :=
  Attempt.each (fun (name, value) => do
    let value ← resolveText version (.header name) value
    pure (name, value)) fields

/-- The text of a raw body. -/
def rawText (bytes : ByteArray) : Noted String := do
  Noted.giveIf (String.fromUTF8? bytes).isNone (.rawBodyRepaired bytes.size)
  pure (Text.repaired bytes)

/-- Resolves a body. A raw one leaves nothing to be recorded. -/
def body (version : Version) : Option BodyDraft → Attempt (Option Json × List Placed)
  | none => pure (none, [])
  | some (.json t) => do
    let placed ← resolveAt version .body t
    pure (some placed.resolution.body, [placed])
  | some (.raw _ bytes) => do
    let text ← Attempt.ofNoted (rawText bytes)
    pure (some (.str text), [])

/-- A query in the shape of `version`. -/
def renderQuery (version : Version) (style : QueryStyle) (values : List (String × List String)) :
    Option Query :=
  if values.isEmpty then none
  else if version.usesRuleSets then some (.byName values)
  else some (.text (style.render values))

/-- The request of a draft. -/
def request (version : Version) (style : QueryStyle) (r : RequestDraft) : Attempt Request := do
  let (path, placedPath) ← resolveText version .path r.path
  let parameters ← query version r.query
  let fields ← headers version r.payload.headers
  let (body, placedBody) ← body version r.payload.body
  let parts := placedPath :: (parameters.flatMap fun p => p.2.map (·.2)) ++
    fields.map (fun f => f.2.2) ++ placedBody
  pure {
    method := Text.upperCase r.method
    path := path
    query := renderQuery version style (Dict.mapValues (·.map (·.1)) parameters)
    headers := Dict.mapValues (·.1) fields
    body := body
    rules := Placed.rules version parts
    generators := Placed.generators version parts }

/-- The response of a draft. -/
def response (version : Version) (r : ResponseDraft) : Attempt Response := do
  let fields ← headers version r.payload.headers
  let (body, placedBody) ← body version r.payload.body
  let parts := fields.map (fun f => f.2.2) ++ placedBody
  pure {
    status := r.status
    headers := Dict.mapValues (·.1) fields
    body := body
    rules := Placed.rules version parts
    generators := Placed.generators version parts }

/-- The provider states in the shape of `version`: version 2 has one, without parameters. -/
def states (version : Version) (all : List ProviderState) :
    Noted (Option String × List ProviderState) :=
  if version.usesRuleSets then pure (none, all)
  else do
    Noted.giveIf (1 < all.length) (.statesDropped all.length)
    Noted.giveIf (all.any fun s => !s.params.isEmpty) .stateParamsDropped
    pure (all.head?.map ProviderState.name, [])

/-- A part of an interaction that must have been given. -/
def given {α : Type} (what : String) : Option α → Attempt α
  | some a => pure a
  | none => Attempt.fail (.invalidPart "interaction" ("missing " ++ what))

/-- The interaction of a draft. -/
def interaction (version : Version) (style : QueryStyle) (i : InteractionDraft) :
    Attempt Interaction := do
  Attempt.give (.interactionBegun i.description version)
  let requestDraft ← given "request" i.request
  let responseDraft ← given "response" i.response
  let (state, states) ← Attempt.ofNoted (states version i.states)
  let request ← request version style requestDraft
  let response ← response version responseDraft
  pure ⟨i.description, state, states, request, response⟩

/-- The member of a message's metadata that names the content type. -/
def contentTypeKey : String :=
  "contentType"

/-- The message of a draft. Version 2 has no messages. -/
def message (version : Version) (m : MessageDraft) : Attempt Message :=
  if version.usesRuleSets then do
    Attempt.give (.messageBegun m.description version)
    let placed ← resolveAt version .body m.contents
    pure {
      description := m.description
      states := m.states
      contents := placed.resolution.body
      rules := Placed.rules version [placed]
      generators := Placed.generators version [placed]
      metadata := Dict.insertNew contentTypeKey (.str BodyDraft.jsonContentType) m.metadata }
  else
    Attempt.fail (.invalidPart "message"
      ("messages need specification " ++ Version.v3.text ++ " or later"))

end Assembly

end ConsumerContract
