import ConsumerContract.Contract.Basic
import ConsumerContract.Error
import ConsumerContract.Json.Printer
import ConsumerContract.Rule.Document

/-!
# Contracts as documents

A contract is an object; members that are empty are left out, so that a document of one version shows no
member of another. Reading takes missing members for empty. Whether rules stand by part or by path is not
written down: they are read by path if they can be, and by part otherwise.
-/

namespace ConsumerContract

open Json (Failure Source)

/-! ### Writing -/

/-- A dictionary of strings as a JSON value. -/
def textsJson (d : List (String × String)) : Json :=
  .obj (Dict.mapValues Json.str d)

/-- A member that stands only if its list is not empty. -/
def listMember {α : Type} (key : String) (write : List α → Json) :
    List α → List (String × Json)
  | [] => []
  | as => [(key, write as)]

/-- An object of one string. -/
def singleJson (key text : String) : Json :=
  .obj [(key, .str text)]

/-- The provider state as a JSON value. -/
def ProviderState.toJson (s : ProviderState) : Json :=
  .obj (("name", .str s.name) :: listMember "params" Json.obj s.params)

/-- Provider states as a JSON value. -/
def ProviderState.listJson (states : List ProviderState) : Json :=
  .arr (states.map ProviderState.toJson)

/-- The query as a JSON value. -/
def Query.toJson : Query → Json
  | .text s => .str s
  | .byName values => .obj (Dict.mapValues (fun vs => .arr (vs.map Json.str)) values)

/-- What is said of parts as a JSON value. -/
def ByPart.toJson {α : Type} (write : α → Json) (p : ByPart α) : Json :=
  let dict (d : List (String × α)) : Json := .obj (Dict.mapValues write d)
  .obj (listMember "body" dict p.body ++ listMember "header" dict p.header ++
    listMember "query" dict p.query ++ optionalMember "path" write p.path)

/-- The rules as a JSON value. -/
def PartRules.toJson : PartRules → Json
  | .flat rules => rules.toJson
  | .byPart sets => sets.toJson RuleSet.toJson

/-- The members for rules and generators. -/
def artifactMembers (rules : Option PartRules) (generators : Option (ByPart Generator)) :
    List (String × Json) :=
  optionalMember "matchingRules" PartRules.toJson rules ++
    optionalMember "generators" (ByPart.toJson Generator.toJson) generators

/-- The request as a JSON value. -/
def Request.toJson (r : Request) : Json :=
  .obj (("method", .str r.method) :: ("path", .str r.path) ::
    (optionalMember "query" Query.toJson r.query ++ listMember "headers" textsJson r.headers ++
      optionalMember "body" id r.body ++ artifactMembers r.rules r.generators))

/-- The response as a JSON value. -/
def Response.toJson (r : Response) : Json :=
  .obj (("status", .int r.status.toNat) ::
    (listMember "headers" textsJson r.headers ++ optionalMember "body" id r.body ++
      artifactMembers r.rules r.generators))

/-- The interaction as a JSON value. -/
def Interaction.toJson (i : Interaction) : Json :=
  .obj (("description", .str i.description) ::
    (optionalMember "providerState" Json.str i.state ++
      listMember "providerStates" ProviderState.listJson i.states ++
      [("request", i.request.toJson), ("response", i.response.toJson)]))

/-- The message as a JSON value. -/
def Message.toJson (m : Message) : Json :=
  .obj (("description", .str m.description) ::
    (listMember "providerStates" ProviderState.listJson m.states ++ ("contents", m.contents) ::
      (artifactMembers m.rules m.generators ++ listMember "metadata" Json.obj m.metadata)))

/-- The metadata as a JSON value. -/
def Metadata.toJson (m : Metadata) : Json :=
  .obj [("pactSpecification", singleJson "version" m.format),
    ("pactDsl", singleJson "version" m.library)]

/-- The contract as a JSON value. -/
def Contract.toJson (c : Contract) : Json :=
  .obj (("consumer", singleJson "name" c.consumer) :: ("provider", singleJson "name" c.provider) ::
    (listMember "interactions" (fun is => .arr (is.map Interaction.toJson)) c.interactions ++
      listMember "messages" (fun ms => .arr (ms.map Message.toJson)) c.messages ++
      [("metadata", c.metadata.toJson)]))

/-- The text of the contract, in one line. -/
def Contract.text (c : Contract) : String :=
  c.toJson.compact

/-- The text of the contract, a member a line. -/
def Contract.prettyText (c : Contract) : String :=
  c.toJson.pretty

/-! ### Reading -/

/-- Reads an object of one string. -/
def decodeSingle (key : String) (s : Source) : Except Failure String :=
  s.asSingle false key Source.asText

/-- The fields of a provider state as far as they have been read. -/
structure ProviderState.Partial where
  name : Option String := none
  params : Option (List (String × Json)) := none

/-- Reads a provider state. -/
def ProviderState.decode (s : Source) : Except Failure ProviderState := do
  let p ← s.asRecord false
    [Source.slot "name" Source.asText ProviderState.Partial.name
      fun a p => { p with name := some a },
     Source.slot "params" (Source.asDict Source.value) ProviderState.Partial.params
      fun a p => { p with params := some a }] {}
  let name ← Source.required p.name
  return ⟨name, p.params.getD []⟩

/-- Reads a value whose form tells which of two readers, tried in order, is meant. -/
def decodeEither {α : Type} (first second : Source → Except Failure α) (s : Source) :
    Except Failure α :=
  match s.read with
  | .error f => .error f
  | .ok _ =>
    match first s with
    | .ok a => .ok a
    | .error _ =>
      match second s with
      | .ok a => .ok a
      | .error _ => .error .mismatched

/-- Reads a query. -/
def Query.decode : Source → Except Failure Query :=
  decodeEither (fun s => s.asText.map Query.text)
    fun s => (s.asDict (Source.asList Source.asText)).map Query.byName

/-- What is said of parts, as far as it has been read. -/
structure ByPart.Partial (α : Type) where
  body : Option (List (String × α)) := none
  header : Option (List (String × α)) := none
  query : Option (List (String × α)) := none
  path : Option (Option α) := none

/-- Reads what is said of parts. -/
def ByPart.decode {α : Type} (held : Bool) (value : Source → Except Failure α) (s : Source) :
    Except Failure (ByPart α) := do
  let p ← s.asRecord held
    [Source.slot "body" (Source.asDict value) ByPart.Partial.body
      fun a p => { p with body := some a },
     Source.slot "header" (Source.asDict value) ByPart.Partial.header
      fun a p => { p with header := some a },
     Source.slot "query" (Source.asDict value) ByPart.Partial.query
      fun a p => { p with query := some a },
     Source.slot "path" (Source.asOptional value) ByPart.Partial.path
      fun a p => { p with path := some a }] {}
  return ⟨p.body.getD [], p.header.getD [], p.query.getD [], p.path.getD none⟩

/-- Reads rules: by path if they can be, else by part. -/
def PartRules.decode : Source → Except Failure PartRules :=
  decodeEither (fun s => (s.asDict (Rule.decode true)).map PartRules.flat)
    fun s => (ByPart.decode true (RuleSet.decode true) s).map PartRules.byPart

/-- Reads generators by part. -/
def decodeGenerators : Source → Except Failure (ByPart Generator) :=
  ByPart.decode false (Generator.decode false)

/-- The fields of a request as far as they have been read. -/
structure Request.Partial where
  method : Option String := none
  path : Option String := none
  query : Option (Option Query) := none
  headers : Option (List (String × String)) := none
  body : Option (Option Json) := none
  rules : Option (Option PartRules) := none
  generators : Option (Option (ByPart Generator)) := none

/-- Reads a request. -/
def Request.decode (s : Source) : Except Failure Request := do
  let p ← s.asRecord false
    [Source.slot "method" Source.asText Request.Partial.method
      fun a p => { p with method := some a },
     Source.slot "path" Source.asText Request.Partial.path
      fun a p => { p with path := some a },
     Source.slot "query" (Source.asOptional Query.decode) Request.Partial.query
      fun a p => { p with query := some a },
     Source.slot "headers" (Source.asDict Source.asText) Request.Partial.headers
      fun a p => { p with headers := some a },
     Source.slot "body" (Source.asOptional Source.value) Request.Partial.body
      fun a p => { p with body := some a },
     Source.slot "matchingRules" (Source.asOptional PartRules.decode) Request.Partial.rules
      fun a p => { p with rules := some a },
     Source.slot "generators" (Source.asOptional decodeGenerators) Request.Partial.generators
      fun a p => { p with generators := some a }] {}
  let method ← Source.required p.method
  let path ← Source.required p.path
  return ⟨method, path, p.query.getD none, p.headers.getD [], p.body.getD none, p.rules.getD none,
    p.generators.getD none⟩

/-- The fields of a response as far as they have been read. -/
structure Response.Partial where
  status : Option UInt16 := none
  headers : Option (List (String × String)) := none
  body : Option (Option Json) := none
  rules : Option (Option PartRules) := none
  generators : Option (Option (ByPart Generator)) := none

/-- Reads a response. -/
def Response.decode (s : Source) : Except Failure Response := do
  let p ← s.asRecord false
    [Source.slot "status" Source.asUInt16 Response.Partial.status
      fun a p => { p with status := some a },
     Source.slot "headers" (Source.asDict Source.asText) Response.Partial.headers
      fun a p => { p with headers := some a },
     Source.slot "body" (Source.asOptional Source.value) Response.Partial.body
      fun a p => { p with body := some a },
     Source.slot "matchingRules" (Source.asOptional PartRules.decode) Response.Partial.rules
      fun a p => { p with rules := some a },
     Source.slot "generators" (Source.asOptional decodeGenerators) Response.Partial.generators
      fun a p => { p with generators := some a }] {}
  let status ← Source.required p.status
  return ⟨status, p.headers.getD [], p.body.getD none, p.rules.getD none, p.generators.getD none⟩

/-- The fields of an interaction as far as they have been read. -/
structure Interaction.Partial where
  description : Option String := none
  state : Option (Option String) := none
  states : Option (List ProviderState) := none
  request : Option Request := none
  response : Option Response := none

/-- Reads an interaction. -/
def Interaction.decode (s : Source) : Except Failure Interaction := do
  let p ← s.asRecord false
    [Source.slot "description" Source.asText Interaction.Partial.description
      fun a p => { p with description := some a },
     Source.slot "providerState" (Source.asOptional Source.asText) Interaction.Partial.state
      fun a p => { p with state := some a },
     Source.slot "providerStates" (Source.asList ProviderState.decode) Interaction.Partial.states
      fun a p => { p with states := some a },
     Source.slot "request" Request.decode Interaction.Partial.request
      fun a p => { p with request := some a },
     Source.slot "response" Response.decode Interaction.Partial.response
      fun a p => { p with response := some a }] {}
  let description ← Source.required p.description
  let request ← Source.required p.request
  let response ← Source.required p.response
  return ⟨description, p.state.getD none, p.states.getD [], request, response⟩

/-- The fields of a message as far as they have been read. -/
structure Message.Partial where
  description : Option String := none
  states : Option (List ProviderState) := none
  contents : Option Json := none
  rules : Option (Option PartRules) := none
  generators : Option (Option (ByPart Generator)) := none
  metadata : Option (List (String × Json)) := none

/-- Reads a message. -/
def Message.decode (s : Source) : Except Failure Message := do
  let p ← s.asRecord false
    [Source.slot "description" Source.asText Message.Partial.description
      fun a p => { p with description := some a },
     Source.slot "providerStates" (Source.asList ProviderState.decode) Message.Partial.states
      fun a p => { p with states := some a },
     Source.slot "contents" Source.value Message.Partial.contents
      fun a p => { p with contents := some a },
     Source.slot "matchingRules" (Source.asOptional PartRules.decode) Message.Partial.rules
      fun a p => { p with rules := some a },
     Source.slot "generators" (Source.asOptional decodeGenerators) Message.Partial.generators
      fun a p => { p with generators := some a },
     Source.slot "metadata" (Source.asDict Source.value) Message.Partial.metadata
      fun a p => { p with metadata := some a }] {}
  let description ← Source.required p.description
  let contents ← Source.required p.contents
  return ⟨description, p.states.getD [], contents, p.rules.getD none, p.generators.getD none,
    p.metadata.getD []⟩

/-- The fields of metadata as far as they have been read. -/
structure Metadata.Partial where
  format : Option String := none
  library : Option String := none

/-- Reads metadata. -/
def Metadata.decode (s : Source) : Except Failure Metadata := do
  let p ← s.asRecord false
    [Source.slot "pactSpecification" (decodeSingle "version") Metadata.Partial.format
      fun a p => { p with format := some a },
     Source.slot "pactDsl" (decodeSingle "version") Metadata.Partial.library
      fun a p => { p with library := some a }] {}
  let format ← Source.required p.format
  let library ← Source.required p.library
  return ⟨format, library⟩

/-- The fields of a contract as far as they have been read. -/
structure Contract.Partial where
  consumer : Option String := none
  provider : Option String := none
  interactions : Option (List Interaction) := none
  messages : Option (List Message) := none
  metadata : Option Metadata := none

/-- Reads a contract. -/
def Contract.decode (s : Source) : Except Failure Contract := do
  let p ← s.asRecord false
    [Source.slot "consumer" (decodeSingle "name") Contract.Partial.consumer
      fun a p => { p with consumer := some a },
     Source.slot "provider" (decodeSingle "name") Contract.Partial.provider
      fun a p => { p with provider := some a },
     Source.slot "interactions" (Source.asList Interaction.decode) Contract.Partial.interactions
      fun a p => { p with interactions := some a },
     Source.slot "messages" (Source.asList Message.decode) Contract.Partial.messages
      fun a p => { p with messages := some a },
     Source.slot "metadata" Metadata.decode Contract.Partial.metadata
      fun a p => { p with metadata := some a }] {}
  let consumer ← Source.required p.consumer
  let provider ← Source.required p.provider
  let metadata ← Source.required p.metadata
  return ⟨consumer, provider, p.interactions.getD [], p.messages.getD [], metadata⟩

/-- Reads the text of a contract. -/
def Contract.read (text : String) : Except Error Contract :=
  match Json.decodeText Contract.decode text with
  | .ok c => .ok c
  | .error f => .error (.unreadable f)

end ConsumerContract
