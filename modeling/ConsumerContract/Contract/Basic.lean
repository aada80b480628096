import ConsumerContract.Rule.Basic

/-!
# Contracts

What a consumer and a provider have agreed upon: the requests that the consumer makes, the responses that
it expects to each, and the messages that it expects to be sent. One set of types serves all versions; a
member that a version does not know stays empty. Version 2 has one provider state, a query in one text and
one rule a path; from version 3 on there are several states, a query by name, and rules and generators by
the part that they speak of.
-/

namespace ConsumerContract

/-- A state that the provider must be in, with parameters. -/
structure ProviderState where
  name : String
  params : List (String × Json) := []
  deriving DecidableEq

/-- A query, as one text or by name. -/
inductive Query where
  | text (s : String)
  | byName (values : List (String × List String))
  deriving DecidableEq

/-- What is said of the parts of a request, response or message: of places in the body by path, of headers
and query parameters by name, and of the path of the request. -/
structure ByPart (α : Type) where
  body : List (String × α) := []
  header : List (String × α) := []
  query : List (String × α) := []
  path : Option α := none
  deriving DecidableEq

/-- Nothing is said of any part. -/
def ByPart.isEmpty {α : Type} (p : ByPart α) : Bool :=
  p.body.isEmpty && p.header.isEmpty && p.query.isEmpty && p.path.isNone

/-- The rules of a request, response or message. -/
inductive PartRules where
  /-- One rule a path. -/
  | flat (rules : Rules)
  /-- Rule sets by part. -/
  | byPart (sets : ByPart RuleSet)
  deriving DecidableEq

/-- No rule is present. -/
def PartRules.isEmpty : PartRules → Bool
  | .flat rules => rules.isEmpty
  | .byPart sets => sets.isEmpty

/-- An expected request. -/
structure Request where
  method : String
  path : String
  query : Option Query := none
  headers : List (String × String) := []
  body : Option Json := none
  rules : Option PartRules := none
  generators : Option (ByPart Generator) := none
  deriving DecidableEq

/-- An expected response. -/
structure Response where
  status : UInt16
  headers : List (String × String) := []
  body : Option Json := none
  rules : Option PartRules := none
  generators : Option (ByPart Generator) := none
  deriving DecidableEq

/-- A request and the response to it. -/
structure Interaction where
  description : String
  /-- The one state of version 2. -/
  state : Option String := none
  /-- The states of later versions. -/
  states : List ProviderState := []
  request : Request
  response : Response
  deriving DecidableEq

/-- An expected message. -/
structure Message where
  description : String
  states : List ProviderState := []
  contents : Json
  rules : Option PartRules := none
  generators : Option (ByPart Generator) := none
  metadata : List (String × Json) := []
  deriving DecidableEq

/-- The version of a contract's format and that of the library that wrote it, in text. -/
structure Metadata where
  format : String
  library : String
  deriving DecidableEq, Repr

namespace Metadata

/-- The version of this library. -/
def libraryVersion : String :=
  "0.1.0"

/-- The metadata of a contract of `version`. -/
def ofVersion (version : Version) : Metadata where
  format := version.text
  library := libraryVersion

end Metadata

/-- What a consumer and a provider have agreed upon. -/
structure Contract where
  consumer : String
  provider : String
  interactions : List Interaction := []
  messages : List Message := []
  metadata : Metadata
  deriving DecidableEq

/-- A contract in which nothing has been agreed upon yet. -/
def Contract.empty (consumer provider : String) (version : Version) : Contract where
  consumer := consumer
  provider := provider
  metadata := .ofVersion version

end ConsumerContract
