import ConsumerContract.Contract.Basic
import ConsumerContract.Json.Source
import ConsumerContract.Matcher.Basic

/-!
# Drafts

What an author writes down of an interaction or a message before it is resolved for a version: every part
is a template. A body is given as JSON or as raw bytes of some content type; raw bytes have no matchers.
Giving a body adds the header that names its content type, unless there is such a header by then, in
whatever case.
-/

namespace ConsumerContract

/-- A body as the author gives it. -/
inductive BodyDraft where
  | json (template : Template)
  | raw (contentType : String) (bytes : ByteArray)

namespace BodyDraft

/-- The content type of JSON. -/
def jsonContentType : String :=
  "application/json"

/-- The content type of the body. -/
def contentType : BodyDraft → String
  | .json _ => jsonContentType
  | .raw contentType _ => contentType

/-- A raw body. -/
def ofBytes (contentType : String) (bytes : ByteArray) : Noted BodyDraft := do
  Noted.giveIf (Json.isObjectBytes bytes) .rawBodyIsObject
  pure (.raw contentType bytes)

end BodyDraft

/-- The headers and the body of a request or response. -/
structure PayloadDraft where
  headers : List (String × Template) := []
  body : Option BodyDraft := none

namespace PayloadDraft

/-- The header that names the content type. -/
def contentTypeName : String :=
  "Content-Type"

/-- The header names the content type: the case of ASCII letters does not count. -/
def isContentType (name : String) : Bool :=
  name.toList.map Char.toLower == contentTypeName.toList.map Char.toLower

/-- Sets a header. -/
def header (p : PayloadDraft) (name : String) (value : Template) : PayloadDraft :=
  { p with headers := Dict.insert name value p.headers }

/-- Sets the body, and the header that names its content type unless there is one. -/
def setBody (p : PayloadDraft) (body : BodyDraft) : PayloadDraft :=
  if p.headers.any fun h => isContentType h.1 then { p with body := some body }
  else { p.header contentTypeName (.ofString body.contentType) with body := some body }

end PayloadDraft

/-- A request as the author gives it. -/
structure RequestDraft where
  method : String
  path : Template
  query : List (String × List Template) := []
  payload : PayloadDraft := {}

/-- Adds a value to a query parameter. -/
def RequestDraft.addQuery (r : RequestDraft) (name : String) (value : Template) : RequestDraft :=
  { r with query := Dict.insert name ((Dict.get? name r.query).getD [] ++ [value]) r.query }

/-- A response as the author gives it. -/
structure ResponseDraft where
  status : UInt16
  payload : PayloadDraft := {}

/-- An interaction as the author gives it. -/
structure InteractionDraft where
  description : String
  states : List ProviderState := []
  request : Option RequestDraft := none
  response : Option ResponseDraft := none

namespace InteractionDraft

/-- Asks for a provider state; of two parameters with one name the later stays. -/
def given (i : InteractionDraft) (state : String) (params : List (String × Json)) :
    InteractionDraft :=
  { i with states := i.states ++ [⟨state, Dict.ofList params⟩] }

end InteractionDraft

/-- A message as the author gives it. -/
structure MessageDraft where
  description : String
  states : List ProviderState := []
  contents : Template := .literal .null
  metadata : List (String × Json) := []

namespace MessageDraft

/-- Asks for a provider state. -/
def given (m : MessageDraft) (state : String) : MessageDraft :=
  { m with states := m.states ++ [⟨state, []⟩] }

/-- Sets a member of the metadata. -/
def withMetadata (m : MessageDraft) (key : String) (value : Json) : MessageDraft :=
  { m with metadata := Dict.insert key value m.metadata }

end MessageDraft

end ConsumerContract
