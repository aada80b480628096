import ConsumerContract.Text.Quoted
import ConsumerContract.Version

/-!
# Notices

What the library remarks on while it works. A notice never changes a result: it tells the author of a
contract that something was corrected, left out or is probably not what was meant, or it follows the
work step by step.
-/

namespace ConsumerContract

/-- How much a notice matters. -/
inductive Level where
  | trace
  | debug
  | warning
  deriving DecidableEq, Repr

/-- A remark. -/
inductive Notice where
  /-- A least length below one was raised to one. -/
  | minRaised (min : Int64)
  /-- A greatest length is below the least. -/
  | maxBelowMin (min max : UInt64)
  /-- A string that is the text of an object is sent as a string. -/
  | textIsObject
  /-- A raw body is the text of an object. -/
  | rawBodyIsObject
  /-- A raw body of `length` bytes was not UTF-8. -/
  | rawBodyRepaired (length : Nat)
  /-- Of `count` provider states only the first is kept. -/
  | statesDropped (count : Nat)
  /-- Parameters of provider states are left out. -/
  | stateParamsDropped
  /-- The environment names no known version. -/
  | versionIgnored (text : String)
  /-- The walk has come to a matcher. -/
  | matcherVisited (path matcher : String)
  /-- Validation refuses matchers. -/
  | matchersRefused (version : Version) (matchers : List String)
  /-- The matcher of a field is derived from its type. -/
  | fieldVisited (field typeName : String)
  /-- An interaction is assembled. -/
  | interactionBegun (description : String) (version : Version)
  /-- A message is assembled. -/
  | messageBegun (description : String) (version : Version)
  /-- A contract of so many interactions and messages goes to an archive. -/
  | contractHandedOver (consumer provider : String) (interactions messages : Nat)
  deriving DecidableEq, Repr

namespace Notice

/-- How much the notice matters. -/
def level : Notice → Level
  | .matcherVisited .. => .trace
  | .matchersRefused .. | .fieldVisited .. | .interactionBegun .. | .messageBegun ..
  | .contractHandedOver .. => .debug
  | _ => .warning

/-- The environment variable that names the version of contracts. -/
def versionVariable : String :=
  "PACT_SPECIFICATION"

/-- The notice in words. -/
def message : Notice → String
  | .minRaised _ => "min value to an array matcher can't be less than one, using 1"
  | .maxBelowMin .. => "max value of an array matcher is below its min"
  | .textIsObject => "string body looks like a JSON object, it will be sent as a JSON string"
  | .rawBodyIsObject =>
    "raw body looks like a JSON object, use a JSON body to get matching rules"
  | .rawBodyRepaired _ => "raw body is not valid UTF-8, invalid sequences were replaced"
  | .statesDropped _ => "v2 contracts hold a single provider state, keeping the first"
  | .stateParamsDropped => "v2 contracts carry no provider state parameters, dropping them"
  | .versionIgnored _ => "ignoring " ++ versionVariable
  | .matcherVisited .. => "resolving matcher"
  | .matchersRefused .. => "matchers rejected for specification version"
  | .fieldVisited .. => "deriving field"
  | .interactionBegun .. => "adding interaction"
  | .messageBegun .. => "adding message"
  | .contractHandedOver .. => "writing contract"

/-- Words between brackets, each of them quoted. -/
def listing (words : List String) : String :=
  "[" ++ ", ".intercalate (words.map Text.quoted) ++ "]"

/-- The particulars of the notice: numbers as numbers, anything else as text. -/
def fields : Notice → List (String × Json)
  | .minRaised min => [("min", .int min.toInt)]
  | .maxBelowMin min max => [("min", .int min.toNat), ("max", .int max.toNat)]
  | .rawBodyRepaired length => [("len", .int length)]
  | .statesDropped count => [("count", .int count)]
  | .versionIgnored text => [("error", .str (Version.unknownMessage text))]
  | .matcherVisited path matcher => [("path", .str path), ("class", .str matcher)]
  | .matchersRefused version matchers =>
    [("version", .str version.text), ("matchers", .str (listing matchers))]
  | .fieldVisited field typeName => [("field", .str field), ("type_name", .str typeName)]
  | .interactionBegun description version | .messageBegun description version =>
    [("description", .str description), ("version", .str version.text)]
  | .contractHandedOver consumer provider interactions messages =>
    [("consumer", .str consumer), ("provider", .str provider),
      ("interactions", .int interactions), ("messages", .int messages)]
  | .textIsObject | .rawBodyIsObject | .stateParamsDropped => []

/-- The notice as an object of its message and particulars. -/
def toJson (n : Notice) : Json :=
  .obj (Dict.insertAll [("message", .str n.message)] n.fields)

end Notice

/-- A value, and the notices given on the way to it, oldest first. -/
structure Noted (α : Type) where
  value : α
  notices : List Notice := []

namespace Noted

variable {α β : Type}

instance : Monad Noted where
  pure a := ⟨a, []⟩
  bind x f := ⟨(f x.value).value, x.notices ++ (f x.value).notices⟩

@[simp]
theorem value_pure (a : α) : (pure a : Noted α).value = a :=
  rfl

@[simp]
theorem value_bind (x : Noted α) (f : α → Noted β) : (x >>= f).value = (f x.value).value :=
  rfl

/-- Gives a notice. -/
def give (n : Notice) : Noted Unit :=
  ⟨(), [n]⟩

/-- Gives a notice if `condition` holds. -/
def giveIf (condition : Bool) (n : Notice) : Noted Unit :=
  ⟨(), if condition then [n] else []⟩

end Noted

end ConsumerContract
