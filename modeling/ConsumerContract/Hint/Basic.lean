import ConsumerContract.Hint.Token
import ConsumerContract.Binary64.Numeral
import ConsumerContract.Error
import ConsumerContract.Rule.Basic

/-!
# Hints

The hint of a field says what its matcher should look like: the sample, a regular expression, the
bounds of a length, or a generator with its format. `Hint.read` takes one apart and checks that its
keys go together; whether they go together with the field's type is `Hint.ensureOnly`'s matter.
-/

namespace ConsumerContract

/-- Why a sample is not of the wanted type. -/
inductive SampleFault where
  | notBool
  | notFloat
  | numeral (cause : Text.NumeralFault)
  deriving DecidableEq, Repr

/-- The fault in words. -/
def SampleFault.message : SampleFault → String
  | .notBool => "provided string was not \x60true\x60 or \x60false\x60"
  | .notFloat => "invalid float literal"
  | .numeral cause => cause.message

/-- What is wrong with a hint. -/
inductive HintFault where
  | noValue (token : String)
  | unknownKey (word : String)
  | repeated (key : HintKey)
  | badNumber (key : HintKey) (cause : Text.NumeralFault)
  | unknownGenerator (word : String)
  | blankSample
  | emptyRegex
  | regexWithoutSample
  | regexWithGenerator
  | generatorWithoutFormat
  | formatWithoutGenerator
  | generatorWithoutSample
  | misplaced (key : HintKey) (kind : String)
  | badSample (sample kind : String) (cause : SampleFault)
  deriving DecidableEq, Repr

namespace HintFault

/-- A key between marks. -/
def marked (key : HintKey) : String :=
  "\x60" ++ key.word ++ "\x60"

/-- The fault in words. -/
def message : HintFault → String
  | .noValue token => "expected key=value, found " ++ Text.quoted token
  | .unknownKey word => "unknown key " ++ Text.quoted word
  | .repeated key => marked key ++ " given more than once"
  | .badNumber key cause => marked key ++ " must be a number: " ++ cause.message
  | .unknownGenerator word => "unknown generator " ++ Text.quoted word
  | .blankSample => "example must not be empty"
  | .emptyRegex => "regex must not be empty"
  | .regexWithoutSample => "regex requires an example"
  | .regexWithGenerator => "regex cannot be combined with a generator"
  | .generatorWithoutFormat => "generator requires a format"
  | .formatWithoutGenerator => "format requires a generator"
  | .generatorWithoutSample => "generator requires an example"
  | .misplaced key kind => marked key ++ " does not apply to a " ++ kind ++ " field"
  | .badSample sample kind cause =>
    "example " ++ Text.quoted sample ++ " is not a " ++ kind ++ ": " ++ cause.message

end HintFault

/-- What a hint says of its field. -/
structure Hint where
  /-- The hint as it was written. -/
  raw : String := ""
  /-- The sample in text; the field's type decides how it is read. -/
  sample : Option String := none
  regex : Option String := none
  min : Option Int64 := none
  max : Option UInt64 := none
  format : Option String := none
  generator : Option Moment := none
  deriving DecidableEq, Repr

namespace Hint

/-- The key has been given. -/
def has (a : Hint) : HintKey → Bool
  | .sample => a.sample.isSome
  | .regex => a.regex.isSome
  | .min => a.min.isSome
  | .max => a.max.isSome
  | .format => a.format.isSome
  | .generator => a.generator.isSome

/-- The keys that have been given. -/
def keys (a : Hint) : List HintKey :=
  HintKey.all.filter a.has

/-- The words for the moments that a generator may make. -/
def moments : List (String × Moment) :=
  [("date", .date), ("datetime", .dateTime), ("time", .time)]

/-- Takes up a value. -/
def put (a : Hint) (key : HintKey) (value : String) :
    Except HintFault Hint :=
  let trimmed := Text.trim value.toList
  match key with
  | .sample => .ok { a with sample := some value }
  | .regex => .ok { a with regex := some value }
  | .min =>
    match Text.readInt64 trimmed with
    | .ok n => .ok { a with min := some n }
    | .error cause => .error (.badNumber .min cause)
  | .max =>
    match Text.readUInt64 trimmed with
    | .ok n => .ok { a with max := some n }
    | .error cause => .error (.badNumber .max cause)
  | .format => .ok { a with format := some value }
  | .generator =>
    match Dict.get? (String.ofList trimmed) moments with
    | some moment => .ok { a with generator := some moment }
    | none => .error (.unknownGenerator (String.ofList trimmed))

/-- Takes up a token. -/
def take (a : Hint) (token : List Char) : Except HintFault Hint :=
  match splitToken token with
  | none => .error (.noValue (String.ofList token))
  | some (word, value) =>
    match HintKey.ofWord? word with
    | none => .error (.unknownKey word)
    | some key => if a.has key then .error (.repeated key) else a.put key value

/-- Takes up tokens one after the other. -/
def takeAll (a : Hint) : List (List Char) → Except HintFault Hint
  | [] => .ok a
  | token :: rest =>
    match a.take token with
    | .error fault => .error fault
    | .ok a => a.takeAll rest

/-- What is wrong with the keys that have been given, taken together. -/
def conflict (a : Hint) : Option HintFault :=
  if a.sample.any fun s => Text.isBlankText s.toList then some .blankSample
  else if a.regex = some "" then some .emptyRegex
  else if a.regex.isSome && a.sample.isNone then some .regexWithoutSample
  else if a.regex.isSome && a.generator.isSome then some .regexWithGenerator
  else if a.generator.isSome && a.format.isNone then some .generatorWithoutFormat
  else if a.generator.isNone && a.format.isSome then some .formatWithoutGenerator
  else if a.generator.isSome && a.sample.isNone then some .generatorWithoutSample
  else none

/-- The error that `fault` in the hint is. -/
def error (a : Hint) (fault : HintFault) : Error :=
  .invalidTag a.raw fault.message

/-- Reads a hint. -/
def read (raw : String) : Except Error Hint :=
  let start : Hint := { raw := raw }
  match start.takeAll (tokens (Text.trim raw.toList)) with
  | .error fault => .error (start.error fault)
  | .ok a =>
    match a.conflict with
    | some fault => .error (start.error fault)
    | none => .ok a

/-- Fails if a key outside `allowed` has been given to a field of some kind. -/
def ensureOnly (a : Hint) (allowed : List HintKey) (kind : String) :
    Except Error Unit :=
  match a.keys.find? fun k => !allowed.contains k with
  | some key => .error (a.error (.misplaced key kind))
  | none => .ok ()

/-- The sample read by `readSample`, if there is one. -/
def sampleBy {α : Type} (readSample : List Char → Except SampleFault α) (a : Hint)
    (kind : String) : Except Error (Option α) :=
  match a.sample with
  | none => .ok none
  | some sample =>
    match readSample (Text.trim sample.toList) with
    | .ok value => .ok (some value)
    | .error cause => .error (a.error (.badSample sample kind cause))

/-- Reads one of the words `true` and `false`. -/
def readBool (cs : List Char) : Except SampleFault Bool :=
  if cs = "true".toList then .ok true
  else if cs = "false".toList then .ok false
  else .error .notBool

/-- Reads an integer. -/
def readInteger (cs : List Char) : Except SampleFault Int64 :=
  match Text.readInt64 cs with
  | .ok n => .ok n
  | .error cause => .error (.numeral cause)

/-- Reads a floating-point number. -/
def readFloat (cs : List Char) : Except SampleFault Binary64 :=
  match Binary64.readNumeral cs with
  | some x => .ok x
  | none => .error .notFloat

end Hint

end ConsumerContract
