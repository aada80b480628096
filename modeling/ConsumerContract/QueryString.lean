import ConsumerContract.Text.FormEncoding

/-!
# Query strings

The parameters of a query in one text: `name=value` for every value, in the order of the names, joined by
`&`. A parameter with several values is written several times; the style says whether its name then has
brackets.
-/

namespace ConsumerContract

/-- When the names of parameters have brackets. -/
inductive QueryStyle where
  | never
  /-- If there are several values. -/
  | ifSeveral
  | always
  deriving DecidableEq, Repr

namespace QueryStyle

/-- A parameter of `count` values has brackets. -/
def hasBrackets (style : QueryStyle) (count : Nat) : Bool :=
  match style with
  | .never => false
  | .ifSeveral => 1 < count
  | .always => true

/-- The name under which a parameter of `count` values is written. -/
def key (style : QueryStyle) (name : String) (count : Nat) : List Char :=
  if style.hasBrackets count then name.toList ++ ['[', ']'] else name.toList

/-- The pairs of name and value, in the order in which they are written. -/
def pairs (style : QueryStyle) (query : List (String × List String)) :
    List (List Char × List Char) :=
  query.flatMap fun (name, values) =>
    values.map fun value => (style.key name values.length, value.toList)

/-- A pair in form encoding. -/
def pairChars (pair : List Char × List Char) : List Char :=
  Text.formEncode pair.1 ++ '=' :: Text.formEncode pair.2

/-- The query in one text. -/
def render (style : QueryStyle) (query : List (String × List String)) : String :=
  String.ofList (List.intercalate ['&'] ((style.pairs query).map pairChars))

end QueryStyle

end ConsumerContract
