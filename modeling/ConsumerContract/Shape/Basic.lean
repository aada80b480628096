import ConsumerContract.Text.Uppercase

/-!
# Shapes of types

The shape of a type says how its values are built: from texts, truth values and numbers, through
pointers and sequences, to records. Records may hold each other, and themselves; so a shape names a
record by its place in a catalogue, where its fields stand.
-/

namespace ConsumerContract

/-- How the values of a type are built. Records are those of a catalogue of `n`. -/
inductive Shape (n : Nat) where
  | text (name : String)
  | bool (name : String)
  | integer (name : String)
  | float (name : String)
  /-- At most one value, held elsewhere. -/
  | pointer (name : String) (target : Shape n)
  /-- Any number of values of one type. -/
  | sequence (name : String) (item : Shape n)
  | record (id : Fin n)
  /-- A shape for which there is no matcher. -/
  | unsupported (name kind : String)
  deriving DecidableEq, Repr

/-- A field of a record. -/
structure Field (n : Nat) where
  /-- The name by which the program knows the field. -/
  ident : String
  /-- The name in documents, where it is another one. -/
  rename : Option String := none
  hint : Option String := none
  /-- The field is left out of documents. -/
  skipped : Bool := false
  shape : Shape n
  deriving DecidableEq, Repr

/-- A record: its name and its fields in their order. -/
structure RecordType (n : Nat) where
  name : String
  fields : List (Field n)
  deriving DecidableEq, Repr

/-- The records that shapes may name. -/
abbrev Catalogue (n : Nat) :=
  Fin n → RecordType n

namespace Shape

variable {n : Nat}

/-- The name of the type. -/
def name (catalogue : Catalogue n) : Shape n → String
  | .text name | .bool name | .integer name | .float name => name
  | .pointer name _ | .sequence name _ | .unsupported name _ => name
  | .record id => (catalogue id).name

/-- The word for the kind of the shape. -/
def kind : Shape n → String
  | .text _ => "string"
  | .bool _ => "bool"
  | .integer _ => "integer"
  | .float _ => "float"
  | .pointer .. => "pointer"
  | .sequence .. => "sequence"
  | .record _ => "record"
  | .unsupported _ kind => kind

end Shape

/-! ### Names of fields -/

/-- How fields are named in documents. -/
inductive FieldNaming where
  /-- As the program knows them. -/
  | plain
  /-- In one word, with a capital where a word begins inside it. -/
  | camel
  deriving DecidableEq, Repr

namespace FieldNaming

/-- A name without the marks of a raw identifier before it. -/
def dropMarks : List Char → List Char
  | 'r' :: '#' :: rest => dropMarks rest
  | cs => cs

/-- Joins words that `_` separates. `begun` says that something has been written, `raise` that the next
character begins a later word. -/
def joinWords (begun raise : Bool) : List Char → List Char
  | [] => []
  | c :: rest =>
    if c = '_' then joinWords begun begun rest
    else (if raise then Text.capitals c else [c]) ++ joinWords true false rest

/-- The name in one word: the first word as it is, every later one with a capital. -/
def camelCase (ident : String) : String :=
  String.ofList (joinWords false false (dropMarks ident.toList))

/-- The name of the identifier. -/
def apply : FieldNaming → String → String
  | .plain, ident => ident
  | .camel, ident => camelCase ident

end FieldNaming

/-- The name of the field in documents, unless it is left out of them. -/
def Field.nameUnder {n : Nat} (naming : FieldNaming) (f : Field n) : Option String :=
  if f.skipped then none else some (f.rename.getD (naming.apply f.ident))

end ConsumerContract
