import ConsumerContract.Notice
import ConsumerContract.Text.Quoted

/-!
# Errors

Why a contract, or a part of one, cannot be made. The same input always fails the same way. An
`Attempt` is a computation that may fail and gives notices either way.
-/

namespace ConsumerContract

/-- Why something cannot be made. -/
inductive Error where
  /-- The hint of a field cannot be read or does not fit its field. -/
  | invalidTag (tag reason : String)
  /-- No matcher is known for a type of this kind. -/
  | unsupportedType (typeName kind : String)
  /-- Matchers of a newer version than the contract's. -/
  | specificationMismatch (version : Version) (matchers : List String)
  /-- A part holds what its place cannot. -/
  | invalidPart (part reason : String)
  /-- A text cannot be read. -/
  | unreadable (failure : Json.Failure)
  deriving DecidableEq, Repr

namespace Error

/-- The error in words. -/
def message : Error → String
  | .invalidTag tag reason => "invalid pact tag " ++ Text.quoted tag ++ ": " ++ reason
  | .unsupportedType typeName kind =>
    "cannot derive a matcher for " ++ typeName ++ ": unsupported " ++ kind ++ " kind"
  | .specificationMismatch version matchers =>
    "the current pact file with specification version " ++ version.text ++
      " has attempted to use matchers from a higher spec version: " ++ ", ".intercalate matchers
  | .invalidPart part reason => "invalid " ++ part ++ ": " ++ reason
  | .unreadable failure => "Serialization error: " ++ failure.category

/-- The error lies in how a type or its hints are declared. -/
def isConfiguration : Error → Bool
  | .invalidTag .. | .unsupportedType .. => true
  | _ => false

end Error

/-- A result or an error, with the notices given on the way. -/
structure Attempt (α : Type) where
  result : Except Error α
  notices : List Notice := []

namespace Attempt

variable {α β : Type}

instance : Monad Attempt where
  pure a := ⟨.ok a, []⟩
  bind x f := match x.result with
    | .ok a => ⟨(f a).result, x.notices ++ (f a).notices⟩
    | .error e => ⟨.error e, x.notices⟩

/-- Fails with `e`. -/
def fail (e : Error) : Attempt α :=
  ⟨.error e, []⟩

/-- Goes on with a result that needed no notices. -/
def ofExcept (r : Except Error α) : Attempt α :=
  ⟨r, []⟩

/-- Goes on with a value that cannot fail. -/
def ofNoted (x : Noted α) : Attempt α :=
  ⟨.ok x.value, x.notices⟩

/-- Gives a notice. -/
def give (n : Notice) : Attempt Unit :=
  ofNoted (Noted.give n)

@[simp]
theorem result_pure (a : α) : (pure a : Attempt α).result = .ok a :=
  rfl

@[simp]
theorem result_fail (e : Error) : (fail e : Attempt α).result = .error e :=
  rfl

@[simp]
theorem result_ofExcept (r : Except Error α) : (ofExcept r).result = r :=
  rfl

@[simp]
theorem result_ofNoted (x : Noted α) : (ofNoted x).result = .ok x.value :=
  rfl

/-- The result of a sequence does not depend on notices. -/
@[simp]
theorem result_bind (x : Attempt α) (f : α → Attempt β) :
    (x >>= f).result = x.result.bind fun a => (f a).result := by
  cases h : x.result <;> simp [bind, Except.bind, h]

/-- A notice changes nothing of the result. -/
@[simp]
theorem result_give_bind (n : Notice) (f : Unit → Attempt β) :
    (give n >>= f).result = (f ()).result :=
  rfl

/-- `f` on every element, up to the first error. -/
def each (f : α → Attempt β) : List α → Attempt (List β)
  | [] => pure []
  | a :: rest => do
    let b ← f a
    let more ← each f rest
    pure (b :: more)

end Attempt

end ConsumerContract
