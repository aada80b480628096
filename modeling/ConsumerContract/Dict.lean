/-!
# Dictionaries

A dictionary is a list of entries in ascending order of their keys, no key twice. Keys are ordered by
code point, which is also the order of their bytes in UTF-8. Such a list may stand inside an inductive
type, where a type with an invariant could not: `Ordered` states the invariant and `insert` keeps it.
-/

namespace ConsumerContract.Dict

variable {α β : Type}

/-- The keys ascend, so none occurs twice. -/
def Ordered (d : List (String × α)) : Prop :=
  d.Pairwise fun a b => a.1 < b.1

/-- Puts `value` under `key`, in place of the entry that `key` may have. -/
def insert (key : String) (value : α) : List (String × α) → List (String × α)
  | [] => [(key, value)]
  | (k, v) :: rest =>
    if key < k then (key, value) :: (k, v) :: rest
    else if key = k then (key, value) :: rest
    else (k, v) :: insert key value rest

/-- The entry of `key`. -/
def get? (key : String) : List (String × α) → Option α
  | [] => none
  | (k, v) :: rest => if key = k then some v else get? key rest

/-- `key` has an entry. -/
def has (key : String) (d : List (String × α)) : Bool :=
  (get? key d).isSome

/-- Puts `value` under `key` unless `key` has an entry. -/
def insertNew (key : String) (value : α) (d : List (String × α)) : List (String × α) :=
  if has key d then d else insert key value d

/-- Puts `entries` into `d` one after the other: of two with one key the later stays. -/
def insertAll (d entries : List (String × α)) : List (String × α) :=
  entries.foldl (fun d e => insert e.1 e.2 d) d

/-- The dictionary of `entries`; of two with one key the later stays. -/
def ofList (entries : List (String × α)) : List (String × α) :=
  insertAll [] entries

/-- Applies `f` to every value. -/
def mapValues (f : α → β) (d : List (String × α)) : List (String × β) :=
  d.map fun e => (e.1, f e.2)

/-- What was put under a key is found there. -/
@[simp]
theorem get?_insert_self (key : String) (value : α) (d : List (String × α)) :
    get? key (insert key value d) = some value := by
  induction d with
  | nil => simp [insert, get?]
  | cons e rest ih =>
    obtain ⟨k, v⟩ := e
    by_cases below : key < k
    · simp [insert, get?, below]
    · by_cases same : key = k
      · simp [insert, get?, same]
      · simp [insert, get?, below, same, ih]

/-- What stands under other keys stays there. -/
theorem get?_insert_of_ne {key other : String} (h : other ≠ key) (value : α)
    (d : List (String × α)) : get? other (insert key value d) = get? other d := by
  induction d with
  | nil => simp [insert, get?, h]
  | cons e rest ih =>
    obtain ⟨k, v⟩ := e
    by_cases below : key < k
    · simp [insert, get?, below, h]
    · by_cases same : key = k
      · subst same
        simp [insert, get?, h]
      · simp [insert, get?, below, same, ih]

/-- A map of the values keeps the keys. -/
@[simp]
theorem get?_mapValues (f : α → β) (key : String) (d : List (String × α)) :
    get? key (mapValues f d) = (get? key d).map f := by
  induction d with
  | nil => rfl
  | cons e rest ih =>
    obtain ⟨k, v⟩ := e
    by_cases same : key = k
    · simp [mapValues, get?, same]
    · simpa [mapValues, get?, same] using ih

end ConsumerContract.Dict
