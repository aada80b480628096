import ConsumerContract.Proofs.JsonValues
import ConsumerContract.Validation

/-!
# What a scan refuses

A scan goes through every object of a value and notes, once each, the comparisons of those that name a
later version. `Validation.refusals` lists them with repetitions, in the order of the scan:
`offending_eq` says that the scan drops the repetitions, `refusals_eq_nil_iff` that nothing is refused
exactly if no object inside names a later version. So what passes for a version passes for every later
one (`Passes.mono`).

The object of a matcher begins with two members that nothing can overwrite. It is refused as that matcher
(`refusal?_opening`), and the only other member that can hold refusals is the last
(`refusals_opening`).
-/

namespace ConsumerContract

/-- The comparison of the kind, if `version` cannot express it. -/
def MatcherKind.refusal? (version : Version) (kind : MatcherKind) : Option String :=
  if version < kind.since then some kind.comparison else none

theorem MatcherKind.refusal?_of_since {kind : MatcherKind} (h : kind.since = .v2) (version : Version) :
    kind.refusal? version = none := by
  have oldest : ¬ version < .v2 := by cases version <;> decide
  rw [refusal?, h, if_neg oldest]

/-- The text of a version is read as this version. -/
theorem Version.read_text (version : Version) : Version.read version.text = some version := by
  cases version <;> decide

namespace Validation

open Json (Everywhere EveryItem EveryMember)
open Marker (opening comparisonKey versionKey)

/-! ### Words that are noted -/

/-- Adds every word unless it is there. -/
def noteAll (found words : List String) : List String :=
  words.foldl (fun found word => note found (some word)) found

@[simp]
theorem noteAll_nil (found : List String) : noteAll found [] = found :=
  rfl

theorem noteAll_append (found as bs : List String) :
    noteAll found (as ++ bs) = noteAll (noteAll found as) bs :=
  List.foldl_append

theorem noteAll_cons (found : List String) (word : String) (words : List String) :
    noteAll found (word :: words) = noteAll (note found (some word)) words :=
  rfl

theorem mem_note {found : List String} {word other : String} :
    other ∈ note found (some word) ↔ other ∈ found ∨ other = word := by
  rw [note]
  split
  next known =>
    constructor
    · exact .inl
    · rintro (h | rfl)
      · exact h
      · exact known
  next => simp

/-- After words were noted, they are there beside those noted before. -/
theorem mem_noteAll {found words : List String} {word : String} :
    word ∈ noteAll found words ↔ word ∈ found ∨ word ∈ words := by
  induction words generalizing found with
  | nil => simp
  | cons first rest ih => rw [noteAll_cons, ih, mem_note, List.mem_cons, or_assoc]

/-- What has been noted is not noted again. -/
theorem noteAll_of_subset {found words : List String} (h : words ⊆ found) :
    noteAll found words = found := by
  induction words with
  | nil => rfl
  | cons first rest ih =>
    obtain ⟨known, more⟩ := List.cons_subset.1 h
    rw [noteAll_cons, note, if_pos known, ih more]

/-- Noting words again adds nothing. -/
theorem noteAll_noteAll (found words : List String) :
    noteAll (noteAll found words) words = noteAll found words :=
  noteAll_of_subset fun _ h => mem_noteAll.2 (.inr h)

/-- Each word stands where it came first. -/
theorem noteAll_eq_append (found words : List String) :
    noteAll found words = found ++ (words.filter (· ∉ found)).eraseDups := by
  induction words generalizing found with
  | nil => simp
  | cons first rest ih =>
    rw [noteAll_cons, ih, note]
    by_cases known : first ∈ found
    · simp [known]
    · have later : rest.filter (· ∉ found ++ [first]) =
          (rest.filter (· ∉ found)).filter (fun word => !word == first) := by
        rw [List.filter_filter]
        apply List.filter_congr
        intro word _
        by_cases same : word = first <;> by_cases old : word ∈ found <;> simp [same, old]
      have new : (first :: rest).filter (· ∉ found) = first :: rest.filter (· ∉ found) :=
        List.filter_cons_of_pos (by simpa using known)
      rw [if_neg known, later, new, List.eraseDups_cons, List.append_assoc, List.singleton_append]

/-- From nothing, noting words leaves each of them once, in the order of their first occurrences. -/
theorem noteAll_start (words : List String) : noteAll [] words = words.eraseDups := by
  have fresh : words.filter (· ∉ ([] : List String)) = words :=
    List.filter_eq_self.2 fun _ _ => by simp
  rw [noteAll_eq_append, fresh, List.nil_append]

theorem noteAll_toList (found : List String) (word : Option String) :
    noteAll found word.toList = note found word := by
  cases word <;> rfl

/-! ### Refusals of a value -/

mutual

/-- The comparisons that `version` cannot express, one for each object that names a later version: an
object before its members, items and members in their order. -/
def refusals (version : Version) : Json → List String
  | .arr items => itemRefusals version items
  | .obj members => (refusal? version members).toList ++ memberRefusals version members
  | _ => []

/-- The refusals of all items. -/
def itemRefusals (version : Version) : List Json → List String
  | [] => []
  | v :: rest => refusals version v ++ itemRefusals version rest

/-- The refusals of all members. -/
def memberRefusals (version : Version) : List (String × Json) → List String
  | [] => []
  | (_, v) :: rest => refusals version v ++ memberRefusals version rest

end

mutual

/-- A scan notes the refusals in order. -/
theorem scan_eq_noteAll (version : Version) : (v : Json) → (found : List String) →
    scan version found v = noteAll found (refusals version v)
  | .null, _ | .bool _, _ | .num _, _ | .str _, _ => rfl
  | .arr items, found => by rw [scan, refusals, scanItems_eq_noteAll version items]
  | .obj members, found => by
    rw [scan, refusals, scanMembers_eq_noteAll version members, noteAll_append, noteAll_toList]

theorem scanItems_eq_noteAll (version : Version) : (items : List Json) → (found : List String) →
    scanItems version found items = noteAll found (itemRefusals version items)
  | [], _ => rfl
  | v :: rest, found => by
    rw [scanItems, itemRefusals, scan_eq_noteAll version v, scanItems_eq_noteAll version rest,
      noteAll_append]

theorem scanMembers_eq_noteAll (version : Version) : (members : List (String × Json)) →
    (found : List String) →
    scanMembers version found members = noteAll found (memberRefusals version members)
  | [], _ => rfl
  | (_, v) :: rest, found => by
    rw [scanMembers, memberRefusals, scan_eq_noteAll version v, scanMembers_eq_noteAll version rest,
      noteAll_append]

end

/-- Each word is reported once, where it came first. -/
theorem offending_eq (version : Version) (v : Json) :
    offending version v = (refusals version v).eraseDups := by
  rw [offending, scan_eq_noteAll, noteAll_start]

theorem eraseDups_eq_nil_iff {words : List String} : words.eraseDups = [] ↔ words = [] := by
  cases words with
  | nil => simp
  | cons => simp [List.eraseDups_cons]

/-- The value is no object that names a version later than `version`. -/
def Passes (version : Version) : Json → Prop
  | .obj members => refusal? version members = none
  | _ => True

mutual

/-- Nothing is refused exactly if no object inside names a later version. -/
theorem refusals_eq_nil_iff (version : Version) : (v : Json) →
    (refusals version v = [] ↔ v.Everywhere (Passes version))
  | .null | .bool _ | .num _ | .str _ => by simp [refusals, Everywhere, Passes]
  | .arr items => by
    rw [refusals, itemRefusals_eq_nil_iff version items, Everywhere]
    simp [Passes]
  | .obj members => by
    rw [refusals, List.append_eq_nil_iff, memberRefusals_eq_nil_iff version members, Everywhere,
      Option.toList_eq_nil_iff]
    rfl

theorem itemRefusals_eq_nil_iff (version : Version) : (items : List Json) →
    (itemRefusals version items = [] ↔ EveryItem (Passes version) items)
  | [] => by simp [itemRefusals, EveryItem]
  | v :: rest => by
    rw [itemRefusals, List.append_eq_nil_iff, refusals_eq_nil_iff version v,
      itemRefusals_eq_nil_iff version rest, EveryItem]

theorem memberRefusals_eq_nil_iff (version : Version) : (members : List (String × Json)) →
    (memberRefusals version members = [] ↔ EveryMember (Passes version) members)
  | [] => by simp [memberRefusals, EveryMember]
  | (_, v) :: rest => by
    rw [memberRefusals, List.append_eq_nil_iff, refusals_eq_nil_iff version v,
      memberRefusals_eq_nil_iff version rest, EveryMember]

end

/-- A check fails with all that is refused, if anything is. -/
theorem result_check (version : Version) (v : Json) :
    (check version v).result =
      if refusals version v = [] then .ok ()
      else .error (.specificationMismatch version (refusals version v).eraseDups) := by
  rw [check, offending_eq]
  split
  next none => rw [if_pos (eraseDups_eq_nil_iff.1 none)]; rfl
  next some => rw [if_neg (mt eraseDups_eq_nil_iff.2 some)]

/-! ### Later versions -/

/-- The version that an object names. -/
def needed? (members : List (String × Json)) : Option Version :=
  ((Dict.get? Marker.versionKey members).bind Json.asText?).bind Version.read

/-- An object passes exactly if the version it names, if any, is not above the given one. -/
theorem refusal?_eq_none_iff {version : Version} {members : List (String × Json)} :
    refusal? version members = none ↔ ∀ needed, needed? members = some needed → ¬ version < needed := by
  rw [refusal?, needed?]
  split
  next needed found =>
    by_cases newer : version < needed
    · simp [newer, found]
    · simp [newer, found]
  next none => simp [none]

/-- What passes for a version passes for every later one. -/
theorem Passes.mono {version later : Version} (order : ¬ later < version) {v : Json}
    (h : Passes version v) : Passes later v := by
  cases v with
  | obj members =>
    apply refusal?_eq_none_iff.2
    intro needed found newer
    have stays : ¬ version < needed := refusal?_eq_none_iff.1 h needed found
    change ¬ later.major < version.major at order
    change ¬ version.major < needed.major at stays
    change later.major < needed.major at newer
    omega
  | _ => trivial

/-! ### Objects of matchers -/

/-- The value has no objects to look at. -/
def IsScalar : Json → Prop
  | .arr _ | .obj _ => False
  | _ => True

/-- Scalars, under other keys than those that every matcher begins with. -/
inductive Particulars : List (String × Json) → Prop where
  | nil : Particulars []
  | cons {key v rest} : key ≠ comparisonKey ∧ key ≠ versionKey → IsScalar v → Particulars rest →
      Particulars ((key, v) :: rest)

/-- Particulars have names of their own and scalars for values. -/
theorem Particulars.of_mem {details : List (String × Json)} (h : Particulars details) :
    ∀ e ∈ details, (e.1 ≠ comparisonKey ∧ e.1 ≠ versionKey) ∧ IsScalar e.2 := by
  induction h with
  | nil => simp
  | cons other scalar _ ih => exact List.forall_mem_cons.2 ⟨⟨other, scalar⟩, ih⟩

/-- A scalar is never refused. -/
theorem refusals_scalar {v : Json} (h : IsScalar v) (version : Version) : refusals version v = [] := by
  cases v with
  | arr | obj => exact h.elim
  | _ => rfl

theorem memberRefusals_scalars {members : List (String × Json)} (h : ∀ e ∈ members, IsScalar e.2)
    (version : Version) : memberRefusals version members = [] := by
  induction members with
  | nil => rfl
  | cons e rest ih =>
    obtain ⟨k, v⟩ := e
    rw [memberRefusals, refusals_scalar (h (k, v) List.mem_cons_self), List.nil_append]
    exact ih fun a ha => h a (List.mem_cons_of_mem _ ha)

/-- Among scalars a value is found wherever its key puts it. -/
theorem memberRefusals_insert {members : List (String × Json)} (h : ∀ e ∈ members, IsScalar e.2)
    (version : Version) (key : String) (v : Json) :
    memberRefusals version (Dict.insert key v members) = refusals version v := by
  induction members with
  | nil => simp [Dict.insert, memberRefusals]
  | cons e rest ih =>
    obtain ⟨k, w⟩ := e
    have scalars : ∀ e ∈ rest, IsScalar e.2 := fun a ha => h a (List.mem_cons_of_mem _ ha)
    rw [Dict.insert]
    split
    · rw [memberRefusals, memberRefusals_scalars h, List.append_nil]
    · split
      · rw [memberRefusals, memberRefusals_scalars scalars, List.append_nil]
      · rw [memberRefusals, refusals_scalar (h (k, w) List.mem_cons_self), List.nil_append,
          ih scalars]

/-- The details of a marker leave its opening members as they are. -/
theorem get?_opening {key : String} {details : List (String × Json)} (h : ∀ e ∈ details, e.1 ≠ key)
    (kind : MatcherKind) :
    Dict.get? key (Dict.ofList (opening kind ++ details)) =
      Dict.get? key (Dict.ofList (opening kind)) := by
  rw [Dict.ofList, Dict.insertAll_append]
  exact Dict.get?_insertAll_of_forall_ne h

/-- An object that begins as a matcher is refused as that matcher. -/
theorem refusal?_opening (version : Version) (kind : MatcherKind) {details : List (String × Json)}
    (leave : ∀ e ∈ details, e.1 ≠ comparisonKey ∧ e.1 ≠ versionKey) :
    refusal? version (Dict.ofList (opening kind ++ details)) = kind.refusal? version := by
  have named : Dict.get? versionKey (Dict.ofList (opening kind ++ details)) =
      some (.str kind.since.text) :=
    (get?_opening (fun e he => (leave e he).2) kind).trans (Dict.get?_insert_self ..)
  have compared : Dict.get? comparisonKey (Dict.ofList (opening kind ++ details)) =
      some (.str kind.comparison) := by
    have apart : comparisonKey ≠ versionKey := by decide
    rw [get?_opening (fun e he => (leave e he).1)]
    exact (Dict.get?_insert_of_ne apart _ _).trans (Dict.get?_insert_self ..)
  have reads := Version.read_text kind.since
  simp only [refusal?, MatcherKind.refusal?, named, compared, Option.bind_some, Json.asText?, reads,
    Option.getD_some]

/-- The members of a marker, its contents apart, are scalars. -/
theorem isScalar_of_mem_opening (kind : MatcherKind) {details : List (String × Json)}
    (plain : Particulars details) :
    ∀ e ∈ Dict.ofList (opening kind ++ details), IsScalar e.2 := by
  intro e he
  rcases List.mem_append.1 (Dict.mem_of_mem_ofList he) with he | he
  · have either : e = (comparisonKey, .str kind.comparison) ∨
        e = (versionKey, .str kind.since.text) := by simpa [opening] using he
    rcases either with rfl | rfl <;> trivial
  · exact (plain.of_mem e he).2

/-- In the object of a matcher whose particulars are scalars, but for the last, the matcher itself is
looked at and then the last. -/
theorem refusals_opening (version : Version) (kind : MatcherKind) {details : List (String × Json)}
    (plain : Particulars details) (key : String) (v : Json)
    (other : key ≠ comparisonKey ∧ key ≠ versionKey) :
    refusals version (.obj (Dict.ofList (opening kind ++ details ++ [(key, v)]))) =
      (kind.refusal? version).toList ++ refusals version v := by
  have leave : ∀ e ∈ details ++ [(key, v)], e.1 ≠ comparisonKey ∧ e.1 ≠ versionKey :=
    List.forall_mem_append.2 ⟨fun e he => (plain.of_mem e he).1, List.forall_mem_singleton.2 other⟩
  rw [refusals, List.append_assoc, refusal?_opening version kind leave, ← List.append_assoc,
    Dict.ofList, Dict.insertAll_append]
  exact congrArg _ (memberRefusals_insert (isScalar_of_mem_opening kind plain) version key v)

end Validation

end ConsumerContract
