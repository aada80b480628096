import ConsumerContract.Proofs.Derivation
import ConsumerContract.Proofs.Dictionaries

/-!
# What is derived

The matcher that a visit yields, one lemma for each shape. Those of the fields of a record stand under their
names in documents; of several fields with one name the last is kept (`Field.IsLast`), so its visit is kept
as well: `Visit.Keeps`.
-/

namespace ConsumerContract

variable {n : Nat}

/-! ### Fields that are kept -/

/-- The field is the last one with this name in documents. -/
inductive Field.IsLast (naming : FieldNaming) (name : String) (f : Field n) : List (Field n) → Prop
  | here {rest : List (Field n)} : f.nameUnder naming = some name →
    (∀ g ∈ rest, g.nameUnder naming ≠ some name) → IsLast naming name f (f :: rest)
  | later (g : Field n) {rest : List (Field n)} : IsLast naming name f rest → IsLast naming name f (g :: rest)

namespace Field

variable {naming : FieldNaming} {name : String} {f : Field n} {fields : List (Field n)}

theorem IsLast.mem (h : IsLast naming name f fields) : f ∈ fields := by
  induction h with
  | here => exact List.mem_cons_self
  | later g _ ih => exact List.mem_cons_of_mem g ih

theorem IsLast.named (h : IsLast naming name f fields) : f.nameUnder naming = some name := by
  induction h with
  | here named => exact named
  | later _ _ ih => exact ih

/-- The last field with a name is among the later ones if any of them has the name. -/
theorem isLast_cons_iff {g : Field n} {rest : List (Field n)} :
    IsLast naming name f (g :: rest) ↔ IsLast naming name f rest ∨
      (f = g ∧ g.nameUnder naming = some name ∧ ∀ other ∈ rest, other.nameUnder naming ≠ some name) := by
  constructor
  · intro h
    cases h with
    | here named last => exact .inr ⟨rfl, named, last⟩
    | later _ h => exact .inl h
  · rintro (h | ⟨rfl, named, last⟩)
    · exact .later g h
    · exact .here named last

/-- If a field has a name, one is the last with it. -/
theorem exists_isLast (mem : f ∈ fields) (named : f.nameUnder naming = some name) :
    ∃ last, IsLast naming name last fields := by
  induction fields generalizing f with
  | nil => cases mem
  | cons g rest ih =>
    by_cases later : ∃ h ∈ rest, h.nameUnder naming = some name
    · obtain ⟨h, inRest, named⟩ := later
      obtain ⟨last, isLast⟩ := ih inRest named
      exact ⟨last, .later g isLast⟩
    · have absent : ∀ h ∈ rest, h.nameUnder naming ≠ some name := fun h inRest named =>
        later ⟨h, inRest, named⟩
      rcases List.mem_cons.1 mem with rfl | inRest
      · exact ⟨f, .here named absent⟩
      · exact absurd named (absent f inRest)

/-- Where no name stands twice, every field is the last one with its name. -/
theorem isLast_of_nodup (distinct : (fields.filterMap (·.nameUnder naming)).Nodup) (mem : f ∈ fields)
    (named : f.nameUnder naming = some name) : IsLast naming name f fields := by
  induction fields with
  | nil => cases mem
  | cons g rest ih =>
    have inner : (rest.filterMap (·.nameUnder naming)).Nodup :=
      distinct.sublist ((List.sublist_cons_self g rest).filterMap _)
    rcases List.mem_cons.1 mem with rfl | mem
    · refine .here named fun other later same => ?_
      rw [List.filterMap_cons_some named, List.nodup_cons] at distinct
      exact distinct.1 (List.mem_filterMap.2 ⟨other, later, same⟩)
    · exact .later g (ih inner mem)

/-- The templates of fields, under their names in documents and in their order. -/
inductive DerivesAll (naming : FieldNaming) (matcher : Hint → Shape n → Attempt Matcher) :
    List (Field n) → List (String × Template) → Prop
  | nil : DerivesAll naming matcher [] []
  | skipped {f rest entries} : f.nameUnder naming = none → DerivesAll naming matcher rest entries →
    DerivesAll naming matcher (f :: rest) entries
  | named {f name a m rest entries} : f.nameUnder naming = some name → f.readHint = .ok a →
    (matcher a f.shape).result = .ok m → DerivesAll naming matcher rest entries →
    DerivesAll naming matcher (f :: rest) ((name, .matcher m) :: entries)

variable {matcher : Hint → Shape n → Attempt Matcher} {entries : List (String × Template)}

/-- What is derived for fields is the matcher of each field that is not left out, in their order. -/
theorem derivesAll_of_deriveAll {catalogue : Catalogue n}
    (h : (deriveAll catalogue naming matcher fields).result = .ok entries) :
    DerivesAll naming matcher fields entries := by
  induction fields generalizing entries with
  | nil =>
    cases h
    exact .nil
  | cons f rest ih =>
    rw [deriveAll] at h
    cases named : f.nameUnder naming with
    | none =>
      rw [named] at h
      exact .skipped named (ih h)
    | some name =>
      rw [named] at h
      rw [Attempt.result_give_bind] at h
      obtain ⟨a, read, h⟩ := Attempt.bind_eq_ok.1 h
      obtain ⟨m, derived, h⟩ := Attempt.bind_eq_ok.1 h
      obtain ⟨more, others, h⟩ := Attempt.bind_eq_ok.1 h
      cases h
      exact .named named read derived (ih others)

/-- An entry has a name that no later field has if no later entry has it. -/
theorem DerivesAll.absent_iff (h : DerivesAll naming matcher fields entries) :
    (∀ e ∈ entries, e.1 ≠ name) ↔ ∀ f ∈ fields, f.nameUnder naming ≠ some name := by
  induction h with
  | nil => simp
  | skipped unnamed _ ih =>
    rw [List.forall_mem_cons, ← ih]
    simp [unnamed]
  | named named _ _ _ ih =>
    rw [List.forall_mem_cons, List.forall_mem_cons, ← ih]
    simp [named]

/-- The dictionary of the fields holds, under each name, the matcher of the last field with this name. -/
theorem DerivesAll.mem_ofList_iff (h : DerivesAll naming matcher fields entries) {t : Template} :
    (name, t) ∈ Dict.ofList entries ↔ ∃ f a m, IsLast naming name f fields ∧ f.readHint = .ok a ∧
      (matcher a f.shape).result = .ok m ∧ t = .matcher m := by
  induction h with
  | nil =>
    constructor
    · intro mem
      cases mem
    · rintro ⟨f, a, m, last, -⟩
      cases last
  | @skipped f rest entries unnamed _ ih =>
    have other (g : Field n) : IsLast naming name g (f :: rest) ↔ IsLast naming name g rest := by
      rw [isLast_cons_iff, unnamed]
      simp
    simp only [ih, other]
  | @named f key b m rest entries named read derived others ih =>
    rw [Dict.mem_ofList_cons_iff, ih]
    constructor
    · rintro (⟨g, a, m, last, found⟩ | ⟨same, absent⟩)
      · exact ⟨g, a, m, .later f last, found⟩
      · obtain ⟨rfl, rfl⟩ := Prod.mk.inj same
        exact ⟨f, b, m, .here named (others.absent_iff.1 absent), read, derived, rfl⟩
    · rintro ⟨g, a, m', last, read', derived', rfl⟩
      cases last with
      | later _ last => exact .inl ⟨g, a, m', last, read', derived', rfl⟩
      | here named' last =>
        obtain rfl : key = name := Option.some.inj (named.symm.trans named')
        obtain rfl : b = a := Except.ok.inj (read.symm.trans read')
        obtain rfl : m = m' := Except.ok.inj (derived.symm.trans derived')
        exact .inr ⟨rfl, others.absent_iff.2 last⟩

end Field

/-! ### Matchers of visits -/

namespace Visit

variable {catalogue : Catalogue n} {naming : FieldNaming}

/-- The visit leads on to another, whose matcher is kept. -/
inductive Keeps (catalogue : Catalogue n) (naming : FieldNaming) : Visit n → Visit n → Prop where
  | pointer {around a name target} :
    Keeps catalogue naming ⟨around, a, .pointer name target⟩ ⟨around, a, target⟩
  | sequence {around a name item} :
    Keeps catalogue naming ⟨around, a, .sequence name item⟩ ⟨around, {}, item⟩
  | field {around a id f name b} : id ∉ around → Field.IsLast naming name f (catalogue id).fields →
    f.readHint = .ok b → Keeps catalogue naming ⟨around, a, .record id⟩ ⟨id :: around, b, f.shape⟩

/-- What is kept is visited. -/
theorem Keeps.next {v w : Visit n} (h : v.Keeps catalogue naming w) : v.Next catalogue naming w := by
  cases h with
  | pointer => exact .pointer
  | sequence => exact .sequence
  | field outside last read => exact .field outside last.mem last.named read

/-- Where no field has the name of another, every visit is kept. -/
theorem Next.keeps {v w : Visit n} (h : v.Next catalogue naming w)
    (distinct : ∀ id, v.shape = .record id →
      ((catalogue id).fields.filterMap (·.nameUnder naming)).Nodup) : v.Keeps catalogue naming w := by
  cases h with
  | pointer => exact .pointer
  | sequence => exact .sequence
  | field outside mem named read =>
    exact .field outside (Field.isLast_of_nodup (distinct _ rfl) mem named) read

/-- The matcher is derived at the visit. -/
def Yields (catalogue : Catalogue n) (naming : FieldNaming) (v : Visit n) (m : Matcher) : Prop :=
  (Shape.deriveInside catalogue naming v.around v.hint v.shape).result = .ok m

theorem Yields.derives {v : Visit n} {m : Matcher} (h : v.Yields catalogue naming m) :
    v.Derives catalogue naming :=
  ⟨m, h⟩

section

variable {around : List (Fin n)} {a : Hint} {name : String} {m : Matcher}

/-- After the keys have been checked, the rest gives the matcher. -/
theorem eq_ok_of_ensureOnly {α : Type} {allowed : List HintKey} {kind : String} {x : Attempt α} {y : α}
    (h : (do Attempt.ofExcept (a.ensureOnly allowed kind); x).result = .ok y) : x.result = .ok y := by
  obtain ⟨_, -, rest⟩ := Attempt.bind_eq_ok.1 h
  exact rest

theorem Yields.text (h : Yields catalogue naming ⟨around, a, .text name⟩ m) : m = Shape.textMatcher a := by
  have given := eq_ok_of_ensureOnly h
  cases given
  rfl

theorem Yields.bool (h : Yields catalogue naming ⟨around, a, .bool name⟩ m) :
    ∃ b, m = Shape.likeValue (.bool b) := by
  obtain ⟨sample, -, given⟩ := Attempt.bind_eq_ok.1 (eq_ok_of_ensureOnly h)
  cases given
  exact ⟨_, rfl⟩

theorem Yields.integer (h : Yields catalogue naming ⟨around, a, .integer name⟩ m) :
    ∃ i : Int64, m = Shape.likeValue (.int i.toInt) := by
  obtain ⟨sample, -, given⟩ := Attempt.bind_eq_ok.1 (eq_ok_of_ensureOnly h)
  cases given
  exact ⟨_, rfl⟩

theorem Yields.float (h : Yields catalogue naming ⟨around, a, .float name⟩ m) :
    ∃ x : Binary64, m = Shape.likeValue (.float x) := by
  obtain ⟨sample, -, given⟩ := Attempt.bind_eq_ok.1 (eq_ok_of_ensureOnly h)
  cases given
  exact ⟨_, rfl⟩

theorem Yields.pointer {target : Shape n} (h : Yields catalogue naming ⟨around, a, .pointer name target⟩ m) :
    Yields catalogue naming ⟨around, a, target⟩ m :=
  h

/-- A sequence has a matcher of items like those that its element has. -/
theorem Yields.sequence {item : Shape n} (h : Yields catalogue naming ⟨around, a, .sequence name item⟩ m) :
    ∃ content, Yields catalogue naming ⟨around, {}, item⟩ content ∧
      m = (Shape.sequenceMatcher a (.matcher content)).value := by
  obtain ⟨content, derived, given⟩ := Attempt.bind_eq_ok.1 (eq_ok_of_ensureOnly h)
  cases given
  exact ⟨content, derived, rfl⟩

/-- The matcher of a record holds what its last fields yield, each under its name. -/
theorem Yields.record {id : Fin n} (h : Yields catalogue naming ⟨around, a, .record id⟩ m) :
    id ∉ around ∧ ∃ fields, m = .record fields ∧ Dict.Ordered fields ∧
      ∀ name t, (name, t) ∈ fields ↔ ∃ f b inner, Field.IsLast naming name f (catalogue id).fields ∧
        f.readHint = .ok b ∧ Yields catalogue naming ⟨id :: around, b, f.shape⟩ inner ∧
        t = .matcher inner := by
  rw [Yields, Shape.isDerivation_deriveInside] at h
  have derived := eq_ok_of_ensureOnly h
  rw [RecordType.deriveWith] at derived
  split at derived
  next => cases derived
  next outside =>
    obtain ⟨entries, all, given⟩ := Attempt.bind_eq_ok.1 derived
    cases given
    have found := Field.derivesAll_of_deriveAll all
    exact ⟨outside, _, rfl, Dict.ordered_ofList entries, fun name t => found.mem_ofList_iff⟩

end

end Visit

end ConsumerContract
