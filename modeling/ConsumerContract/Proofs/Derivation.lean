import ConsumerContract.Proofs.Attempts
import ConsumerContract.Shape.Derivation
import Mathlib.Logic.Relation

/-!
# When derivation succeeds

Derivation goes from a shape to those inside it, and from a record to its fields unless it is inside that
record already. `Visit.Next` is such a step. No sequence of steps goes on forever, for each step either
enters a record that it was not inside of or goes on to a smaller shape: `Visit.wellFounded_next`. So the
bound on the depth of records never shows: `Shape.isDerivation_deriveInside`. And a derivation fails
exactly if it comes to a fault: `Shape.deriveMatcher_exact`.
-/

namespace ConsumerContract

variable {n : Nat}

/-! ### Visits -/

/-- A shape to which derivation comes, the hint over it, and the records around it, innermost first. -/
structure Visit (n : Nat) where
  around : List (Fin n)
  hint : Hint
  shape : Shape n

/-- The keys that go together with the shape: a pointer hands its hint on, whatever it says. -/
def Shape.allowedKeys : Shape n → List HintKey
  | .text _ => [.sample, .regex, .format, .generator]
  | .bool _ | .integer _ | .float _ => [.sample]
  | .sequence .. => [.min, .max]
  | .record _ => []
  | .pointer .. | .unsupported .. => HintKey.all

/-- The text can be read as a value of the shape. Only truth values and numbers are read. -/
def Shape.CanRead : Shape n → List Char → Prop
  | .bool _, cs => ∃ b, Hint.readBool cs = .ok b
  | .integer _, cs => ∃ i, Hint.readInteger cs = .ok i
  | .float _, cs => ∃ x, Hint.readFloat cs = .ok x
  | _, _ => True

namespace Visit

variable (catalogue : Catalogue n) (naming : FieldNaming)

/-- The visit leads on to another. A pointer hands its hint on, items have none, and fields have their
own; a record is not entered again inside itself. -/
inductive Next : Visit n → Visit n → Prop where
  | pointer {around a name target} : Next ⟨around, a, .pointer name target⟩ ⟨around, a, target⟩
  | sequence {around a name item} : Next ⟨around, a, .sequence name item⟩ ⟨around, {}, item⟩
  | field {around a id f name b} : id ∉ around → f ∈ (catalogue id).fields →
      f.nameUnder naming = some name → f.readHint = .ok b →
      Next ⟨around, a, .record id⟩ ⟨id :: around, b, f.shape⟩

/-- No matcher can be derived here. -/
inductive IsFaulty : Visit n → Prop where
  /-- The hint of a field cannot be read. -/
  | hint {around a id f name e} : id ∉ around → f ∈ (catalogue id).fields →
      f.nameUnder naming = some name → f.readHint = .error e → IsFaulty ⟨around, a, .record id⟩
  /-- A key of the hint does not go together with the shape. -/
  | key {v key} : v.hint.has key = true → key ∉ v.shape.allowedKeys → IsFaulty v
  /-- The sample is no value of the shape. -/
  | sample {v text} : v.hint.sample = some text → ¬ v.shape.CanRead (Text.trim text.toList) →
      IsFaulty v
  | unsupported {around a name kind} : IsFaulty ⟨around, a, .unsupported name kind⟩
  /-- A record inside itself. -/
  | recursive {around a id} : id ∈ around → IsFaulty ⟨around, a, .record id⟩

end Visit

/-! ### The records that are left -/

/-- How many records derivation is not inside of. -/
def recordsLeft (around : List (Fin n)) : Nat :=
  ((List.finRange n).filter (· ∉ around)).length

/-- There are never more records left than the catalogue has. -/
theorem recordsLeft_le (around : List (Fin n)) : recordsLeft around ≤ n := by
  have some := List.length_filter_le (· ∉ around) (List.finRange n)
  rw [List.length_finRange] at some
  exact some

/-- Entering a record leaves one less. -/
theorem recordsLeft_cons_lt {id : Fin n} {around : List (Fin n)} (outside : id ∉ around) :
    recordsLeft (id :: around) < recordsLeft around := by
  have shape : (List.finRange n).filter (· ∉ id :: around) =
      ((List.finRange n).filter (· ∉ around)).filter (· ≠ id) := by
    rw [List.filter_filter]
    apply List.filter_congr
    intro other _
    simp
  rw [recordsLeft, recordsLeft, shape, List.length_filter_lt_length_iff_exists]
  exact ⟨id, by simp [outside], by simp⟩

namespace Visit

/-- No derivation goes on forever. -/
theorem wellFounded_next (catalogue : Catalogue n) (naming : FieldNaming) :
    WellFounded fun w v : Visit n => Next catalogue naming v w := by
  let measure (v : Visit n) : Nat × Nat := (recordsLeft v.around, sizeOf v.shape)
  apply Subrelation.wf (r := InvImage (Prod.Lex (· < ·) (· < ·)) measure) _
    (InvImage.wf measure (Prod.lex Nat.lt_wfRel Nat.lt_wfRel).wf)
  intro w v h
  cases h with
  | @pointer around a name target =>
    have smaller : sizeOf target < sizeOf (Shape.pointer name target) := by
      rw [Shape.pointer.sizeOf_spec]
      omega
    exact .right _ smaller
  | @sequence around a name item =>
    have smaller : sizeOf item < sizeOf (Shape.sequence name item) := by
      rw [Shape.sequence.sizeOf_spec]
      omega
    exact .right _ smaller
  | field outside => exact .left _ _ (recordsLeft_cons_lt outside)

end Visit

/-! ### Derivation without a bound -/

section

variable (catalogue : Catalogue n) (naming : FieldNaming)

/-- The matcher of a record, when `run` derives those of its fields inside it. -/
def RecordType.deriveWith (run : List (Fin n) → Hint → Shape n → Attempt Matcher)
    (around : List (Fin n)) (id : Fin n) : Attempt Matcher :=
  if id ∈ around then Attempt.fail (.unsupportedType (catalogue id).name recursiveKind)
  else do
    let fields ← Field.deriveAll catalogue naming (run (id :: around)) (catalogue id).fields
    pure (.ofFields fields)

/-- `run` derives the matchers of shapes inside records by a recursion with no bound on its depth. -/
def Shape.IsDerivation (run : List (Fin n) → Hint → Shape n → Attempt Matcher) : Prop :=
  ∀ around a s, run around a s = s.derive catalogue (RecordType.deriveWith catalogue naming run around) a

/-- The matcher of a shape inside records. -/
def Shape.deriveInside (around : List (Fin n)) (a : Hint) (s : Shape n) : Attempt Matcher :=
  s.derive catalogue (RecordType.derive catalogue naming n around) a

variable {catalogue naming}

/-- Inside itself a record has no matcher. -/
theorem RecordType.deriveWith_of_mem {run : List (Fin n) → Hint → Shape n → Attempt Matcher}
    {around : List (Fin n)} {id : Fin n} (inside : id ∈ around) :
    deriveWith catalogue naming run around id =
      Attempt.fail (.unsupportedType (catalogue id).name recursiveKind) :=
  if_pos inside

/-- What is derived inside a record depends on what is derived inside it only. -/
theorem RecordType.deriveWith_congr {run other : List (Fin n) → Hint → Shape n → Attempt Matcher}
    {around : List (Fin n)} {id : Fin n} (same : id ∉ around → run (id :: around) = other (id :: around)) :
    deriveWith catalogue naming run around id = deriveWith catalogue naming other around id := by
  rw [deriveWith, deriveWith]
  split
  next => rfl
  next outside => rw [same outside]

/-- One level of the bounded derivation is a step of the unbounded one. -/
theorem RecordType.derive_succ (levels : Nat) (around : List (Fin n)) (id : Fin n) :
    RecordType.derive catalogue naming (levels + 1) around id =
      deriveWith catalogue naming
        (fun around a s => s.derive catalogue (RecordType.derive catalogue naming levels around) a)
        around id :=
  rfl

theorem RecordType.derive_of_mem {levels : Nat} {around : List (Fin n)} {id : Fin n}
    (inside : id ∈ around) :
    RecordType.derive catalogue naming levels around id =
      Attempt.fail (.unsupportedType (catalogue id).name recursiveKind) := by
  cases levels with
  | zero => rfl
  | succ levels => exact (derive_succ levels around id).trans (deriveWith_of_mem inside)

/-- With as many levels as there are records left, more levels make no difference. -/
theorem RecordType.derive_levels {levels more : Nat} {around : List (Fin n)}
    (enough : recordsLeft around ≤ levels) (most : levels ≤ more) :
    RecordType.derive catalogue naming levels around =
      RecordType.derive catalogue naming more around := by
  induction levels generalizing more around with
  | zero =>
    funext id
    have inside : id ∈ around := by
      apply Decidable.byContradiction
      intro outside
      have := recordsLeft_cons_lt outside
      omega
    rw [derive_of_mem inside, derive_of_mem inside]
  | succ levels ih =>
    obtain ⟨more, rfl⟩ : ∃ k, more = k + 1 := ⟨more - 1, by omega⟩
    funext id
    rw [derive_succ, derive_succ]
    apply deriveWith_congr
    intro outside
    have fewer := recordsLeft_cons_lt outside
    have deeper : RecordType.derive catalogue naming levels (id :: around) =
        RecordType.derive catalogue naming more (id :: around) := ih (by omega) (by omega)
    rw [deeper]

/-- The bound on the depth never shows. -/
theorem Shape.isDerivation_deriveInside :
    IsDerivation catalogue naming (deriveInside catalogue naming) := by
  intro around a s
  have levels : RecordType.derive catalogue naming n around =
      RecordType.derive catalogue naming (n + 1) around :=
    RecordType.derive_levels (recordsLeft_le around) (Nat.le_succ n)
  have step : RecordType.derive catalogue naming n around =
      RecordType.deriveWith catalogue naming (deriveInside catalogue naming) around := by
    rw [levels]
    rfl
  rw [← step]
  rfl

/-- There is only one derivation. -/
theorem Shape.IsDerivation.unique {run other : List (Fin n) → Hint → Shape n → Attempt Matcher}
    (h : IsDerivation catalogue naming run) (h' : IsDerivation catalogue naming other) :
    run = other := by
  funext around
  -- the records left carry the induction: inside one more record there are fewer
  induction left : recordsLeft around using Nat.strongRecOn generalizing around with
  | ind left ih =>
    have step : RecordType.deriveWith catalogue naming run around =
        RecordType.deriveWith catalogue naming other around := by
      funext id
      apply RecordType.deriveWith_congr
      intro outside
      have fewer := recordsLeft_cons_lt outside
      exact ih _ (by omega) _ rfl
    funext a s
    rw [h around a s, h' around a s, step]

end

/-! ### Hints that go together with a shape -/

theorem HintKey.mem_all (key : HintKey) : key ∈ all := by
  cases key <;> decide

/-- A hint passes exactly if all of its keys are allowed. -/
theorem Hint.ensureOnly_eq_ok_iff (a : Hint) (allowed : List HintKey) (kind : String) :
    a.ensureOnly allowed kind = .ok () ↔ ∀ key, a.has key = true → key ∈ allowed := by
  have none : a.keys.find? (fun k => !allowed.contains k) = none ↔
      ∀ key, a.has key = true → key ∈ allowed := by
    simp [Hint.keys, HintKey.mem_all]
  rw [← none, ensureOnly]
  cases a.keys.find? fun k => !allowed.contains k <;> simp

/-- A sample is read exactly if there is none or if its text is that of a value. -/
theorem Hint.exists_sampleBy_iff {α : Type} (readSample : List Char → Except SampleFault α) (a : Hint)
    (kind : String) :
    (∃ v, a.sampleBy readSample kind = .ok v) ↔
      ∀ text, a.sample = some text → ∃ x, readSample (Text.trim text.toList) = .ok x := by
  rw [sampleBy]
  cases a.sample with
  | none => simp
  | some text => cases read : readSample (Text.trim text.toList) <;> simp [read]

namespace Shape

open Attempt (ofExcept succeeds_bind succeeds_give_bind succeeds_pure)

/-- After its keys have been checked, derivation goes on with the rest. -/
theorem succeeds_ensureOnly {α : Type} {a : Hint} {allowed : List HintKey} {kind : String}
    {x : Attempt α} :
    (do ofExcept (a.ensureOnly allowed kind); x).Succeeds ↔
      (∀ key, a.has key = true → key ∈ allowed) ∧ x.Succeeds := by
  rw [succeeds_bind, ← a.ensureOnly_eq_ok_iff allowed kind]
  constructor
  · rintro ⟨u, keys, hx⟩
    exact ⟨keys, hx⟩
  · rintro ⟨keys, hx⟩
    exact ⟨(), keys, hx⟩

/-- A matcher of a sample can be derived if the sample can be read. -/
theorem succeeds_sampleBy {α : Type} {readSample : List Char → Except SampleFault α} {a : Hint}
    {kind : String} {f : Option α → Matcher} :
    (do let sample ← ofExcept (a.sampleBy readSample kind); pure (f sample)).Succeeds ↔
      ∀ text, a.sample = some text → ∃ x, readSample (Text.trim text.toList) = .ok x := by
  rw [succeeds_bind, ← a.exists_sampleBy_iff readSample kind]
  constructor
  · rintro ⟨v, read, _⟩
    exact ⟨v, read⟩
  · rintro ⟨v, read⟩
    exact ⟨v, read, succeeds_pure _⟩

/-- Fields can be derived if the hint of each can be read and its matcher derived. -/
theorem succeeds_deriveAll {catalogue : Catalogue n} {naming : FieldNaming}
    {matcher : Hint → Shape n → Attempt Matcher} {fields : List (Field n)} :
    (Field.deriveAll catalogue naming matcher fields).Succeeds ↔
      ∀ f ∈ fields, ∀ name, f.nameUnder naming = some name →
        ∃ b, f.readHint = .ok b ∧ (matcher b f.shape).Succeeds := by
  induction fields with
  | nil => simp [Field.deriveAll, succeeds_pure]
  | cons f rest ih =>
    rw [Field.deriveAll, List.forall_mem_cons, ← ih]
    cases named : f.nameUnder naming with
    | none => simp
    | some name =>
      have head : (∀ name', some name = some name' →
          ∃ b, f.readHint = .ok b ∧ (matcher b f.shape).Succeeds) ↔
          ∃ b, f.readHint = .ok b ∧ (matcher b f.shape).Succeeds :=
        ⟨fun h => h name rfl, fun h _ _ => h⟩
      rw [head]
      constructor
      · intro h
        obtain ⟨b, read, h⟩ := succeeds_bind.1 (succeeds_give_bind.1 h)
        obtain ⟨m, hm, h⟩ := succeeds_bind.1 h
        obtain ⟨more, hmore, _⟩ := succeeds_bind.1 h
        exact ⟨⟨b, read, m, hm⟩, more, hmore⟩
      · rintro ⟨⟨b, read, m, hm⟩, more, hmore⟩
        have last : (do
            let more ← Field.deriveAll catalogue naming matcher rest
            pure ((name, Template.matcher m) :: more)).Succeeds :=
          succeeds_bind.2 ⟨more, hmore, succeeds_pure _⟩
        exact succeeds_give_bind.2 (succeeds_bind.2 ⟨b, read, succeeds_bind.2 ⟨m, hm, last⟩⟩)

end Shape

/-! ### One step of a derivation -/

namespace Visit

/-- The keys of the hint go together with the shape, and the sample is a value of it. -/
structure Suits (v : Visit n) : Prop where
  keys : ∀ key, v.hint.has key = true → key ∈ v.shape.allowedKeys
  sample : ∀ text, v.hint.sample = some text → v.shape.CanRead (Text.trim text.toList)

variable {catalogue : Catalogue n} {naming : FieldNaming}

/-- What is not faulty goes together with its hint. -/
theorem suits_of_not_isFaulty {v : Visit n} (h : ¬ v.IsFaulty catalogue naming) : v.Suits where
  keys _ given := Decidable.byContradiction fun other => h (.key given other)
  sample _ given := Classical.byContradiction fun unread => h (.sample given unread)

/-- A matcher can be derived at the visit. -/
def Derives (catalogue : Catalogue n) (naming : FieldNaming) (v : Visit n) : Prop :=
  (Shape.deriveInside catalogue naming v.around v.hint v.shape).Succeeds

section

variable {around : List (Fin n)} {a : Hint}

/-- A text has a matcher exactly if its hint suits it. -/
theorem derives_text {name : String} :
    Derives catalogue naming ⟨around, a, .text name⟩ ↔ Suits ⟨around, a, .text (n := n) name⟩ := by
  rw [Derives, Shape.deriveInside, Shape.derive, Shape.succeeds_ensureOnly]
  exact ⟨fun h => ⟨h.1, fun _ _ => trivial⟩, fun h => ⟨h.keys, Attempt.succeeds_pure _⟩⟩

/-- Truth values and numbers, of which a sample is read. -/
theorem derives_sampled {name : String} {s : Shape n}
    (sampled : s = .bool name ∨ s = .integer name ∨ s = .float name) :
    Derives catalogue naming ⟨around, a, s⟩ ↔ Suits ⟨around, a, s⟩ := by
  rcases sampled with rfl | rfl | rfl
  all_goals
    rw [Derives, Shape.deriveInside, Shape.derive, Shape.succeeds_ensureOnly, Shape.succeeds_sampleBy]
    exact ⟨fun h => ⟨h.1, h.2⟩, fun h => ⟨h.keys, h.sample⟩⟩

theorem derives_pointer {name : String} {target : Shape n} :
    Derives catalogue naming ⟨around, a, .pointer name target⟩ ↔
      Derives catalogue naming ⟨around, a, target⟩ :=
  Iff.rfl

/-- A sequence has a matcher exactly if its hint suits it and its items have one without a hint. -/
theorem derives_sequence {name : String} {item : Shape n} :
    Derives catalogue naming ⟨around, a, .sequence name item⟩ ↔
      Suits ⟨around, a, .sequence name item⟩ ∧ Derives catalogue naming ⟨around, {}, item⟩ := by
  rw [Derives, Shape.deriveInside, Shape.derive, Shape.succeeds_ensureOnly, Attempt.succeeds_bind]
  constructor
  · rintro ⟨keys, content, h, _⟩
    exact ⟨⟨keys, fun _ _ => trivial⟩, content, h⟩
  · rintro ⟨suits, content, h⟩
    exact ⟨suits.keys, content, h, _, rfl⟩

/-- A record has a matcher exactly if it has no hint, is not inside itself, and each field has one under
its own hint. -/
theorem derives_record {id : Fin n} :
    Derives catalogue naming ⟨around, a, .record id⟩ ↔
      Suits ⟨around, a, .record id⟩ ∧ id ∉ around ∧
        ∀ f ∈ (catalogue id).fields, ∀ name, f.nameUnder naming = some name →
          ∃ b, f.readHint = .ok b ∧ Derives catalogue naming ⟨id :: around, b, f.shape⟩ := by
  have keys : Derives catalogue naming ⟨around, a, .record id⟩ ↔
      Suits ⟨around, a, .record id⟩ ∧
        (RecordType.deriveWith catalogue naming (Shape.deriveInside catalogue naming) around id).Succeeds := by
    rw [Derives, Shape.isDerivation_deriveInside, Shape.derive, Shape.succeeds_ensureOnly]
    exact and_congr_left fun _ => ⟨fun h => ⟨h, fun _ _ => trivial⟩, fun h => h.keys⟩
  rw [keys, and_congr_right_iff]
  intro _
  rw [RecordType.deriveWith]
  split
  next inside => simp [inside, Attempt.not_succeeds_fail]
  next outside =>
    rw [Attempt.succeeds_bind]
    constructor
    · rintro ⟨fields, h, _⟩
      exact ⟨outside, Shape.succeeds_deriveAll.1 ⟨fields, h⟩⟩
    · rintro ⟨_, h⟩
      have derived : (Field.deriveAll catalogue naming (Shape.deriveInside catalogue naming (id :: around))
          (catalogue id).fields).Succeeds := Shape.succeeds_deriveAll.2 h
      obtain ⟨fields, h⟩ := derived
      exact ⟨fields, h, _, rfl⟩

/-- A shape that is not supported has no matcher. -/
theorem not_derives_unsupported {name kind : String} :
    ¬ Derives catalogue naming ⟨around, a, .unsupported name kind⟩ :=
  Attempt.not_succeeds_fail _

end

/-- A matcher is only derived where the hint goes together with the shape. -/
theorem Derives.suits {v : Visit n} (h : v.Derives catalogue naming) : v.Suits := by
  obtain ⟨around, a, s⟩ := v
  cases s with
  | text name => exact derives_text.1 h
  | bool name => exact (derives_sampled (.inl rfl)).1 h
  | integer name => exact (derives_sampled (.inr (.inl rfl))).1 h
  | float name => exact (derives_sampled (.inr (.inr rfl))).1 h
  | pointer name target => exact ⟨fun key _ => key.mem_all, fun _ _ => trivial⟩
  | sequence name item => exact (derives_sequence.1 h).1
  | record id => exact (derives_record.1 h).1
  | unsupported name kind => exact absurd h not_derives_unsupported

/-- Where a matcher is derived, nothing is wrong. -/
theorem Derives.not_isFaulty {v : Visit n} (h : v.Derives catalogue naming) :
    ¬ v.IsFaulty catalogue naming := by
  rintro (⟨outside, mem, named, unread⟩ | ⟨given, other⟩ | ⟨given, unread⟩ | _ | ⟨inside⟩)
  · obtain ⟨b, read, _⟩ := (derives_record.1 h).2.2 _ mem _ named
    rw [unread] at read
    cases read
  · exact other (h.suits.keys _ given)
  · exact unread (h.suits.sample _ given)
  · exact not_derives_unsupported h
  · exact (derives_record.1 h).2.1 inside

/-- Where a matcher is derived, so are those to which the visit leads on. -/
theorem Derives.next {v w : Visit n} (h : v.Derives catalogue naming) (next : v.Next catalogue naming w) :
    w.Derives catalogue naming := by
  cases next with
  | pointer => exact derives_pointer.1 h
  | sequence => exact (derives_sequence.1 h).2
  | field _ mem named read =>
    obtain ⟨b, read', hb⟩ := (derives_record.1 h).2.2 _ mem _ named
    rw [read] at read'
    cases read'
    exact hb

/-- Where nothing is wrong, a matcher is derived from those to which the visit leads on. -/
theorem derives_of_next {v : Visit n} (sound : ¬ v.IsFaulty catalogue naming)
    (next : ∀ w, v.Next catalogue naming w → w.Derives catalogue naming) : v.Derives catalogue naming := by
  have suits := suits_of_not_isFaulty sound
  obtain ⟨around, a, s⟩ := v
  cases s with
  | text name => exact derives_text.2 suits
  | bool name => exact (derives_sampled (.inl rfl)).2 suits
  | integer name => exact (derives_sampled (.inr (.inl rfl))).2 suits
  | float name => exact (derives_sampled (.inr (.inr rfl))).2 suits
  | pointer name target => exact derives_pointer.2 (next _ .pointer)
  | sequence name item => exact derives_sequence.2 ⟨suits, next _ .sequence⟩
  | record id =>
    have outside : id ∉ around := fun inside => sound (.recursive inside)
    refine derives_record.2 ⟨suits, outside, ?_⟩
    intro f mem name named
    cases read : f.readHint with
    | error e => exact absurd (.hint outside mem named read) sound
    | ok b => exact ⟨b, rfl, next _ (.field outside mem named read)⟩
  | unsupported name kind => exact absurd .unsupported sound

/-- A matcher is derived exactly if derivation comes to no fault. -/
theorem derives_iff {v : Visit n} :
    v.Derives catalogue naming ↔
      ∀ w, Relation.ReflTransGen (Next catalogue naming) v w → ¬ w.IsFaulty catalogue naming := by
  constructor
  · intro h w reached
    have derived : w.Derives catalogue naming := by
      induction reached with
      | refl => exact h
      | tail _ next ih => exact ih.next next
    exact derived.not_isFaulty
  · -- the visits that a visit leads on to come before it in the well-founded order
    induction v using (wellFounded_next catalogue naming).induction with
    | _ v ih =>
      intro sound
      apply derives_of_next (sound v .refl)
      intro w next
      exact ih w next fun u reached => sound u (.head next reached)

end Visit

/-- Derivation comes to an end and gives one result: no sequence of steps goes on forever, and one
recursion over them, without a bound on the depth of records, derives the matchers. It fails exactly if it
comes to a fault. -/
theorem Shape.deriveMatcher_exact (catalogue : Catalogue n) (naming : FieldNaming) :
    (WellFounded fun w v : Visit n => v.Next catalogue naming w) ∧
    (∃ run, IsDerivation catalogue naming run ∧
      (∀ other, IsDerivation catalogue naming other → other = run) ∧
      ∀ s, s.deriveMatcher catalogue naming = run [] {} s) ∧
    ∀ root : Shape n, (∃ e, (root.deriveMatcher catalogue naming).result = .error e) ↔
      ∃ v, Relation.ReflTransGen (Visit.Next catalogue naming) ⟨[], {}, root⟩ v ∧
        v.IsFaulty catalogue naming := by
  refine ⟨Visit.wellFounded_next catalogue naming, ⟨deriveInside catalogue naming, ?_⟩, ?_⟩
  · exact ⟨isDerivation_deriveInside, fun other h => h.unique isDerivation_deriveInside, fun _ => rfl⟩
  · intro root
    have derives : (root.deriveMatcher catalogue naming).Succeeds ↔
        Visit.Derives catalogue naming ⟨[], {}, root⟩ := Iff.rfl
    rw [Attempt.exists_error_iff, derives, Visit.derives_iff]
    constructor
    · intro h
      apply Classical.byContradiction
      intro none
      exact h fun v reached faulty => none ⟨v, reached, faulty⟩
    · rintro ⟨v, reached, faulty⟩ h
      exact h v reached faulty

/-- A record may stand beside itself. -/
example :
    let leaf : RecordType 2 := ⟨"Leaf", [{ ident := "value", shape := .text "String" }]⟩
    let pair : RecordType 2 :=
      ⟨"Pair", [{ ident := "left", shape := .record 1 }, { ident := "right", shape := .record 1 }]⟩
    (Shape.deriveMatcher (fun id => if id = 0 then pair else leaf) .plain (.record 0)).result.isOk :=
  rfl

end ConsumerContract
