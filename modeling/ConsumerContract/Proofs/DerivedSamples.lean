import ConsumerContract.Proofs.Bodies
import ConsumerContract.Proofs.DerivedVersions

/-!
# The sample of what is derived

A value conforms to a shape if it is built as values of the shape are: `Shape.Conforms`. What stands for a
floating-point number is left open there, for a document has no number that is not finite and `null` stands
in its place. The sample of a derived matcher conforms in all else, and a float of it is the number that the
hint gives, or the usual one (`Visit.Yields.conforms_iff`). So every sample conforms but for floats that are
`null`, and those are the ones of which the hint gives an infinity or no number: `Shape.conforms_deriveMatcher`.
-/

namespace ConsumerContract

variable {n : Nat}

/-! ### Conformance -/

/-- The value is a number. -/
def Json.IsNumber : Json → Prop
  | .num (.int _) => True
  | .num (.float x) => x.isFinite = true
  | _ => False

/-- The value is built as the shape says; `floats` holds of what may stand for a floating-point number. The
keys of a record are the names of its fields in documents, and of several fields with one name the last says
what the value is. -/
inductive Shape.Conforms (catalogue : Catalogue n) (naming : FieldNaming) (floats : Json → Prop) :
    Shape n → Json → Prop where
  | text {name s} : Conforms catalogue naming floats (.text name) (.str s)
  | bool {name b} : Conforms catalogue naming floats (.bool name) (.bool b)
  | integer {name i} : Conforms catalogue naming floats (.integer name) (.int i)
  | float {name v} : floats v → Conforms catalogue naming floats (.float name) v
  | pointer {name target v} : Conforms catalogue naming floats target v →
      Conforms catalogue naming floats (.pointer name target) v
  | sequence {name item items} : items ≠ [] → (∀ v ∈ items, Conforms catalogue naming floats item v) →
      Conforms catalogue naming floats (.sequence name item) (.arr items)
  | record {id members} : Dict.Ordered members →
      (∀ name, Dict.has name members = true ↔
        ∃ f ∈ (catalogue id).fields, f.nameUnder naming = some name) →
      (∀ name f v, Field.IsLast naming name f (catalogue id).fields → (name, v) ∈ members →
        Conforms catalogue naming floats f.shape v) →
      Conforms catalogue naming floats (.record id) (.obj members)

section

variable {catalogue : Catalogue n} {naming : FieldNaming} {floats : Json → Prop}

/-- A float is written as a number exactly if it is finite. -/
theorem Json.isNumber_float_iff {x : Binary64} : (Json.float x).IsNumber ↔ x.isFinite = true := by
  rw [Json.float]
  split
  next finite => exact Iff.rfl
  next other => exact iff_of_false id other

/-- A float is written as a number or as `null`. -/
theorem Json.isNumber_float_or (x : Binary64) : (Json.float x).IsNumber ∨ Json.float x = .null := by
  rw [Json.isNumber_float_iff, Json.float]
  split
  next finite => exact .inl finite
  next => exact .inr rfl

theorem Shape.conforms_float_iff {name : String} {v : Json} :
    Conforms catalogue naming floats (.float name) v ↔ floats v :=
  ⟨fun | .float number => number, .float⟩

/-- A value conforms to a pointer as to its target. -/
theorem Shape.conforms_pointer_iff {name : String} {target : Shape n} {v : Json} :
    Conforms catalogue naming floats (.pointer name target) v ↔ Conforms catalogue naming floats target v :=
  ⟨fun | .pointer inner => inner, .pointer⟩

/-- An array of one item, at least once, conforms if the item does. -/
theorem Shape.conforms_sequence_iff {name : String} {item : Shape n} {array v : Json} {count : Int}
    (repeats : array.Repeats count v) :
    Conforms catalogue naming floats (.sequence name item) array ↔ Conforms catalogue naming floats item v := by
  obtain ⟨items, rfl, some, -, same⟩ := repeats
  constructor
  · rintro (_ | _ | _ | _ | _ | ⟨-, each⟩)
    obtain ⟨first, mem⟩ := List.exists_mem_of_ne_nil items some
    exact same first mem ▸ each first mem
  · exact fun inner => .sequence some fun e mem => (same e mem).symm ▸ inner

/-- The sample of a sequence is its item, at least once. -/
theorem Shape.repeats_sequenceMatcher (a : Hint) (content : Template) :
    ∃ count, (sequenceMatcher a content).value.sample.Repeats count content.sample := by
  unfold sequenceMatcher
  split
  · exact ⟨_, Matcher.repeats_between content _ _⟩
  · exact ⟨_, Matcher.repeats_atLeast content _⟩

/-- Whatever the hint of a text, its sample is a text. -/
theorem Shape.exists_sample_textMatcher (a : Hint) : ∃ s, (textMatcher a).sample = .str s := by
  unfold textMatcher
  split <;> exact ⟨_, rfl⟩

namespace Visit

/-- At the visit a floating-point number is asked for, and this is its sample: the one of the hint, or the
usual one. -/
inductive AsksForFloat : Visit n → Binary64 → Prop where
  | given {around a name text x} : a.sample = some text →
      Hint.readFloat (Text.trim text.toList) = .ok x → AsksForFloat ⟨around, a, .float name⟩ x
  | usual {around a name} : a.sample = none → AsksForFloat ⟨around, a, .float name⟩ Shape.usualFloat

/-- A visit asks for one float. -/
theorem AsksForFloat.unique {v : Visit n} {x y : Binary64} (h : v.AsksForFloat x) (h' : v.AsksForFloat y) :
    x = y := by
  cases h with
  | given sample read =>
    cases h' with
    | given sample' read' =>
      obtain rfl := Option.some.inj (sample.symm.trans sample')
      exact Except.ok.inj (read.symm.trans read')
    | usual none => cases sample.symm.trans none
  | usual none =>
    cases h' with
    | given sample => cases sample.symm.trans none
    | usual => rfl

theorem Yields.float_sample {around : List (Fin n)} {a : Hint} {name : String} {m : Matcher}
    (h : Yields catalogue naming ⟨around, a, .float name⟩ m) :
    ∃ x, AsksForFloat ⟨around, a, .float (n := n) name⟩ x ∧ m.sample = .float x := by
  obtain ⟨sample, read, given⟩ := Attempt.bind_eq_ok.1 (eq_ok_of_ensureOnly h)
  cases given
  have read : a.sampleBy Hint.readFloat "float" = .ok sample := read
  rw [Hint.sampleBy] at read
  split at read
  next none =>
    cases read
    exact ⟨_, .usual none, rfl⟩
  next text given =>
    split at read
    next x number =>
      cases read
      exact ⟨x, .given given number, rfl⟩
    next => cases read

/-- The sample of a record conforms if those of its last fields do. -/
theorem Yields.conforms_record {around : List (Fin n)} {a : Hint} {id : Fin n} {m : Matcher}
    (h : Yields catalogue naming ⟨around, a, .record id⟩ m) :
    (Shape.record id).Conforms catalogue naming floats m.sample ↔
      ∀ u c, Keeps catalogue naming ⟨around, a, .record id⟩ u → u.Yields catalogue naming c →
        u.shape.Conforms catalogue naming floats c.sample := by
  have derived := (derives_record.1 h.derives).2.2
  obtain ⟨outside, fields, rfl, ordered, listed⟩ := h.record
  have sample : (Matcher.record fields).sample = .obj (Dict.mapValues Template.sample fields) :=
    congrArg Json.obj (Template.sampleFields_eq fields)
  have orderedSample : Dict.Ordered (Dict.mapValues Template.sample fields) := ordered.mapValues _
  have get {name : String} {c : Matcher} (mem : (name, .matcher c) ∈ fields) :
      (name, c.sample) ∈ Dict.mapValues Template.sample fields := List.mem_map.2 ⟨_, mem, rfl⟩
  rw [sample]
  constructor
  · rintro (_ | _ | _ | _ | _ | _ | ⟨-, -, each⟩) u c kept yields
    cases kept with
    | field _ last read => exact each _ _ _ last (get ((listed _ _).2 ⟨_, _, c, last, read, yields, rfl⟩))
  · intro each
    refine .record orderedSample (fun name => ⟨?listed, ?named⟩) ?conform
    case listed =>
      intro has
      obtain ⟨v, found⟩ := Dict.has_iff.1 has
      obtain ⟨⟨key, t⟩, mem, same⟩ := List.mem_map.1 (Dict.mem_of_get? found)
      obtain ⟨rfl, rfl⟩ := Prod.mk.inj same
      obtain ⟨f, _, _, last, -⟩ := (listed _ _).1 mem
      exact ⟨f, last.mem, last.named⟩
    case named =>
      rintro ⟨f, mem, named⟩
      obtain ⟨g, last⟩ := Field.exists_isLast mem named
      obtain ⟨b, read, c, yields⟩ := derived g last.mem name last.named
      exact Dict.has_of_mem (get ((listed _ _).2 ⟨g, b, c, last, read, yields, rfl⟩))
    case conform =>
      intro name f v last mem
      obtain ⟨b, read, c, yields⟩ := derived f last.mem name last.named
      obtain rfl : v = c.sample :=
        Dict.eq_of_mem orderedSample mem (get ((listed _ _).2 ⟨f, b, c, last, read, yields, rfl⟩))
      exact each _ c (.field outside last read) yields

/-- Of what is derived at a visit the sample conforms if the float that is asked for may stand there, and the
samples conform of what is derived at the visits that are kept next. -/
theorem Yields.conforms_step {v : Visit n} {m : Matcher} (h : v.Yields catalogue naming m) :
    v.shape.Conforms catalogue naming floats m.sample ↔
      (∀ x, v.AsksForFloat x → floats (.float x)) ∧
        ∀ u c, v.Keeps catalogue naming u → u.Yields catalogue naming c →
          u.shape.Conforms catalogue naming floats c.sample := by
  obtain ⟨around, a, s⟩ := v
  cases s with
  | text name =>
    obtain ⟨s, sample⟩ := Shape.exists_sample_textMatcher a
    rw [h.text, sample]
    exact iff_of_true .text ⟨by rintro x ⟨⟩, by rintro u c ⟨⟩⟩
  | bool name =>
    obtain ⟨b, rfl⟩ := h.bool
    exact iff_of_true .bool ⟨by rintro x ⟨⟩, by rintro u c ⟨⟩⟩
  | integer name =>
    obtain ⟨i, rfl⟩ := h.integer
    exact iff_of_true .integer ⟨by rintro x ⟨⟩, by rintro u c ⟨⟩⟩
  | float name =>
    obtain ⟨x, asked, sample⟩ := h.float_sample
    rw [sample, Shape.conforms_float_iff]
    constructor
    · refine fun number => ⟨fun y other => other.unique asked ▸ number, ?_⟩
      rintro u c ⟨⟩
    · exact fun ⟨numbers, _⟩ => numbers x asked
  | pointer name target =>
    rw [Shape.conforms_pointer_iff]
    constructor
    · refine fun inner => ⟨by rintro x ⟨⟩, fun u c kept yields => ?_⟩
      cases kept
      exact h.pointer.unique yields ▸ inner
    · exact fun ⟨_, next⟩ => next _ m .pointer h.pointer
  | sequence name item =>
    obtain ⟨content, yields, rfl⟩ := h.sequence
    obtain ⟨count, repeats⟩ := Shape.repeats_sequenceMatcher a (.matcher content)
    rw [Shape.conforms_sequence_iff repeats]
    constructor
    · refine fun inner => ⟨by rintro x ⟨⟩, fun u c kept yields' => ?_⟩
      cases kept
      exact yields.unique yields' ▸ inner
    · exact fun ⟨_, next⟩ => next _ content .sequence yields
  | record id =>
    rw [h.conforms_record]
    exact (and_iff_right (by rintro x ⟨⟩)).symm
  | unsupported name kind => exact absurd h.derives not_derives_unsupported

open Relation (ReflTransGen)

/-- The sample of what is derived conforms exactly if every float that is asked for may stand there. -/
theorem Yields.conforms_iff {v : Visit n} {m : Matcher} (h : v.Yields catalogue naming m) :
    v.shape.Conforms catalogue naming floats m.sample ↔
      ∀ w, ReflTransGen (Keeps catalogue naming) v w → ∀ x, w.AsksForFloat x → floats (.float x) := by
  induction v using (wellFounded_next catalogue naming).induction generalizing m with
  | _ v ih =>
    rw [forall_reaches_iff, h.conforms_step, and_congr_right_iff]
    intro _
    refine forall_congr' fun u => ⟨fun conforms kept => ?_, fun numbers c kept yields => ?_⟩
    · obtain ⟨c, yields⟩ := h.derives.next kept.next
      exact (ih u kept.next yields).1 (conforms c kept yields)
    · exact (ih u kept.next yields).2 (numbers kept)

end Visit

open Relation (ReflTransGen)

/-- The sample of a derived matcher conforms to the shape but for floats that may be `null`; and it conforms in
all unless the hint over a float that is kept gives an infinity or no number. -/
theorem Shape.conforms_deriveMatcher {root : Shape n} {m : Matcher}
    (derived : (root.deriveMatcher catalogue naming).result = .ok m) :
    root.Conforms catalogue naming (fun v => v.IsNumber ∨ v = .null) m.sample ∧
    (root.Conforms catalogue naming Json.IsNumber m.sample ↔
      ∀ around a name, ReflTransGen (Visit.Keeps catalogue naming) ⟨[], {}, root⟩ ⟨around, a, .float name⟩ →
        ∀ text x, a.sample = some text → Hint.readFloat (Text.trim text.toList) = .ok x →
          x.isFinite = true) := by
  have yields : Visit.Yields catalogue naming ⟨[], {}, root⟩ m := derived
  refine ⟨yields.conforms_iff.2 fun _ _ x _ => Json.isNumber_float_or x, ?_⟩
  refine yields.conforms_iff.trans ⟨?_, ?_⟩
  · intro numbers around a name kept text x given read
    exact Json.isNumber_float_iff.1 (numbers _ kept x (.given given read))
  · rintro finite w kept x (⟨given, read⟩ | _)
    · exact Json.isNumber_float_iff.2 (finite _ _ _ kept _ x given read)
    · exact Json.isNumber_float_iff.2 (by decide)

end

namespace UnusualFloats

open Relation (ReflTransGen)

/-- A float whose hint gives no finite number. -/
def rate : Field 1 :=
  { ident := "rate", hint := some "example=1e400", shape := .float "f64" }

/-- A truth value that has the name of the float. -/
def isRated : Field 1 :=
  { ident := "is_rated", rename := some "rate", shape := .bool "bool" }

def allValues : Field 1 :=
  { ident := "all_values", hint := some "min=2", shape := .sequence "Vec" (.pointer "Box" (.float "f64")) }

/-- A field that is left out, of a shape for which there is no matcher. -/
def source : Field 1 :=
  { ident := "source", skipped := true, shape := .unsupported "Source" "enum" }

def top : Field 1 :=
  { ident := "top", hint := some "example=inf", shape := .pointer "Option" (.float "f64") }

/-- The float without a finite number is not kept. -/
def reading : RecordType 1 :=
  ⟨"Reading", [rate, isRated, allValues, source]⟩

def range : RecordType 1 :=
  ⟨"Range", [top]⟩

theorem readHint_rate :
    rate.readHint = .ok { raw := "example=1e400", sample := some "1e400" } := by
  decide +kernel

theorem readHint_allValues : allValues.readHint = .ok { raw := "min=2", min := some 2 } := by
  decide +kernel

theorem readHint_top : top.readHint = .ok { raw := "example=inf", sample := some "inf" } := by
  decide +kernel

theorem result_reading : ((Shape.record 0).deriveMatcher (fun _ => reading) .camel).result =
    .ok (.record [("allValues", .matcher (.repeated (.matcher (Shape.likeValue (.float Shape.usualFloat))) 2)),
      ("rate", .matcher (Shape.likeValue (.bool true)))]) := by
  have names : rate.nameUnder .camel = some "rate" ∧ isRated.nameUnder .camel = some "rate" ∧
      allValues.nameUnder .camel = some "allValues" ∧ source.nameUnder .camel = none := by decide
  simp only [Shape.deriveMatcher, Shape.derive, RecordType.derive, reading, Field.deriveAll, names,
    readHint_rate, readHint_allValues]
  rfl

theorem result_range : ((Shape.record 0).deriveMatcher (fun _ => range) .camel).result =
    .ok (.record [("top", .matcher (Shape.likeValue .null))]) := by
  have named : top.nameUnder .camel = some "top" := by decide
  simp only [Shape.deriveMatcher, Shape.derive, RecordType.derive, range, Field.deriveAll, named,
    readHint_top]
  rfl

/-- The float is not the last field with its name, and the field that is left out has none. -/
theorem eq_of_isLast_reading {name : String} {f : Field 1}
    (last : Field.IsLast .camel name f reading.fields) : f = isRated ∨ f = allValues := by
  rcases last with ⟨named, absent⟩ | ⟨_, last⟩
  · have again : isRated.nameUnder .camel = rate.nameUnder .camel := by decide
    exact absurd (again.trans named) (absent isRated (by simp))
  rcases last with _ | ⟨_, last⟩
  · exact .inl rfl
  rcases last with _ | ⟨_, last⟩
  · exact .inr rfl
  rcases last with ⟨named, _⟩ | ⟨_, ⟨⟩⟩
  cases named

/-- Of the record only a float is kept over which no hint gives a sample. -/
theorem sample_eq_none_of_kept {around : List (Fin 1)} {a : Hint} {name : String}
    (kept : ReflTransGen (Visit.Keeps (fun _ => reading) .camel) ⟨[], {}, .record 0⟩
      ⟨around, a, .float name⟩) : a.sample = none := by
  rcases kept.cases_head with same | ⟨_, _ | _ | ⟨_, last, _⟩, rest⟩
  · cases same
  rcases eq_of_isLast_reading last with rfl | rfl
  · rcases rest.cases_head with same | ⟨_, ⟨⟩, _⟩
    cases same
  · -- from the sequence through the pointer to the float
    rcases rest.cases_head with same | ⟨_, _ | _, rest⟩
    · cases same
    rcases rest.cases_head with same | ⟨_, _ | _, rest⟩
    · cases same
    rcases rest.cases_head with same | ⟨_, ⟨⟩, _⟩
    cases same
    rfl

/-- A hint over a float that is not kept does not matter; an infinity makes a float `null`. -/
theorem conforms_deriveMatcher_infinity :
    (∃ m, ((Shape.record 0).deriveMatcher (fun _ => reading) .camel).result = .ok m ∧
      (Shape.record 0).Conforms (fun _ => reading) .camel Json.IsNumber m.sample) ∧
    (∃ m, ((Shape.record 0).deriveMatcher (fun _ => range) .camel).result = .ok m ∧
      m.sample = .obj [("top", .null)] ∧
      (Shape.record 0).Conforms (fun _ => range) .camel (fun v => v.IsNumber ∨ v = .null) m.sample ∧
      ¬ (Shape.record 0).Conforms (fun _ => range) .camel Json.IsNumber m.sample) := by
  obtain ⟨_, strict⟩ := Shape.conforms_deriveMatcher result_reading
  obtain ⟨loose, only⟩ := Shape.conforms_deriveMatcher result_range
  refine ⟨⟨_, result_reading, strict.2 ?_⟩, _, result_range, rfl, loose, fun conforms => ?_⟩
  · intro around a name kept text x given
    rw [sample_eq_none_of_kept kept] at given
    cases given
  · have named : top.nameUnder .camel = some "top" := by decide
    have first : Visit.Keeps (fun _ => range) .camel ⟨[], {}, .record 0⟩
        ⟨[0], { raw := "example=inf", sample := some "inf" }, top.shape⟩ :=
      .field List.not_mem_nil (.here named (by simp)) readHint_top
    have infinite : Hint.readFloat (Text.trim "inf".toList) = .ok .infinity := by decide +kernel
    have finite := only.1 conforms _ _ "f64" ((ReflTransGen.single first).tail .pointer) "inf" _ rfl infinite
    exact absurd finite (by decide)

end UnusualFloats

end ConsumerContract
