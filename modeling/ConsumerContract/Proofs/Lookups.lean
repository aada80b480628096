import ConsumerContract.Proofs.Roots
import ConsumerContract.Proofs.Runs

/-!
# What is said of a place

Version 2 keeps the rules of all places in one dictionary, later versions keep them apart; either way the
rules of a place can be looked up, and what is found is what the template at that place was resolved to. A
template whose example is a text has a rule at its root at most, `Template.get?_rules_of_scalar`. And no two
places share a path, so in the one dictionary no place hides another: `Placed.get?_sharedRules` and
`Placed.get?_sharedRules_body`.
-/

namespace ConsumerContract

/-! ### Templates of texts -/

namespace Template

/-- In a template whose example is a text all matchers share one place. -/
theorem HoldsAt.eq_nil_of_scalar {t : Template} {s : List Segment} {m : Matcher}
    (found : t.HoldsAt s m) (scalar : t.sample.asScalar?.isSome = true) : s = [] := by
  induction found with
  | here m => rfl
  | like _ ih | equality _ ih => exact ih scalar
  | repeated | bounded | eachKeyLike | record | object | array => cases scalar

/-- In a template whose example is a text all positions have one path. -/
theorem eq_of_mem_entries_of_scalar {α : Type} {value : Matcher → Option α} {t : Template}
    {root : String} (scalar : t.sample.asScalar?.isSome = true) :
    ∀ e ∈ Dict.ofList (Position.entries root value t.positions), e.1 = root := by
  intro e he
  obtain ⟨p, hp, _, same⟩ := Position.mem_entries_iff.1 (Dict.mem_of_mem_ofList he)
  have here : p.segments = [] := (holdsAt_of_mem t hp).eq_nil_of_scalar scalar
  rw [here] at same
  exact same

/-- The rule of the template as a whole. -/
def rootRule (t : Template) : Option Rule :=
  Dict.get? Path.root (t.resolveUnchecked Path.root).value.rules

/-- A template whose example is a scalar has one rule at most, at its root. -/
theorem get?_rules_of_scalar {t : Template} (scalar : t.sample.asScalar?.isSome = true)
    (here path : String) :
    Dict.get? path (t.resolveUnchecked here).value.rules =
      if path = here then t.rootRule else none := by
  split
  next same =>
    have whole := t.get?_rules_append here Path.root ""
    rw [String.append_empty, String.append_empty] at whole
    rw [same, whole, rootRule]
  next apart =>
    apply Option.eq_none_iff_forall_ne_some.2
    intro rule found
    have stored := Dict.mem_of_get? found
    rw [rules_resolveUnchecked] at stored
    exact apart (eq_of_mem_entries_of_scalar scalar _ stored)

end Template

/-! ### Places -/

namespace Place

/-- The segments of the place in the one dictionary of version 2. -/
def segments : Place → List Segment
  | .path => [.field "path"]
  | .query name i => [.field "query", .field name, .index i]
  | .header name => [.field "headers", .field name]
  | .body => [.field "body"]

/-- The path of a place is written from segments. -/
theorem sharedRoot_eq_render (place : Place) :
    place.sharedRoot = Path.render Path.root place.segments := by
  cases place <;> rfl

/-- No two places have one path. -/
theorem sharedRoot_injective {a b : Place} (h : a.sharedRoot = b.sharedRoot) : a = b := by
  rw [sharedRoot_eq_render, sharedRoot_eq_render] at h
  have same := Path.render_injective _ h
  cases a <;> cases b <;> simp_all [segments]

/-- The letter that tells which kind of place a shared path is of. -/
def letter : Place → Char
  | .path => 'p'
  | .query .. => 'q'
  | .header _ => 'h'
  | .body => 'b'

theorem toList_sharedRoot (place : Place) :
    ∃ rest, place.sharedRoot.toList = '$' :: '.' :: place.letter :: rest := by
  rw [sharedRoot_eq_render, Path.toList_render]
  cases place <;> exact ⟨_, rfl⟩

/-- Only the body has a path that begins with its own. -/
theorem eq_body_of_sharedRoot {place : Place} {rest : String}
    (h : place.sharedRoot = Place.body.sharedRoot ++ rest) : place = .body := by
  obtain ⟨others, chars⟩ := place.toList_sharedRoot
  obtain ⟨bodies, bodyChars⟩ := Place.body.toList_sharedRoot
  rw [h, String.toList_append, bodyChars] at chars
  have letters : Place.body.letter = place.letter := by
    simp only [List.cons_append, List.cons.injEq] at chars
    exact chars.2.2.1
  cases place with
  | body => rfl
  | path | query | header => simp [letter] at letters

/-- The path is the place's own: its root, or one below the root of the body. -/
def Owns (place : Place) (path : String) : Prop :=
  path = place.sharedRoot ∨ place = .body ∧ ∃ rest, path = Place.body.sharedRoot ++ rest

/-- No path has two owners. -/
theorem Owns.unique {a b : Place} {path : String} (ha : a.Owns path) (hb : b.Owns path) : a = b := by
  rcases ha with rfl | ⟨rfl, rest, rfl⟩
  · rcases hb with same | ⟨rfl, rest, same⟩
    · exact sharedRoot_injective same
    · exact eq_body_of_sharedRoot same
  · rcases hb with same | ⟨rfl, _⟩
    · exact (eq_body_of_sharedRoot same.symm).symm
    · rfl

/-- Each place has one template, the values of a query ascend, and outside the body all examples are
texts. -/
structure Assigned (places : List (Place × Template)) : Prop where
  unique : ∀ place t u, (place, t) ∈ places → (place, u) ∈ places → t = u
  ascending : places.Pairwise fun a b =>
    ∀ name i j, a.1 = .query name i → b.1 = .query name j → i < j
  scalar : ∀ place t, (place, t) ∈ places → place ≠ .body → t.sample.asScalar?.isSome = true

end Place

/-! ### The one dictionary of version 2 -/

/-- What is found first is what is found anywhere, if no two finds differ. -/
theorem findSome?_eq_some_iff_exists {α β : Type} {f : α → Option β} {as : List α}
    (agree : ∀ a ∈ as, ∀ b ∈ as, ∀ x y, f a = some x → f b = some y → x = y) {x : β} :
    as.findSome? f = some x ↔ ∃ a ∈ as, f a = some x := by
  constructor
  · exact List.exists_of_findSome?_eq_some
  · rintro ⟨a, ha, hx⟩
    cases found : as.findSome? f with
    | none =>
      rw [List.findSome?_eq_none_iff.1 found a ha] at hx
      cases hx
    | some y =>
      obtain ⟨b, hb, hy⟩ := List.exists_of_findSome?_eq_some found
      rw [agree a ha b hb x y hx hy]

/-- What is found first in an ascending list is what is found before anything else. -/
theorem findSome?_eq_some_iff_least {α β : Type} {f : α → Option β} {before : α → α → Prop}
    {as : List α} (asymm : ∀ a b, before a b → ¬ before b a)
    (ascending : as.Pairwise fun a b => ∀ x y, f a = some x → f b = some y → before a b) {x : β} :
    as.findSome? f = some x ↔ ∃ a ∈ as, f a = some x ∧ ∀ b ∈ as, before b a → f b = none := by
  rw [List.findSome?_eq_some_iff]
  constructor
  · rintro ⟨earlier, a, later, rfl, found, nothing⟩
    refine ⟨a, by simp, found, ?_⟩
    intro b hb less
    rcases List.mem_append.1 hb with hb | hb
    · exact nothing b hb
    · apply Option.eq_none_iff_forall_ne_some.2
      intro y other
      rcases List.mem_cons.1 hb with rfl | hb
      · exact asymm b b less less
      · have tail := (List.pairwise_append.1 ascending).2.1
        exact asymm b a less ((List.pairwise_cons.1 tail).1 b hb x y found other)
  · rintro ⟨a, ha, found, nothing⟩
    obtain ⟨earlier, later, rfl⟩ := List.append_of_mem ha
    refine ⟨earlier, a, later, rfl, found, ?_⟩
    intro b hb
    apply Option.eq_none_iff_forall_ne_some.2
    intro y other
    have less := (List.pairwise_append.1 ascending).2.2 b hb a List.mem_cons_self y x other found
    rw [nothing b (List.mem_append_left _ hb) less] at other
    cases other

namespace Placed

open Place (Assigned Owns)

/-- The last part decides what stands at a path. -/
theorem get?_sharedRules_eq_findSome? {parts : List Placed}
    (ordered : ∀ p ∈ parts, Dict.Ordered p.resolution.rules) (path : String) :
    Dict.get? path (sharedRules parts) =
      parts.reverse.findSome? fun p => Dict.get? path p.resolution.rules := by
  have fold (rules : Rules) :
      Dict.get? path (parts.foldl (fun rules p => Dict.insertAll rules p.resolution.rules) rules) =
        (parts.reverse.findSome? fun p => Dict.get? path p.resolution.rules).or
          (Dict.get? path rules) := by
    induction parts generalizing rules with
    | nil => rfl
    | cons p rest ih =>
      obtain ⟨first, others⟩ := List.forall_mem_cons.1 ordered
      rw [List.foldl_cons, ih others, Dict.get?_insertAll path rules first, List.reverse_cons,
        List.findSome?_append, Option.or_assoc]
      simp
  rw [sharedRules, fold]
  simp [Dict.get?]

section

variable {places : List (Place × Template)}

/-- Every rule of a template stands at a path that its place owns. -/
theorem owns_of_get?_rules (assigned : Assigned places) {place : Place} {t : Template}
    (ht : (place, t) ∈ places) {path : String} {rule : Rule}
    (found : Dict.get? path (t.resolveUnchecked place.sharedRoot).value.rules = some rule) :
    place.Owns path := by
  by_cases body : place = .body
  · rw [body] at found
    exact .inr ⟨body, Template.exists_append_of_get?_rules found⟩
  · rw [Template.get?_rules_of_scalar (assigned.scalar place t ht body)] at found
    split at found
    next same => exact .inl same
    next => cases found

/-- At a path stands the rule of the template to whose place the path belongs. -/
theorem get?_sharedRules_iff (assigned : Assigned places) {path : String} {rule : Rule} :
    Dict.get? path (sharedRules (ofPlaces .v2 places)) = some rule ↔
      ∃ place t, (place, t) ∈ places ∧
        Dict.get? path (t.resolveUnchecked place.sharedRoot).value.rules = some rule := by
  have ordered : ∀ p ∈ ofPlaces .v2 places, Dict.Ordered p.resolution.rules := by
    intro p hp
    obtain ⟨e, _, rfl⟩ := List.mem_map.1 hp
    exact Dict.ordered_ofList _
  rw [get?_sharedRules_eq_findSome? ordered, findSome?_eq_some_iff_exists]
  · simp only [List.mem_reverse, ofPlaces, List.mem_map, Prod.exists]
    constructor
    · rintro ⟨_, ⟨place, t, ht, rfl⟩, found⟩
      exact ⟨place, t, ht, found⟩
    · rintro ⟨place, t, ht, found⟩
      exact ⟨_, ⟨place, t, ht, rfl⟩, found⟩
  · intro p hp q hq x y hx hy
    obtain ⟨⟨a, t⟩, ht, rfl⟩ := List.mem_map.1 (List.mem_reverse.1 hp)
    obtain ⟨⟨b, u⟩, hu, rfl⟩ := List.mem_map.1 (List.mem_reverse.1 hq)
    obtain rfl : a = b :=
      (owns_of_get?_rules assigned ht hx).unique (owns_of_get?_rules assigned hu hy)
    obtain rfl := assigned.unique a t u ht hu
    exact Option.some.inj (hx.symm.trans hy)

/-- Outside the body a place has one path, its own. -/
theorem get?_sharedRules (assigned : Assigned places) {place : Place} (outside : place ≠ .body)
    {rule : Rule} :
    Dict.get? place.sharedRoot (sharedRules (ofPlaces .v2 places)) = some rule ↔
      ∃ t, (place, t) ∈ places ∧ t.rootRule = some rule := by
  rw [get?_sharedRules_iff assigned]
  constructor
  · rintro ⟨other, t, ht, found⟩
    obtain rfl : other = place := (owns_of_get?_rules assigned ht found).unique (.inl rfl)
    rw [Template.get?_rules_of_scalar (assigned.scalar other t ht outside), if_pos rfl] at found
    exact ⟨t, ht, found⟩
  · rintro ⟨t, ht, found⟩
    refine ⟨place, t, ht, ?_⟩
    rw [Template.get?_rules_of_scalar (assigned.scalar place t ht outside), if_pos rfl, found]

/-- Below the path of the body stand the rules of its template. -/
theorem get?_sharedRules_body (assigned : Assigned places) {rest : String} {rule : Rule} :
    Dict.get? (Place.body.sharedRoot ++ rest) (sharedRules (ofPlaces .v2 places)) = some rule ↔
      ∃ t, (.body, t) ∈ places ∧
        Dict.get? (Path.root ++ rest) (t.resolveUnchecked Path.root).value.rules = some rule := by
  rw [get?_sharedRules_iff assigned]
  constructor
  · rintro ⟨place, t, ht, found⟩
    obtain rfl : place = .body :=
      (owns_of_get?_rules assigned ht found).unique (.inr ⟨rfl, rest, rfl⟩)
    rw [t.get?_rules_append _ Path.root] at found
    exact ⟨t, ht, found⟩
  · rintro ⟨t, ht, found⟩
    rw [t.get?_rules_append _ Place.body.sharedRoot] at found
    exact ⟨.body, t, ht, found⟩

end

/-! ### The parts of later versions -/

section

variable {α : Type}

/-- What `said` takes from the resolutions of all parts, by part. -/
def gather (said : Resolution → List (String × α)) (parts : List Placed) : ByPart α :=
  parts.foldl (fun b p => takeUp b p.place (said p.resolution)) {}

/-- What is said of a template as a whole, of its root. -/
def whole (said : Resolution → List (String × α)) (t : Template) : Option α :=
  Dict.get? Path.root (said (t.resolveUnchecked Path.root).value)

theorem takeUp_path (b : ByPart α) (place : Place) (entries : List (String × α)) :
    (takeUp b place entries).path =
      if place = .path then Dict.get? Path.root entries else b.path := by
  rw [takeUp.eq_def]
  cases place <;> cases Dict.get? Path.root entries <;> rfl

theorem takeUp_body (b : ByPart α) (place : Place) (entries : List (String × α)) :
    (takeUp b place entries).body = if place = .body then entries else b.body := by
  rw [takeUp.eq_def]
  cases place <;> cases Dict.get? Path.root entries <;> rfl

/-- A template at a header decides what is said of the header. -/
theorem get?_takeUp_header (b : ByPart α) (place : Place) (entries : List (String × α))
    (name : String) :
    Dict.get? name (takeUp b place entries).header =
      (if place = .header name then Dict.get? Path.root entries else none).or
        (Dict.get? name b.header) := by
  cases place with
  | header other =>
    rw [takeUp.eq_def]
    cases found : Dict.get? Path.root entries with
    | none => simp
    | some a =>
      rw [Dict.get?_insert]
      by_cases same : name = other
      · simp [same]
      · simp [same, Ne.symm same]
  | path | body =>
    simp [takeUp.eq_def]
  | query =>
    rw [takeUp.eq_def]
    cases Dict.get? Path.root entries <;> simp

/-- The place is that of a value of the parameter. -/
def isValueOf (name : String) : Place → Bool
  | .query other _ => other == name
  | _ => false

/-- A template at a parameter decides what is said of it unless that was decided before. -/
theorem get?_takeUp_query (b : ByPart α) (place : Place) (entries : List (String × α))
    (name : String) :
    Dict.get? name (takeUp b place entries).query =
      (Dict.get? name b.query).or
        (if isValueOf name place then Dict.get? Path.root entries else none) := by
  cases place with
  | query other i =>
    rw [takeUp.eq_def]
    cases found : Dict.get? Path.root entries with
    | none => simp
    | some a =>
      rw [Dict.get?_insertNew]
      by_cases same : name = other
      · simp [same, isValueOf]
      · simp [same, isValueOf, Ne.symm same]
  | path | body =>
    simp [takeUp.eq_def, isValueOf]
  | header =>
    rw [takeUp.eq_def]
    cases Dict.get? Path.root entries <;> simp [isValueOf]

section

variable (said : Resolution → List (String × α)) {version : Version}
  {places : List (Place × Template)}

/-- What is gathered by part is taken up place by place, resolved at the root. -/
theorem gather_ofPlaces (late : version ≠ .v2) :
    gather said (ofPlaces version places) =
      places.foldl (fun b e => takeUp b e.1 (said (e.2.resolveUnchecked Path.root).value)) {} := by
  have root (place : Place) : place.root version = Path.root := if_pos (usesRuleSets_of_ne late)
  rw [gather, ofPlaces, List.foldl_map]
  simp only [ofTemplate, root]

/-- Where the last part alone decides, its template does. -/
theorem gather_last {β : Type} (read : ByPart α → Option β) {look : List (String × α) → Option β}
    {place : Place} (start : read {} = none)
    (step : ∀ b other entries,
      read (takeUp b other entries) = if other = place then look entries else read b)
    (late : version ≠ .v2) (assigned : Assigned places) {x : β} :
    read (gather said (ofPlaces version places)) = some x ↔
      ∃ t, (place, t) ∈ places ∧ look (said (t.resolveUnchecked Path.root).value) = some x := by
  have fold (places : List (Place × Template)) (b : ByPart α) :
      read (places.foldl
          (fun b e => takeUp b e.1 (said (e.2.resolveUnchecked Path.root).value)) b) =
        ((places.reverse.find? fun e => decide (e.1 = place)).map
          fun e => look (said (e.2.resolveUnchecked Path.root).value)).getD (read b) := by
    induction places generalizing b with
    | nil => rfl
    | cons e rest ih =>
      rw [List.foldl_cons, ih, List.reverse_cons, List.find?_append]
      cases rest.reverse.find? fun e => decide (e.1 = place) with
      | some last => rfl
      | none =>
        rw [step, Option.none_or]
        by_cases here : e.1 = place <;> simp [here]
  rw [gather_ofPlaces said late, fold, start]
  cases found : places.reverse.find? fun e => decide (e.1 = place) with
  | some e =>
    obtain ⟨other, t⟩ := e
    obtain rfl : other = place := by simpa using List.find?_some found
    have ht : (other, t) ∈ places := List.mem_reverse.1 (List.mem_of_find?_eq_some found)
    simp only [Option.map_some, Option.getD_some]
    constructor
    · intro hx
      exact ⟨t, ht, hx⟩
    · rintro ⟨u, hu, hx⟩
      rw [assigned.unique other t u ht hu]
      exact hx
  | none =>
    have nowhere := List.find?_eq_none.1 found
    constructor
    · intro hx
      cases hx
    · rintro ⟨t, ht, _⟩
      exact absurd (decide_eq_true rfl) (nowhere _ (List.mem_reverse.2 ht))

/-- What is said of the path is said by a template there. -/
theorem path_gather (late : version ≠ .v2) (assigned : Assigned places) {a : α} :
    (gather said (ofPlaces version places)).path = some a ↔
      ∃ t, (.path, t) ∈ places ∧ whole said t = some a :=
  gather_last said ByPart.path rfl takeUp_path late assigned

/-- What is said in the body is said by a template there. -/
theorem get?_body_gather (late : version ≠ .v2) (assigned : Assigned places) {path : String} {a : α} :
    Dict.get? path (gather said (ofPlaces version places)).body = some a ↔
      ∃ t, (.body, t) ∈ places ∧
        Dict.get? path (said (t.resolveUnchecked Path.root).value) = some a := by
  refine gather_last said (fun b => Dict.get? path b.body) rfl ?_ late assigned
  intro b other entries
  rw [takeUp_body]
  split <;> rfl

/-- The last template of a header of which something is said decides. -/
theorem get?_header_gather_eq_findSome? (late : version ≠ .v2) (name : String) :
    Dict.get? name (gather said (ofPlaces version places)).header =
      places.reverse.findSome? fun e => if e.1 = .header name then whole said e.2 else none := by
  have fold (b : ByPart α) :
      Dict.get? name (places.foldl
          (fun b e => takeUp b e.1 (said (e.2.resolveUnchecked Path.root).value)) b).header =
        (places.reverse.findSome? fun e => if e.1 = .header name then whole said e.2 else none).or
          (Dict.get? name b.header) := by
    induction places generalizing b with
    | nil => rfl
    | cons e rest ih =>
      rw [List.foldl_cons, ih, get?_takeUp_header, List.reverse_cons, List.findSome?_append,
        Option.or_assoc]
      simp [whole]
  rw [gather_ofPlaces said late, fold]
  exact Option.or_none

/-- What is said of a header is said by a template there. -/
theorem get?_header_gather (late : version ≠ .v2) (assigned : Assigned places) {name : String}
    {a : α} :
    Dict.get? name (gather said (ofPlaces version places)).header = some a ↔
      ∃ t, (.header name, t) ∈ places ∧ whole said t = some a := by
  rw [get?_header_gather_eq_findSome? said late, findSome?_eq_some_iff_exists]
  · simp only [List.mem_reverse, Prod.exists, Option.ite_none_right_eq_some]
    constructor
    · rintro ⟨_, t, ht, rfl, found⟩
      exact ⟨t, ht, found⟩
    · rintro ⟨t, ht, found⟩
      exact ⟨_, t, ht, rfl, found⟩
  · simp only [List.mem_reverse, Prod.forall, Option.ite_none_right_eq_some]
    rintro _ t ht _ u hu x y ⟨rfl, hx⟩ ⟨rfl, hy⟩
    rw [assigned.unique _ t u ht hu] at hx
    exact Option.some.inj (hx.symm.trans hy)

/-- The first value of a query parameter of which something is said decides. -/
theorem get?_query_gather_eq_findSome? (late : version ≠ .v2) (name : String) :
    Dict.get? name (gather said (ofPlaces version places)).query =
      places.findSome? fun e => if isValueOf name e.1 then whole said e.2 else none := by
  have fold (b : ByPart α) :
      Dict.get? name (places.foldl
          (fun b e => takeUp b e.1 (said (e.2.resolveUnchecked Path.root).value)) b).query =
        (Dict.get? name b.query).or
          (places.findSome? fun e => if isValueOf name e.1 then whole said e.2 else none) := by
    induction places generalizing b with
    | nil => simp
    | cons e rest ih =>
      rw [List.foldl_cons, ih, get?_takeUp_query, ← whole, List.findSome?_cons, Option.or_assoc]
      congr 1
      cases if isValueOf name e.1 then whole said e.2 else none <;> rfl
  rw [gather_ofPlaces said late, fold]
  exact Option.none_or

theorem isValueOf_iff {name : String} {place : Place} :
    isValueOf name place = true ↔ ∃ i, place = .query name i := by
  cases place <;> simp [isValueOf]

/-- Both places are of values of the parameter, in this order. -/
def Precedes (name : String) (a b : Place) : Prop :=
  ∃ i j, a = .query name i ∧ b = .query name j ∧ i < j

theorem Precedes.asymm {name : String} {a b : Place} (h : Precedes name a b) :
    ¬ Precedes name b a := by
  rintro ⟨j', i', rfl, rfl, above⟩
  obtain ⟨i, j, first, second, below⟩ := h
  cases first
  cases second
  exact Nat.lt_asymm below above

/-- What is said of a parameter is said by the first of its values of which something is said. -/
theorem get?_query_gather (late : version ≠ .v2) (assigned : Assigned places) {name : String} {a : α} :
    Dict.get? name (gather said (ofPlaces version places)).query = some a ↔
      ∃ i t, (.query name i, t) ∈ places ∧ whole said t = some a ∧
        ∀ j < i, ∀ u, (.query name j, u) ∈ places → whole said u = none := by
  have ascending : places.Pairwise fun e f => ∀ x y,
      (if isValueOf name e.1 then whole said e.2 else none) = some x →
        (if isValueOf name f.1 then whole said f.2 else none) = some y → Precedes name e.1 f.1 := by
    refine assigned.ascending.imp ?_
    intro e f below x y he hf
    rw [Option.ite_none_right_eq_some, isValueOf_iff] at he hf
    obtain ⟨⟨i, first⟩, _⟩ := he
    obtain ⟨⟨j, second⟩, _⟩ := hf
    exact ⟨i, j, first, second, below name i j first second⟩
  have value (i : Nat) : isValueOf name (.query name i) = true := isValueOf_iff.2 ⟨i, rfl⟩
  rw [get?_query_gather_eq_findSome? said late,
    findSome?_eq_some_iff_least (fun _ _ => Precedes.asymm) ascending]
  simp only [Prod.exists, Prod.forall, Option.ite_none_right_eq_some, isValueOf_iff]
  constructor
  · rintro ⟨_, t, ht, ⟨⟨i, rfl⟩, found⟩, earlier⟩
    refine ⟨i, t, ht, found, ?_⟩
    intro j below u hu
    have nothing := earlier _ u hu ⟨j, i, rfl, rfl, below⟩
    rw [if_pos (value j)] at nothing
    exact nothing
  · rintro ⟨i, t, ht, found, earlier⟩
    refine ⟨_, t, ht, ⟨⟨i, rfl⟩, found⟩, ?_⟩
    rintro _ u hu ⟨j, k, rfl, same, below⟩
    cases same
    rw [if_pos (value j)]
    exact earlier j below u hu

end

end

end Placed

end ConsumerContract
