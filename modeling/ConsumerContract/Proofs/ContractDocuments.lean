import ConsumerContract.Contract.Document
import ConsumerContract.Proofs.RuleDocuments

/-!
# Contracts read back

What is read from the document of a contract is the contract itself, `Contract.decode_toJson`, with one
exception: the body `null` is written, and a body that reads as `null` is taken for none. The reader of
rules tries rules by path before rules by part; a document of the latter is never one of the former, as no
object in it has a tag. All dictionaries of the contract must be in order: `Contract.InOrder`.
-/

namespace ConsumerContract

open Json (Source Failure)
open Json.Source

/-! ### Order -/

/-- The dictionaries are in order. -/
structure ByPart.InOrder {α : Type} (b : ByPart α) : Prop where
  body : Dict.Ordered b.body
  header : Dict.Ordered b.header
  query : Dict.Ordered b.query

/-- What holds of everything that is said of any part. -/
structure ByPart.All {α : Type} (p : α → Prop) (b : ByPart α) : Prop where
  body : ∀ e ∈ b.body, p e.2
  header : ∀ e ∈ b.header, p e.2
  query : ∀ e ∈ b.query, p e.2
  path : ∀ a, b.path = some a → p a

/-- The rules are in order; rules by part are not all missing. -/
def PartRules.InOrder : PartRules → Prop
  | .flat rules => Dict.Ordered rules ∧ ∀ e ∈ rules, e.2.InOrder
  | .byPart sets => sets.isEmpty = false ∧ sets.InOrder ∧ sets.All RuleSet.InOrder

/-- The parameters of the state are in order. -/
structure ProviderState.InOrder (s : ProviderState) : Prop where
  params : Dict.Ordered s.params
  values : ∀ e ∈ s.params, e.2.Everywhere Json.InOrder

/-- The dictionaries of the request are in order. -/
structure Request.InOrder (r : Request) : Prop where
  query : ∀ values, r.query = some (.byName values) → Dict.Ordered values
  headers : Dict.Ordered r.headers
  body : ∀ v, r.body = some v → v.Everywhere Json.InOrder
  rules : ∀ p, r.rules = some p → p.InOrder
  generators : ∀ g, r.generators = some g → g.InOrder

/-- The dictionaries of the response are in order. -/
structure Response.InOrder (r : Response) : Prop where
  headers : Dict.Ordered r.headers
  body : ∀ v, r.body = some v → v.Everywhere Json.InOrder
  rules : ∀ p, r.rules = some p → p.InOrder
  generators : ∀ g, r.generators = some g → g.InOrder

/-- The dictionaries of the interaction are in order. -/
structure Interaction.InOrder (i : Interaction) : Prop where
  states : ∀ s ∈ i.states, s.InOrder
  request : i.request.InOrder
  response : i.response.InOrder

/-- The dictionaries of the message are in order. -/
structure Message.InOrder (m : Message) : Prop where
  states : ∀ s ∈ m.states, s.InOrder
  contents : m.contents.Everywhere Json.InOrder
  rules : ∀ p, m.rules = some p → p.InOrder
  generators : ∀ g, m.generators = some g → g.InOrder
  metadata : Dict.Ordered m.metadata
  values : ∀ e ∈ m.metadata, e.2.Everywhere Json.InOrder

/-- The dictionaries of the contract are in order. -/
structure Contract.InOrder (c : Contract) : Prop where
  interactions : ∀ i ∈ c.interactions, i.InOrder
  messages : ∀ m ∈ c.messages, m.InOrder

/-! ### What comes back -/

/-- The value, unless it is `null`. -/
def Json.kept : Json → Option Json
  | .null => none
  | v => some v

/-- The request as it is read back: a body `null` is lost. -/
def Request.reread (r : Request) : Request :=
  { r with body := r.body.bind Json.kept }

/-- The response as it is read back: a body `null` is lost. -/
def Response.reread (r : Response) : Response :=
  { r with body := r.body.bind Json.kept }

/-- The interaction as it is read back. -/
def Interaction.reread (i : Interaction) : Interaction :=
  { i with request := i.request.reread, response := i.response.reread }

/-- The contract as it is read back. -/
def Contract.reread (c : Contract) : Contract :=
  { c with interactions := c.interactions.map Interaction.reread }

/-- Every value but `null` is kept. -/
theorem Json.kept_eq_some_iff {v : Json} : v.kept = some v ↔ v ≠ .null := by
  cases v <;> simp [kept]

/-- A body is kept unless it is `null`. -/
theorem bind_kept_eq_iff {body : Option Json} :
    body.bind Json.kept = body ↔ body ≠ some .null := by
  cases body with
  | none => simp
  | some v =>
    show v.kept = some v ↔ _
    rw [Json.kept_eq_some_iff]
    simp

/-- An interaction is read back unchanged exactly if neither of its bodies is `null`. -/
theorem Interaction.reread_eq_iff {i : Interaction} :
    i.reread = i ↔ i.request.body ≠ some .null ∧ i.response.body ≠ some .null := by
  rw [← bind_kept_eq_iff, ← bind_kept_eq_iff]
  constructor
  · intro same
    have request := congrArg (·.request.body) same
    have response := congrArg (·.response.body) same
    exact ⟨request, response⟩
  · rintro ⟨request, response⟩
    show { i with request := i.request.reread, response := i.response.reread } = i
    rw [Request.reread, Response.reread, request, response]

/-- A contract is read back as it was exactly if no body in it is `null`. -/
theorem Contract.reread_eq_iff {c : Contract} :
    c.reread = c ↔ ∀ i ∈ c.interactions,
      i.request.body ≠ some .null ∧ i.response.body ≠ some .null := by
  constructor
  · intro same i hi
    have all : c.interactions.map Interaction.reread = c.interactions := congrArg (·.interactions) same
    have fixed : ∀ j ∈ c.interactions, j.reread = id j :=
      List.map_inj_left.1 (all.trans (List.map_id _).symm)
    exact Interaction.reread_eq_iff.1 (fixed i hi)
  · intro filled
    have all : c.interactions.map Interaction.reread = c.interactions.map id :=
      List.map_inj_left.2 fun i hi => Interaction.reread_eq_iff.2 (filled i hi)
    show { c with interactions := c.interactions.map Interaction.reread } = c
    rw [all, List.map_id]

/-! ### Members -/

theorem listMember_eq {α : Type} (key : String) (write : List α → Json) (as : List α) :
    listMember key write as = optionalMember key write (listed as) := by
  cases as <;> rfl

theorem eq_of_listed {α : Type} {as bs : List α} (h : listed as = some bs) : bs = as := by
  cases as with
  | nil => cases h
  | cons a rest => exact (Option.some.inj h).symm

@[simp]
theorem getD_map_listed {α : Type} (as : List α) : ((listed as).map id).getD [] = as := by
  cases as <;> rfl

@[simp]
theorem getD_map_some {α : Type} (o : Option α) : (o.map some).getD none = o := by
  cases o <;> rfl

@[simp]
theorem getD_map {α β : Type} (o : Option α) (f : α → Option β) :
    (o.map f).getD none = o.bind f := by
  cases o <;> rfl

theorem decodeSingle_toJson (key text : String) :
    decodeSingle key (ofJson (singleJson key text)) = .ok text :=
  asSingle_ofMembers false key (asText_ofJson text)

theorem asDict_textsJson {d : List (String × String)} (ordered : Dict.Ordered d) :
    asDict asText (ofJson (textsJson d)) = .ok d :=
  asDict_ofJson ordered fun e _ => asText_ofJson e.2

/-- A body is kept, unless it is `null`. -/
theorem asOptional_value {v : Json} (inOrder : v.Everywhere Json.InOrder) :
    asOptional value (ofJson v) = .ok v.kept := by
  cases v with
  | null => rfl
  | _ => exact asOptional_ofJson (by simp) (value_ofJson inOrder)

/-- A provider state is read back. -/
theorem ProviderState.decode_toJson {s : ProviderState} (h : s.InOrder) :
    decode (ofJson s.toJson) = .ok s := by
  have params : ∀ d, listed s.params = some d → asDict value (ofJson (.obj d)) = .ok (id d) := by
    intro d hd
    rw [eq_of_listed hd]
    exact asDict_value h.params h.values
  rw [toJson, listMember_eq, ← List.append_nil (optionalMember ..), decode, asRecord_ofJson,
    fill_member (fun a p => { p with name := some a }) (by rfl) rfl (asText_ofJson s.name),
    fill_optional (listed s.params) id (fun a p => { p with params := a }) (by rfl) rfl rfl params]
  show Except.ok (⟨s.name, ((listed s.params).map id).getD []⟩ : ProviderState) = _
  rw [getD_map_listed]

theorem asList_states {states : List ProviderState} (h : ∀ s ∈ states, s.InOrder) :
    asList ProviderState.decode (ofJson (ProviderState.listJson states)) = .ok states :=
  asList_ofJson fun s hs => ProviderState.decode_toJson (h s hs)

/-! ### Alternatives -/

section

variable {α : Type} {first second : Source → Except Failure α} {v : Json} {a : α}

/-- Of two forms, the first that fits is read. -/
theorem decodeEither_first (h : first (ofJson v) = .ok a) :
    decodeEither first second (ofJson v) = .ok a := by
  rw [decodeEither, read_ofJson]
  simp only [h]

/-- The second form is read where the first one does not fit. -/
theorem decodeEither_second {f : Failure} (refused : first (ofJson v) = .error f)
    (h : second (ofJson v) = .ok a) : decodeEither first second (ofJson v) = .ok a := by
  rw [decodeEither, read_ofJson]
  simp only [refused, h]

end

/-- A query is read back, in either shape. -/
theorem Query.decode_toJson {q : Query} (h : ∀ values, q = .byName values → Dict.Ordered values) :
    decode (ofJson q.toJson) = .ok q := by
  cases q with
  | text s => exact decodeEither_first rfl
  | byName values =>
    have reads : asDict (asList asText) (ofJson (Query.byName values).toJson) = .ok values :=
      asDict_ofJson (h values rfl) fun e _ => asList_ofJson fun s _ => asText_ofJson s
    refine decodeEither_second rfl ?_
    rw [reads]
    rfl

/-! ### Parts -/

/-- What is said by part is read back if each value is. -/
theorem ByPart.decode_toJson {α : Type} (held : Bool) {decodeOne : Source → Except Failure α}
    {write : α → Json} {b : ByPart α} (ordered : b.InOrder) (written : ∀ a, write a ≠ .null)
    (reads : b.All fun a => decodeOne (ofJson (write a)) = .ok a) :
    decode held decodeOne (ofJson (b.toJson write)) = .ok b := by
  have dict {d : List (String × α)} (ordered : Dict.Ordered d)
      (reads : ∀ e ∈ d, decodeOne (ofJson (write e.2)) = .ok e.2) : ∀ as, listed d = some as →
        asDict decodeOne (ofJson (.obj (Dict.mapValues write as))) = .ok (id as) := by
    intro as has
    rw [eq_of_listed has]
    exact asDict_ofJson ordered reads
  have path : ∀ a, b.path = some a → asOptional decodeOne (ofJson (write a)) = .ok (some a) :=
    fun a ha => asOptional_ofJson (written a) (reads.path a ha)
  rw [toJson]
  simp only [listMember_eq, List.append_assoc]
  rw [← List.append_nil (optionalMember "path" write b.path), decode, asRecord_ofJson,
    fill_optional (listed b.body) id (fun a p => { p with body := a }) (by rfl) rfl rfl
      (dict ordered.body reads.body),
    fill_optional (listed b.header) id (fun a p => { p with header := a }) (by rfl) rfl rfl
      (dict ordered.header reads.header),
    fill_optional (listed b.query) id (fun a p => { p with query := a }) (by rfl) rfl rfl
      (dict ordered.query reads.query),
    fill_optional b.path some (fun a p => { p with path := a }) (by rfl) rfl rfl path]
  show Except.ok (⟨((listed b.body).map id).getD [], ((listed b.header).map id).getD [],
    ((listed b.query).map id).getD [], (b.path.map some).getD none⟩ : ByPart α) = _
  rw [getD_map_listed, getD_map_listed, getD_map_listed, getD_map_some]

theorem decodeGenerators_toJson {g : ByPart Generator} (ordered : g.InOrder) :
    decodeGenerators (ofJson (g.toJson Generator.toJson)) = .ok g := by
  have reads (a : Generator) := Generator.decode_toJson false a
  have written (a : Generator) : a.toJson ≠ .null := by simp [Generator.toJson]
  exact ByPart.decode_toJson false ordered written
    ⟨fun e _ => reads e.2, fun e _ => reads e.2, fun e _ => reads e.2, fun a _ => reads a⟩

/-- An object without a tag that is a text or a number is no rule. -/
theorem Rule.decode_untagged {members : List (String × Json)}
    (untagged : ∀ e ∈ members, e.1 = "match" → e.2.isObject = true) :
    ∃ f, decode true (ofJson (.obj members)) = .error f := by
  have split : (∃ f, splitTag true "match" RuleKind.words (ofMembers members) none = .error f) ∨
      ∃ others, splitTag true "match" RuleKind.words (ofMembers members) none =
        .ok (none, others) := by
    induction members with
    | nil => exact .inr ⟨[], rfl⟩
    | cons e rest ih =>
      obtain ⟨k, v⟩ := e
      rw [ofMembers, splitTag]
      split
      next tag =>
        have object : v.isObject = true := untagged (k, v) (by simp) tag
        left
        cases v with
        | obj members => exact ⟨_, rfl⟩
        | _ => cases object
      next =>
        rw [read_ofJson]
        rcases ih fun f hf => untagged f (List.mem_cons_of_mem _ hf) with ⟨f, hf⟩ | ⟨others, ho⟩
        · exact .inl ⟨f, by rw [hf]; rfl⟩
        · exact .inr ⟨_, by rw [ho]; rfl⟩
  have tagged : ∃ f, asTagged true "match" RuleKind.words (ofJson (.obj members)) = .error f := by
    rw [ofJson, asTagged]
    rcases split with ⟨f, hf⟩ | ⟨others, ho⟩
    · exact ⟨f, by rw [hf]⟩
    · exact ⟨.mismatched, by rw [ho]; rfl⟩
  obtain ⟨f, hf⟩ := tagged
  exact ⟨f, by rw [decode, decodeFrom, hf]⟩

/-- Rules by part are never taken for rules by path. -/
theorem asDict_rule_byPart {sets : ByPart RuleSet} (filled : sets.isEmpty = false) :
    ∃ f, asDict (Rule.decode true) (ofJson (sets.toJson RuleSet.toJson)) = .error f := by
  have ofDict (d : List (String × RuleSet)) :
      ∃ f, Rule.decode true (ofJson (.obj (Dict.mapValues RuleSet.toJson d))) = .error f := by
    apply Rule.decode_untagged
    intro e he _
    obtain ⟨⟨k, s⟩, _, rfl⟩ := List.mem_map.1 he
    rw [RuleSet.toJson_eq]
    rfl
  have ofSet (s : RuleSet) : ∃ f, Rule.decode true (ofJson s.toJson) = .error f := by
    rw [RuleSet.toJson_eq]
    exact Rule.decode_untagged (by simp)
  have fails {k : String} {v : Json} (rest : List (String × Json))
      (h : ∃ f, Rule.decode true (ofJson v) = .error f) :
      ∃ f, asDict (Rule.decode true) (ofJson (.obj ((k, v) :: rest))) = .error f := by
    obtain ⟨f, hf⟩ := h
    exact ⟨f, by rw [ofJson, ofMembers, asDict, eachMember, hf]⟩
  obtain ⟨body, header, query, path⟩ := sets
  -- The first part that is there fails.
  cases body with
  | cons => exact fails _ (ofDict _)
  | nil =>
    cases header with
    | cons => exact fails _ (ofDict _)
    | nil =>
      cases query with
      | cons => exact fails _ (ofDict _)
      | nil =>
        cases path with
        | some s => exact fails _ (ofSet s)
        | none => cases filled

/-- Rules in order are read back in the same shape. -/
theorem PartRules.decode_toJson {p : PartRules} (h : p.InOrder) :
    decode (ofJson p.toJson) = .ok p := by
  cases p with
  | flat rules =>
    have reads : asDict (Rule.decode true) (ofJson (PartRules.flat rules).toJson) = .ok rules :=
      asDict_ofJson h.1 fun e he => Rule.decode_toJson true (h.2 e he)
    refine decodeEither_first ?_
    rw [reads]
    rfl
  | byPart sets =>
    obtain ⟨filled, ordered, all⟩ := h
    obtain ⟨f, refused⟩ := asDict_rule_byPart filled
    have written (s : RuleSet) : s.toJson ≠ .null := by simp [RuleSet.toJson_eq]
    have reads : ByPart.decode true (RuleSet.decode true) (ofJson (sets.toJson RuleSet.toJson)) =
        .ok sets :=
      ByPart.decode_toJson true ordered written
        ⟨fun e he => RuleSet.decode_toJson true (all.body e he),
          fun e he => RuleSet.decode_toJson true (all.header e he),
          fun e he => RuleSet.decode_toJson true (all.query e he),
          fun s hs => RuleSet.decode_toJson true (all.path s hs)⟩
    refine decodeEither_second (f := f) ?_ ?_
    · show (asDict (Rule.decode true) (ofJson (sets.toJson RuleSet.toJson))).map PartRules.flat = _
      rw [refused]
      rfl
    · show (ByPart.decode true (RuleSet.decode true)
        (ofJson (sets.toJson RuleSet.toJson))).map PartRules.byPart = _
      rw [reads]
      rfl

/-! ### Requests and responses -/

theorem PartRules.toJson_ne_null (p : PartRules) : p.toJson ≠ .null := by
  cases p <;> simp [toJson, Rules.toJson, ByPart.toJson]

theorem Query.toJson_ne_null (q : Query) : q.toJson ≠ .null := by
  cases q <;> simp [toJson]

theorem asOptional_rules {rules : Option PartRules} (h : ∀ p, rules = some p → p.InOrder) :
    ∀ p, rules = some p → asOptional PartRules.decode (ofJson p.toJson) = .ok (some p) :=
  fun p hp => asOptional_ofJson p.toJson_ne_null (PartRules.decode_toJson (h p hp))

theorem asOptional_generators {generators : Option (ByPart Generator)}
    (h : ∀ g, generators = some g → g.InOrder) :
    ∀ g, generators = some g →
      asOptional decodeGenerators (ofJson (g.toJson Generator.toJson)) = .ok (some g) :=
  fun g hg => asOptional_ofJson (by simp [ByPart.toJson]) (decodeGenerators_toJson (h g hg))

theorem asDict_headers {headers : List (String × String)} (ordered : Dict.Ordered headers) :
    ∀ d, listed headers = some d → asDict asText (ofJson (textsJson d)) = .ok (id d) := by
  intro d hd
  rw [eq_of_listed hd]
  exact asDict_textsJson ordered

/-- A body is read back, and `null` as no body. -/
theorem asOptional_body {body : Option Json}
    (h : ∀ v, body = some v → v.Everywhere Json.InOrder) :
    ∀ v, body = some v → asOptional value (ofJson (id v)) = .ok v.kept :=
  fun v hv => asOptional_value (h v hv)

/-- A request is read back as it was, but for a body `null`. -/
theorem Request.decode_toJson {r : Request} (h : r.InOrder) :
    decode (ofJson r.toJson) = .ok r.reread := by
  have query : ∀ q, r.query = some q →
      asOptional Query.decode (ofJson q.toJson) = .ok (some q) := by
    intro q hq
    have ordered : ∀ values, q = .byName values → Dict.Ordered values := by
      rintro values rfl
      exact h.query values hq
    exact asOptional_ofJson q.toJson_ne_null (Query.decode_toJson ordered)
  rw [toJson, artifactMembers]
  simp only [listMember_eq, List.append_assoc]
  rw [← List.append_nil (optionalMember "generators" _ _), decode, asRecord_ofJson,
    fill_member (fun a p => { p with method := some a }) (by rfl) rfl (asText_ofJson r.method),
    fill_member (fun a p => { p with path := some a }) (by rfl) rfl (asText_ofJson r.path),
    fill_optional r.query some (fun a p => { p with query := a }) (by rfl) rfl rfl query,
    fill_optional (listed r.headers) id (fun a p => { p with headers := a }) (by rfl) rfl rfl
      (asDict_headers h.headers),
    fill_optional r.body Json.kept (fun a p => { p with body := a }) (by rfl) rfl rfl
      (asOptional_body h.body),
    fill_optional r.rules some (fun a p => { p with rules := a }) (by rfl) rfl rfl
      (asOptional_rules h.rules),
    fill_optional r.generators some (fun a p => { p with generators := a }) (by rfl) rfl rfl
      (asOptional_generators h.generators)]
  show Except.ok (⟨r.method, r.path, (r.query.map some).getD none,
    ((listed r.headers).map id).getD [], (r.body.map Json.kept).getD none,
    (r.rules.map some).getD none, (r.generators.map some).getD none⟩ : Request) = _
  rw [getD_map_some, getD_map_listed, getD_map, getD_map_some, getD_map_some]
  rfl

/-- A response is read back as it was, but for a body `null`. -/
theorem Response.decode_toJson {r : Response} (h : r.InOrder) :
    decode (ofJson r.toJson) = .ok r.reread := by
  rw [toJson, artifactMembers]
  simp only [listMember_eq, List.append_assoc]
  rw [← List.append_nil (optionalMember "generators" _ _), decode, asRecord_ofJson,
    fill_member (fun a p => { p with status := some a }) (by rfl) rfl (asUInt16_ofJson r.status),
    fill_optional (listed r.headers) id (fun a p => { p with headers := a }) (by rfl) rfl rfl
      (asDict_headers h.headers),
    fill_optional r.body Json.kept (fun a p => { p with body := a }) (by rfl) rfl rfl
      (asOptional_body h.body),
    fill_optional r.rules some (fun a p => { p with rules := a }) (by rfl) rfl rfl
      (asOptional_rules h.rules),
    fill_optional r.generators some (fun a p => { p with generators := a }) (by rfl) rfl rfl
      (asOptional_generators h.generators)]
  show Except.ok (⟨r.status, ((listed r.headers).map id).getD [],
    (r.body.map Json.kept).getD none, (r.rules.map some).getD none,
    (r.generators.map some).getD none⟩ : Response) = _
  rw [getD_map_listed, getD_map, getD_map_some, getD_map_some]
  rfl

/-! ### Contracts -/

theorem asList_listed {states : List ProviderState} (h : ∀ s ∈ states, s.InOrder) :
    ∀ l, listed states = some l →
      asList ProviderState.decode (ofJson (ProviderState.listJson l)) = .ok (id l) := by
  intro l hl
  rw [eq_of_listed hl]
  exact asList_states h

/-- An interaction is read back, with a body of `null` left out. -/
theorem Interaction.decode_toJson {i : Interaction} (h : i.InOrder) :
    decode (ofJson i.toJson) = .ok i.reread := by
  have state : ∀ s, i.state = some s → asOptional asText (ofJson (.str s)) = .ok (some s) :=
    fun s _ => rfl
  rw [toJson]
  simp only [listMember_eq, List.append_assoc]
  rw [decode, asRecord_ofJson,
    fill_member (fun a p => { p with description := some a }) (by rfl) rfl
      (asText_ofJson i.description),
    fill_optional i.state some (fun a p => { p with state := a }) (by rfl) rfl rfl state,
    fill_optional (listed i.states) id (fun a p => { p with states := a }) (by rfl) rfl rfl
      (asList_listed h.states),
    fill_member (fun a p => { p with request := some a }) (by rfl) rfl
      (Request.decode_toJson h.request),
    fill_member (fun a p => { p with response := some a }) (by rfl) rfl
      (Response.decode_toJson h.response)]
  show Except.ok (⟨i.description, (i.state.map some).getD none, ((listed i.states).map id).getD [],
    i.request.reread, i.response.reread⟩ : Interaction) = _
  rw [getD_map_some, getD_map_listed]
  rfl

/-- A message is read back. -/
theorem Message.decode_toJson {m : Message} (h : m.InOrder) : decode (ofJson m.toJson) = .ok m := by
  have metadata : ∀ d, listed m.metadata = some d → asDict value (ofJson (.obj d)) = .ok (id d) := by
    intro d hd
    rw [eq_of_listed hd]
    exact asDict_value h.metadata h.values
  rw [toJson, artifactMembers]
  simp only [listMember_eq, List.append_assoc]
  rw [← List.append_nil (optionalMember "metadata" _ _), decode, asRecord_ofJson,
    fill_member (fun a p => { p with description := some a }) (by rfl) rfl
      (asText_ofJson m.description),
    fill_optional (listed m.states) id (fun a p => { p with states := a }) (by rfl) rfl rfl
      (asList_listed h.states),
    fill_member (fun a p => { p with contents := some a }) (by rfl) rfl (value_ofJson h.contents),
    fill_optional m.rules some (fun a p => { p with rules := a }) (by rfl) rfl rfl
      (asOptional_rules h.rules),
    fill_optional m.generators some (fun a p => { p with generators := a }) (by rfl) rfl rfl
      (asOptional_generators h.generators),
    fill_optional (listed m.metadata) id (fun a p => { p with metadata := a }) (by rfl) rfl rfl
      metadata]
  show Except.ok (⟨m.description, ((listed m.states).map id).getD [], m.contents,
    (m.rules.map some).getD none, (m.generators.map some).getD none,
    ((listed m.metadata).map id).getD []⟩ : Message) = _
  rw [getD_map_listed, getD_map_some, getD_map_some, getD_map_listed]

theorem Metadata.decode_toJson (m : Metadata) : decode (ofJson m.toJson) = .ok m := by
  rw [toJson, decode, asRecord_ofJson,
    fill_member (fun a p => { p with format := some a }) (by rfl) rfl
      (decodeSingle_toJson "version" m.format),
    fill_member (fun a p => { p with library := some a }) (by rfl) rfl
      (decodeSingle_toJson "version" m.library)]
  rfl

theorem asList_interactions {interactions : List Interaction}
    (h : ∀ i ∈ interactions, i.InOrder) :
    asList Interaction.decode (ofJson (.arr (interactions.map Interaction.toJson))) =
      .ok (interactions.map Interaction.reread) := by
  have each : eachItem Interaction.decode (ofItems (interactions.map Interaction.toJson)) =
      .ok (interactions.map Interaction.reread) := by
    induction interactions with
    | nil => rfl
    | cons i rest ih =>
      rw [List.map_cons, ofItems, eachItem, Interaction.decode_toJson (h i (by simp)),
        ih fun j hj => h j (List.mem_cons_of_mem _ hj)]
      rfl
  rw [ofJson, asList, each]
  rfl

/-- A contract is read back as it was, but for bodies `null`. -/
theorem Contract.decode_toJson {c : Contract} (h : c.InOrder) :
    decode (ofJson c.toJson) = .ok c.reread := by
  have interactions : ∀ l, listed c.interactions = some l →
      asList Interaction.decode (ofJson (.arr (l.map Interaction.toJson))) =
        .ok (l.map Interaction.reread) := by
    intro l hl
    rw [eq_of_listed hl]
    exact asList_interactions h.interactions
  have messages : ∀ l, listed c.messages = some l →
      asList Message.decode (ofJson (.arr (l.map Message.toJson))) = .ok (id l) := by
    intro l hl
    rw [eq_of_listed hl]
    exact asList_ofJson fun m hm => Message.decode_toJson (h.messages m hm)
  rw [toJson]
  simp only [listMember_eq, List.append_assoc]
  rw [decode, asRecord_ofJson,
    fill_member (fun a p => { p with consumer := some a }) (by rfl) rfl
      (decodeSingle_toJson "name" c.consumer),
    fill_member (fun a p => { p with provider := some a }) (by rfl) rfl
      (decodeSingle_toJson "name" c.provider),
    fill_optional (listed c.interactions) (·.map Interaction.reread)
      (fun a p => { p with interactions := a }) (by rfl) rfl rfl interactions,
    fill_optional (listed c.messages) id (fun a p => { p with messages := a }) (by rfl) rfl rfl
      messages,
    fill_member (fun a p => { p with metadata := some a }) (by rfl) rfl
      (Metadata.decode_toJson c.metadata)]
  show Except.ok (⟨c.consumer, c.provider,
    ((listed c.interactions).map (·.map Interaction.reread)).getD [],
    ((listed c.messages).map id).getD [], c.metadata⟩ : Contract) = _
  have all : ((listed c.interactions).map (·.map Interaction.reread)).getD [] =
      c.interactions.map Interaction.reread := by
    cases c.interactions <;> rfl
  rw [all, getD_map_listed]
  rfl

end ConsumerContract
