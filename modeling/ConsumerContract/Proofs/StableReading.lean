import ConsumerContract.Proofs.ContractBounds
import ConsumerContract.Proofs.RoundTrip

/-!
# Reading what was read

A text may say more than its contract keeps: members that are passed over, lists and options that are empty,
keys in any order. What is read from it is written in full and in order, so it is read a second time as it
was read the first time, with one exception. Rules by part that hold no rule are written as the empty
object, which is read as rules by path: they *settle*. `rereads` says what is read the second time, and that
this is what was read the first time exactly if no part has such rules. From then on nothing changes.
-/

namespace ConsumerContract

open Json (Source Failure)
open Json.Source

/-! ### What settles -/

/-- The rules as they are read a second time. -/
def PartRules.settled : PartRules → PartRules
  | .flat rules => .flat rules
  | .byPart sets => if sets.isEmpty then .flat [] else .byPart sets

/-- The request as it is read a second time. -/
def Request.settled (r : Request) : Request :=
  { r with rules := r.rules.map PartRules.settled }

/-- The response as it is read a second time. -/
def Response.settled (r : Response) : Response :=
  { r with rules := r.rules.map PartRules.settled }

/-- The interaction as it is read a second time. -/
def Interaction.settled (i : Interaction) : Interaction :=
  { i with request := i.request.settled, response := i.response.settled }

/-- The message as it is read a second time. -/
def Message.settled (m : Message) : Message :=
  { m with rules := m.rules.map PartRules.settled }

/-- The contract as it is read a second time. -/
def Contract.settled (c : Contract) : Contract :=
  { c with
    interactions := c.interactions.map Interaction.settled
    messages := c.messages.map Message.settled }

/-- Rules change by settling exactly if they are by part and say nothing. -/
theorem PartRules.settled_eq_iff {p : PartRules} : p.settled = p ↔ p ≠ .byPart {} := by
  cases p with
  | flat rules => simp [settled]
  | byPart sets =>
    rw [settled]
    split
    next empty => simp [ByPart.eq_empty empty]
    next some =>
      refine iff_of_true rfl ?_
      rintro ⟨⟩
      exact some rfl

/-- Nothing is written of rules by part that hold no rule. -/
theorem PartRules.toJson_settled (p : PartRules) : p.settled.toJson = p.toJson := by
  cases p with
  | flat rules => rfl
  | byPart sets =>
    rw [settled]
    split
    next empty =>
      rw [ByPart.eq_empty empty]
      rfl
    next => rfl

theorem optionalMember_map {α β : Type} (key : String) (write : β → Json) (f : α → β) (o : Option α) :
    optionalMember key write (o.map f) = optionalMember key (fun a => write (f a)) o := by
  cases o <;> rfl

theorem artifactMembers_settled (rules : Option PartRules) (generators : Option (ByPart Generator)) :
    artifactMembers (rules.map PartRules.settled) generators = artifactMembers rules generators := by
  rw [artifactMembers, optionalMember_map]
  simp only [PartRules.toJson_settled]
  rfl

theorem Request.toJson_settled (r : Request) : r.settled.toJson = r.toJson := by
  rw [toJson, toJson, settled, artifactMembers_settled]

theorem Response.toJson_settled (r : Response) : r.settled.toJson = r.toJson := by
  rw [toJson, toJson, settled, artifactMembers_settled]

theorem Interaction.toJson_settled (i : Interaction) : i.settled.toJson = i.toJson := by
  rw [toJson, toJson, settled, Request.toJson_settled, Response.toJson_settled]

theorem Message.toJson_settled (m : Message) : m.settled.toJson = m.toJson := by
  rw [toJson, toJson, settled, artifactMembers_settled]

theorem listMember_map {α : Type} {write : α → Json} {f : α → α} (same : ∀ a, write (f a) = write a)
    (key : String) (as : List α) : listMember key (fun as => .arr (as.map write)) (as.map f) =
      listMember key (fun as => .arr (as.map write)) as := by
  cases as <;> simp [listMember, same]

/-- Settling changes nothing of how a contract is written. -/
theorem Contract.toJson_settled (c : Contract) : c.settled.toJson = c.toJson := by
  rw [toJson, toJson, settled]
  simp only [listMember_map Interaction.toJson_settled, listMember_map Message.toJson_settled]

/-! ### What changes -/

theorem option_map_eq_self_iff {α : Type} {f : α → α} {o : Option α} :
    o.map f = o ↔ ∀ a ∈ o, f a = a := by
  cases o <;> simp

theorem list_map_eq_self_iff {α : Type} {f : α → α} {as : List α} :
    as.map f = as ↔ ∀ a ∈ as, f a = a := by
  induction as with
  | nil => simp
  | cons a rest ih => simp [ih]

/-- Rules that may be missing change by settling exactly if they are by part and say nothing. -/
theorem settled_rules_eq_iff {rules : Option PartRules} :
    rules.map PartRules.settled = rules ↔ .byPart {} ∉ rules.toList := by
  rw [option_map_eq_self_iff]
  simp only [PartRules.settled_eq_iff, Option.mem_toList]
  exact ⟨fun all found => all _ found rfl, fun absent p hp same => absent (same ▸ hp)⟩

theorem Interaction.settled_eq_iff {i : Interaction} :
    i.settled = i ↔ .byPart {} ∉ i.request.rules.toList ++ i.response.rules.toList := by
  rw [List.mem_append, not_or, ← settled_rules_eq_iff, ← settled_rules_eq_iff]
  constructor
  · intro same
    exact ⟨congrArg (·.request.rules) same, congrArg (·.response.rules) same⟩
  · rintro ⟨request, response⟩
    rw [settled, Request.settled, Response.settled, request, response]

theorem Message.settled_eq_iff {m : Message} : m.settled = m ↔ .byPart {} ∉ m.rules.toList := by
  rw [← settled_rules_eq_iff]
  constructor
  · intro same
    exact congrArg Message.rules same
  · intro same
    rw [settled, same]

/-- A contract is as it will be read exactly if no part has rules by part that hold no rule. -/
theorem Contract.settled_eq_iff {c : Contract} : c.settled = c ↔ .byPart {} ∉ c.allRules := by
  have parts : c.settled = c ↔
      (∀ i ∈ c.interactions, i.settled = i) ∧ ∀ m ∈ c.messages, m.settled = m := by
    rw [← list_map_eq_self_iff, ← list_map_eq_self_iff]
    constructor
    · intro same
      exact ⟨congrArg (·.interactions) same, congrArg (·.messages) same⟩
    · rintro ⟨interactions, messages⟩
      rw [settled, interactions, messages]
  rw [parts, allRules, List.mem_append, not_or, List.mem_flatMap, List.mem_flatMap]
  simp only [Interaction.settled_eq_iff, Message.settled_eq_iff, not_exists, not_and]

/-! ### What is written -/

theorem fits_artifactMembers {n : Nat} {rules : Option PartRules} {generators : Option (ByPart Generator)}
    (h : IfAny PartRules.Sound n rules) (h' : IfAny GeneratorsSound n generators) :
    ∀ e ∈ artifactMembers rules generators, e.2.Fits n :=
  List.forall_mem_append.2 ⟨fits_optionalMember "matchingRules" fun p hp => (h p hp).fits,
    fits_optionalMember "generators" fun g hg => (h' g hg).fits⟩

theorem Request.Sound.fits {n : Nat} {r : Request} (h : r.Sound n) : r.toJson.Fits (n + 1) := by
  refine .obj (List.forall_mem_cons.2 ⟨.str _, List.forall_mem_cons.2 ⟨.str _, ?_⟩⟩)
  simp only [listMember_eq, List.forall_mem_append]
  exact ⟨⟨⟨fits_optionalMember "query" fun q hq => (h.query q hq).fits,
    fits_optionalMember "headers" fun d hd => (h.headers d hd).fits⟩,
    fits_optionalMember "body" fun v hv => (h.body v hv).1.fits⟩,
    fits_artifactMembers h.rules h.generators⟩

theorem Response.Sound.fits {n : Nat} {r : Response} (h : r.Sound n) : r.toJson.Fits (n + 1) := by
  have status : (Json.int r.status.toNat).Fits n := by
    have small := r.status.toNat_lt
    have room : (2 ^ 16 : Int) ≤ Json.Number.maxSignificand := by decide
    exact .num ⟨by omega, by omega⟩
  refine .obj (List.forall_mem_cons.2 ⟨status, ?_⟩)
  simp only [listMember_eq, List.forall_mem_append]
  exact ⟨⟨fits_optionalMember "headers" fun d hd => (h.headers d hd).fits,
    fits_optionalMember "body" fun v hv => (h.body v hv).1.fits⟩,
    fits_artifactMembers h.rules h.generators⟩

theorem fits_states {n : Nat} {states : List ProviderState}
    (h : IfAny (Inside (AllItems ProviderState.Sound)) n (listed states)) :
    ∀ e ∈ listMember "providerStates" ProviderState.listJson states, e.2.Fits n := by
  rw [listMember_eq]
  exact fits_optionalMember "providerStates" (fits_items_of_listed (fun _ _ state => state.fits) h)

theorem Interaction.Sound.fits {n : Nat} {i : Interaction} (h : i.Sound n) : i.toJson.Fits (n + 1) := by
  obtain ⟨m, rfl, request⟩ := h.request
  obtain ⟨_, same, response⟩ := h.response
  cases same
  refine .obj (List.forall_mem_cons.2 ⟨.str _, ?_⟩)
  simp only [List.forall_mem_append]
  exact ⟨⟨fits_optionalMember "providerState" fun s _ => .str s, fits_states h.states⟩,
    List.forall_mem_cons.2 ⟨request.fits, List.forall_mem_singleton.2 response.fits⟩⟩

theorem Message.Sound.fits {n : Nat} {m : Message} (h : m.Sound n) : m.toJson.Fits (n + 1) := by
  refine .obj (List.forall_mem_cons.2 ⟨.str _, ?_⟩)
  simp only [List.forall_mem_append, List.forall_mem_cons]
  refine ⟨fits_states h.states, h.contents.fits, fits_artifactMembers h.rules h.generators, ?_⟩
  rw [listMember_eq]
  refine fits_optionalMember "metadata" fun d some => ?_
  obtain ⟨k, rfl, entries⟩ := h.metadata d some
  exact .obj fun e he => (entries.values e he).fits

/-- Metadata takes two levels, so there is one for the names of the parties. -/
theorem Contract.Sound.fits {n : Nat} {c : Contract} (h : c.Sound n) : c.toJson.Fits (n + 1) := by
  have levels : 0 < n := by
    cases h.metadata
    exact Nat.succ_pos _
  refine .obj (List.forall_mem_cons.2 ⟨fits_singleJson levels _ _, List.forall_mem_cons.2
    ⟨fits_singleJson levels _ _, ?_⟩⟩)
  simp only [listMember_eq, List.forall_mem_append]
  refine ⟨⟨fits_optionalMember "interactions" ?interactions, fits_optionalMember "messages" ?messages⟩,
    List.forall_mem_singleton.2 h.metadata⟩
  case interactions =>
    refine fits_items_of_listed ?_ h.interactions
    rintro _ i ⟨m, rfl, sound⟩
    exact sound.fits
  case messages =>
    refine fits_items_of_listed ?_ h.messages
    rintro _ m ⟨k, rfl, sound⟩
    exact sound.fits

/-! ### Order -/

/-- Rules with their dictionaries in order are in order once settled. -/
theorem PartRules.Sorted.inOrder_settled {p : PartRules} (sorted : p.Sorted) : p.settled.InOrder := by
  cases p with
  | flat rules => exact sorted
  | byPart sets =>
    rw [settled]
    split
    next => exact ⟨Dict.ordered_nil, fun e he => absurd he List.not_mem_nil⟩
    next some => exact ⟨eq_false_of_ne_true some, sorted⟩

theorem inOrder_settled {n : Nat} {rules : Option PartRules} (h : IfAny PartRules.Sound n rules) :
    ∀ p, rules.map PartRules.settled = some p → p.InOrder := by
  intro p settled
  obtain ⟨q, hq, rfl⟩ := Option.map_eq_some_iff.1 settled
  exact (h q hq).sorted.inOrder_settled

theorem Request.Sound.inOrder {n : Nat} {r : Request} (h : r.Sound n) : r.settled.InOrder where
  query values some := (h.query _ some).ordered values rfl
  headers := ordered_headers h.headers
  body v some := (h.body v some).1.ordered
  rules := inOrder_settled h.rules
  generators g some := (h.generators g some).ordered

theorem Response.Sound.inOrder {n : Nat} {r : Response} (h : r.Sound n) : r.settled.InOrder where
  headers := ordered_headers h.headers
  body v some := (h.body v some).1.ordered
  rules := inOrder_settled h.rules
  generators g some := (h.generators g some).ordered

theorem states_inOrder {n : Nat} {states : List ProviderState}
    (h : IfAny (Inside (AllItems ProviderState.Sound)) n (listed states)) : ∀ s ∈ states, s.InOrder := by
  intro s hs
  obtain ⟨m, sound⟩ := exists_item_of_listed h hs
  exact sound.ordered

theorem Interaction.Sound.inOrder {n : Nat} {i : Interaction} (h : i.Sound n) : i.settled.InOrder := by
  obtain ⟨m, rfl, request⟩ := h.request
  obtain ⟨_, -, response⟩ := h.response
  exact ⟨states_inOrder h.states, request.inOrder, response.inOrder⟩

theorem Message.Sound.inOrder {n : Nat} {m : Message} (h : m.Sound n) : m.settled.InOrder where
  states := states_inOrder h.states
  contents := h.contents.ordered
  rules := inOrder_settled h.rules
  generators g some := (h.generators g some).ordered
  metadata := ordered_of_listed h.metadata
  values _ he := (exists_of_listed h.metadata he).elim fun _ sound => sound.ordered

/-- A contract that was read is in order once settled. -/
theorem Contract.Sound.inOrder {n : Nat} {c : Contract} (h : c.Sound n) : c.settled.InOrder := by
  constructor
  · intro _ found
    obtain ⟨i, hi, rfl⟩ := List.mem_map.1 found
    obtain ⟨_, m, -, sound⟩ := exists_item_of_listed h.interactions hi
    exact sound.inOrder
  · intro _ found
    obtain ⟨m, hm, rfl⟩ := List.mem_map.1 found
    obtain ⟨_, k, -, sound⟩ := exists_item_of_listed h.messages hm
    exact sound.inOrder

/-- No body that was read is `null`, so none is lost. -/
theorem Contract.Sound.reread_settled {n : Nat} {c : Contract} (h : c.Sound n) :
    c.settled.reread = c.settled := by
  rw [reread_eq_iff]
  intro _ found
  obtain ⟨i, hi, rfl⟩ := List.mem_map.1 found
  obtain ⟨_, m, -, sound⟩ := exists_item_of_listed h.interactions hi
  obtain ⟨_, -, request⟩ := sound.request
  obtain ⟨_, -, response⟩ := sound.response
  exact ⟨fun null => (request.body _ null).2 rfl, fun null => (response.body _ null).2 rfl⟩

/-! ### Reading twice -/

/-- From either layout of the text of `a` comes `b`, and `b` has the same document as `a`. -/
structure Rereads {α ε : Type} (read : String → Except ε α) (write : α → Json) (a b : α) : Prop where
  text : read (write a).compact = .ok b
  prettyText : read (write a).pretty = .ok b
  document : write b = write a

/-- A value whose document fits is read from its text as it is read from its document. -/
theorem rereads_of_fits {α : Type} {decode : Source → Except Failure α} {write : α → Json} {a b : α}
    (fits : (write a).Fits maxDepth) (same : write b = write a) (reads : decode (ofJson (write b)) = .ok b) :
    Rereads (Json.decodeText decode) write a b where
  text := by rw [Json.decodeText_compact decode fits.plain fits.depth_le, ← same, reads]
  prettyText := by rw [Json.decodeText_pretty decode fits.plain fits.depth_le, ← same, reads]
  document := same

/-- Rules that were read are read again as they settle. -/
theorem PartRules.rereads {text : String} (integers : PlainTokens (Json.Token.scan text.toList))
    {p : PartRules} (h : Json.decodeText decode text = .ok p) :
    Rereads (Json.decodeText decode) toJson p p.settled := by
  obtain ⟨s, fits, reads⟩ := exists_source integers h
  have sound := ensures_decode fits reads
  exact rereads_of_fits sound.fits p.toJson_settled (decode_toJson sound.sorted.inOrder_settled)

/-- A message that was read is read again as it settles. -/
theorem Message.rereads {text : String} (integers : PlainTokens (Json.Token.scan text.toList))
    {m : Message} (h : Json.decodeText decode text = .ok m) :
    Rereads (Json.decodeText decode) toJson m m.settled := by
  obtain ⟨s, fits, reads⟩ := exists_source integers h
  obtain ⟨n, levels, sound⟩ := ensures_decode fits reads
  exact rereads_of_fits (levels ▸ sound.fits) m.toJson_settled (decode_toJson sound.inOrder)

theorem Contract.read_eq_ok_iff {text : String} {c : Contract} :
    read text = .ok c ↔ Json.decodeText decode text = .ok c := by
  rw [read]
  cases Json.decodeText decode text <;> simp

/-- A contract that was read is read again as it settles. -/
theorem Contract.rereads {text : String} (integers : PlainTokens (Json.Token.scan text.toList))
    {c : Contract} (h : read text = .ok c) : Rereads read toJson c c.settled := by
  obtain ⟨s, fits, reads⟩ := exists_source integers (read_eq_ok_iff.1 h)
  obtain ⟨n, levels, sound⟩ := ensures_decode fits reads
  have back : decode (ofJson c.settled.toJson) = .ok c.settled := by
    rw [decode_toJson sound.inOrder, sound.reread_settled]
  have again := rereads_of_fits (levels ▸ sound.fits) c.toJson_settled back
  exact ⟨read_eq_ok_iff.2 again.text, read_eq_ok_iff.2 again.prettyText, again.document⟩

/-- What is read from a text whose numbers are integers, whatever else stands in it, is read from either layout
of its own text as it has settled: the same, and of the same shape in every part, exactly if no part has rules
by part that hold no rule. What has settled has the same text, so it stays as it is. -/
theorem reading_settles (text : String) (integers : PlainTokens (Json.Token.scan text.toList)) :
    (∀ p, Json.decodeText PartRules.decode text = .ok p →
        Rereads (Json.decodeText PartRules.decode) PartRules.toJson p p.settled ∧
          (p.settled = p ↔ p ≠ .byPart {})) ∧
      (∀ m, Json.decodeText Message.decode text = .ok m →
        Rereads (Json.decodeText Message.decode) Message.toJson m m.settled ∧
          (m.settled = m ↔ .byPart {} ∉ m.rules.toList)) ∧
      ∀ c, Contract.read text = .ok c →
        Rereads Contract.read Contract.toJson c c.settled ∧
          (c.settled = c ↔ .byPart {} ∉ c.allRules) :=
  ⟨fun _ h => ⟨PartRules.rereads integers h, PartRules.settled_eq_iff⟩,
    fun _ h => ⟨Message.rereads integers h, Message.settled_eq_iff⟩,
    fun _ h => ⟨Contract.rereads integers h, Contract.settled_eq_iff⟩⟩

/-! ### A loose text -/

namespace LooseText

/-- A document with members that are passed over or empty, in no order, and arrays in place of objects. The
rules of its response are by part, with an empty part. -/
def document : Json :=
  .obj [
    ("provider", .arr [.str "user-service"]),
    ("note", .arr [.null, .obj [("foo", .int 1)]]),
    ("messages", .arr []),
    ("interactions", .arr [.obj [
      ("providerState", .null),
      ("response", .arr [.int 200, .obj [], .null, .obj [("body", .obj [])]]),
      ("request", .obj [
        ("path", .str "/"),
        ("matchingRules", .obj [
          ("$.b", .arr [.str "regex", .str "x"]),
          ("$.a", .obj [("max", .null), ("match", .str "type")])]),
        ("method", .str "GET")]),
      ("description", .str "p")]]),
    ("metadata", .obj [
      ("pactDsl", singleJson "version" "0.1.0"),
      ("pactSpecification", singleJson "version" "3.0.0")]),
    ("consumer", singleJson "name" "web-app")]

/-- What is read of it. -/
def contract : Contract where
  consumer := "web-app"
  provider := "user-service"
  interactions := [{
    description := "p"
    request := { method := "GET", path := "/", rules := some (.flat [("$.a", .type none none), ("$.b", .regex "x")]) }
    response := { status := 200, rules := some (.byPart {}) } }]
  metadata := ⟨"3.0.0", "0.1.0"⟩

theorem document_plain : document.Everywhere Json.HasPlainNumber := by
  have status : (Json.Number.int 200).IsPlain := by decide
  have one : (Json.Number.int 1).IsPlain := by decide
  simp [document, singleJson, Json.int, Json.Everywhere, Json.EveryItem, Json.EveryMember,
    Json.HasPlainNumber, status, one]

theorem read_document : Contract.read document.pretty = .ok contract := by
  rw [Contract.read_eq_ok_iff, Json.decodeText_pretty _ document_plain (by decide)]
  rfl

theorem reading_settles_loose_text :
    PlainTokens (Json.Token.scan document.pretty.toList) ∧ Contract.read document.pretty = .ok contract ∧
      Contract.read contract.text = .ok contract.settled ∧ contract.settled ≠ contract ∧
      contract.settled.allRules = [.flat [("$.a", .type none none), ("$.b", .regex "x")], .flat []] := by
  have integers : PlainTokens (Json.Token.scan document.pretty.toList) := by
    rw [Json.scan_pretty document_plain]
    decide
  obtain ⟨-, -, contracts⟩ := reading_settles document.pretty integers
  obtain ⟨again, same⟩ := contracts contract read_document
  have empty : .byPart {} ∈ contract.allRules := by decide
  exact ⟨integers, read_document, again.text, fun unchanged => same.1 unchanged empty, rfl⟩

end LooseText

end ConsumerContract
