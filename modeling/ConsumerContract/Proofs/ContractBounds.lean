import ConsumerContract.Proofs.RuleBounds

/-!
# Contracts as they are read

The laws of the readers of requests, responses, messages and contracts, built from those of their parts. A
record that is read from `n + 1` levels is `Sound n`: each part that is written fits `n` levels, its
dictionaries are in order, and no body is `null`. Nothing is said of rules by part that hold no rule:
they can be read, but nothing is written of them.
-/

namespace ConsumerContract

open Json (Source Failure bind_eq_ok_iff)
open Json.Source

theorem ifAny_listed {α : Type} {p : Nat → List α → Prop} {n : Nat} {as : List α} (h : p n as) :
    IfAny p n (listed as) := by
  intro bs some
  rw [eq_of_listed some]
  exact h

/-- The document of a member that stands fits. -/
theorem fits_optionalMember {α : Type} {write : α → Json} {n : Nat} (key : String) {o : Option α}
    (h : ∀ a, o = some a → (write a).Fits n) : ∀ e ∈ optionalMember key write o, e.2.Fits n := by
  intro e he
  cases o with
  | none => cases he
  | some a =>
    rw [List.mem_singleton.1 he]
    exact h a rfl

/-! ### Parts -/

section

variable {α : Type} {p : Nat → α → Prop} {n : Nat} {b : ByPart α}

/-- What is read of each part. -/
structure ByPart.Sound (p : Nat → α → Prop) (n : Nat) (b : ByPart α) : Prop where
  body : IfAny (Inside (AllEntries p)) n (listed b.body)
  header : IfAny (Inside (AllEntries p)) n (listed b.header)
  query : IfAny (Inside (AllEntries p)) n (listed b.query)
  path : IfAny p n b.path

/-- The parts, those missing left empty. -/
def ByPart.Partial.filled (b : ByPart.Partial α) : ByPart α :=
  ⟨b.body.getD [], b.header.getD [], b.query.getD [], b.path.getD none⟩

/-- What is read part by part is sound if what is read of each value is. -/
theorem ByPart.ensures_decode {value : Source → Except Failure α} (h : Ensures value p) (held : Bool) :
    Ensures (decode held value) (Inside (Sound p)) := by
  intro n s b fits reads
  obtain ⟨fields, filled, same⟩ := bind_eq_ok_iff.1 reads
  cases same
  refine ensures_record (fun m fields => Sound p m (Partial.filled fields)) ?_ ?_ fits filled
  · exact fun m => ⟨ifAny_none _ m, ifAny_none _ m, ifAny_none _ m, ifAny_none _ m⟩
  · intro m
    refine List.forall_mem_cons.2 ⟨?body, List.forall_mem_cons.2 ⟨?header, List.forall_mem_cons.2
      ⟨?query, List.forall_mem_singleton.2 ?path⟩⟩⟩
    case body => exact keeps_slot h.dict fun _ _ given before => { before with body := ifAny_listed given }
    case header =>
      exact keeps_slot h.dict fun _ _ given before => { before with header := ifAny_listed given }
    case query => exact keeps_slot h.dict fun _ _ given before => { before with query := ifAny_listed given }
    case path => exact keeps_slot h.optional fun _ _ given before => { before with path := given }

/-- The entries of a dictionary that is written if it has any. -/
theorem ordered_of_listed {d : List (String × α)} (h : IfAny (Inside (AllEntries p)) n (listed d)) :
    Dict.Ordered d := by
  cases d with
  | nil => exact Dict.ordered_nil
  | cons e rest =>
    obtain ⟨m, -, entries⟩ := h _ rfl
    exact entries.ordered

theorem exists_of_listed {d : List (String × α)} (h : IfAny (Inside (AllEntries p)) n (listed d))
    {e : String × α} (he : e ∈ d) : ∃ m, p m e.2 := by
  cases d with
  | nil => cases he
  | cons f rest =>
    obtain ⟨m, -, entries⟩ := h _ rfl
    exact ⟨m, entries.values e he⟩

theorem fits_of_listed {write : α → Json} (step : ∀ m a, p m a → (write a).Fits m) {d : List (String × α)}
    (h : IfAny (Inside (AllEntries p)) n (listed d)) (as : List (String × α)) (some : listed d = some as) :
    (Json.obj (Dict.mapValues write as)).Fits n := by
  obtain ⟨m, rfl, entries⟩ := h as some
  exact Json.fits_mapValues fun e he => step m e.2 (entries.values e he)

/-- What is read part by part is in order. -/
theorem ByPart.Sound.inOrder (h : b.Sound p n) : b.InOrder :=
  ⟨ordered_of_listed h.body, ordered_of_listed h.header, ordered_of_listed h.query⟩

theorem ByPart.Sound.all (h : b.Sound p n) {q : α → Prop} (step : ∀ m a, p m a → q a) : b.All q where
  body e he := (exists_of_listed h.body he).elim fun m => step m e.2
  header e he := (exists_of_listed h.header he).elim fun m => step m e.2
  query e he := (exists_of_listed h.query he).elim fun m => step m e.2
  path a ha := step n a (h.path a ha)

/-- What was read part by part is written within one level more than its parts. -/
theorem ByPart.Sound.fits {write : α → Json} (h : b.Sound p n) (step : ∀ m a, p m a → (write a).Fits m) :
    (b.toJson write).Fits (n + 1) := by
  refine .obj ?_
  simp only [listMember_eq, List.forall_mem_append]
  exact ⟨⟨⟨fits_optionalMember "body" (fits_of_listed step h.body),
    fits_optionalMember "header" (fits_of_listed step h.header)⟩,
    fits_optionalMember "query" (fits_of_listed step h.query)⟩,
    fits_optionalMember "path" fun a ha => step n a (h.path a ha)⟩

end

/-- The document of the rules fits, and the dictionaries in them are in order. -/
structure PartRules.Sound (n : Nat) (p : PartRules) : Prop where
  fits : p.toJson.Fits n
  sorted : p.Sorted

/-- Rules that are read are sound, in either shape. -/
theorem PartRules.ensures_decode : Ensures decode Sound := by
  apply ensures_either
  · refine (Rule.ensures_decode true).dict.map ?_
    rintro _ rules ⟨m, rfl, entries⟩
    exact ⟨Json.fits_mapValues fun e he => (entries.values e he).fits, entries.ordered,
      fun e he => (entries.values e he).ordered⟩
  · refine (ByPart.ensures_decode (RuleSet.ensures_decode true) true).map ?_
    rintro _ sets ⟨m, rfl, sound⟩
    exact ⟨sound.fits fun _ _ set => set.fits, sound.inOrder, sound.all fun _ _ set => set.ordered⟩

/-- The document of the generators fits, and they are in order. -/
structure GeneratorsSound (n : Nat) (g : ByPart Generator) : Prop where
  fits : (g.toJson Generator.toJson).Fits n
  ordered : g.InOrder

theorem ensures_decodeGenerators : Ensures decodeGenerators GeneratorsSound := by
  intro n s g fits reads
  obtain ⟨m, rfl, sound⟩ := ByPart.ensures_decode (Generator.ensures_decode false) false fits reads
  exact ⟨sound.fits fun _ _ made => made, sound.inOrder⟩

/-! ### Requests and responses -/

/-- The document of the query fits, and its names are in order. -/
structure Query.Sound (n : Nat) (q : Query) : Prop where
  fits : q.toJson.Fits n
  ordered : ∀ values, q = .byName values → Dict.Ordered values

theorem Query.ensures_decode : Ensures decode Sound := by
  apply ensures_either
  · exact ensures_true.map fun _ s _ => ⟨.str s, fun _ same => nomatch same⟩
  · have texts : Ensures asText fun _ _ => True := ensures_true
    refine texts.list.dict.map ?_
    rintro _ values ⟨m, rfl, entries⟩
    refine ⟨Json.fits_mapValues fun e he => ?_, ?_⟩
    · obtain ⟨k, rfl, -⟩ := entries.values e he
      exact Json.fits_map fun s _ => .str s
    · rintro _ ⟨⟩
      exact entries.ordered

/-- The headers are in order; one level holds them. -/
structure HeadersSound (n : Nat) (d : List (String × String)) : Prop where
  fits : (textsJson d).Fits n
  ordered : Dict.Ordered d

theorem ensures_headers : Ensures (asDict asText) HeadersSound := by
  intro n s d fits reads
  have texts : Ensures asText fun _ _ => True := ensures_true
  obtain ⟨m, rfl, entries⟩ := texts.dict fits reads
  exact ⟨Json.fits_mapValues fun e _ => .str e.2, entries.ordered⟩

theorem ordered_headers {n : Nat} {d : List (String × String)} (h : IfAny HeadersSound n (listed d)) :
    Dict.Ordered d := by
  cases d with
  | nil => exact Dict.ordered_nil
  | cons e rest => exact (h _ rfl).ordered

/-- What is read of each part of a request. -/
structure Request.Sound (n : Nat) (r : Request) : Prop where
  query : IfAny Query.Sound n r.query
  headers : IfAny HeadersSound n (listed r.headers)
  body : IfAny (fun n v => v.Sound n ∧ v ≠ .null) n r.body
  rules : IfAny PartRules.Sound n r.rules
  generators : IfAny GeneratorsSound n r.generators

/-- The request, parts that are missing left empty. -/
def Request.Partial.filled (p : Request.Partial) : Request :=
  ⟨p.method.getD "", p.path.getD "", p.query.getD none, p.headers.getD [], p.body.getD none,
    p.rules.getD none, p.generators.getD none⟩

/-- A request that is read is sound, one level further in. -/
theorem Request.ensures_decode : Ensures decode (Inside Sound) := by
  intro n s r fits reads
  obtain ⟨p, filled, reads⟩ := bind_eq_ok_iff.1 reads
  obtain ⟨method, -, reads⟩ := bind_eq_ok_iff.1 reads
  obtain ⟨path, -, same⟩ := bind_eq_ok_iff.1 reads
  cases same
  have kept : Inside (fun m p => Sound m (Partial.filled p)) n p := by
    refine ensures_record _ (fun m => ?_) (fun m => ?_) fits filled
    · exact ⟨ifAny_none _ m, ifAny_none _ m, ifAny_none _ m, ifAny_none _ m, ifAny_none _ m⟩
    · refine List.forall_mem_cons.2 ⟨?method, List.forall_mem_cons.2 ⟨?path, List.forall_mem_cons.2
        ⟨?query, List.forall_mem_cons.2 ⟨?headers, List.forall_mem_cons.2 ⟨?body, List.forall_mem_cons.2
        ⟨?rules, List.forall_mem_singleton.2 ?generators⟩⟩⟩⟩⟩⟩
      case method => exact keeps_slot ensures_true fun _ _ _ before => { before with }
      case path => exact keeps_slot ensures_true fun _ _ _ before => { before with }
      case query =>
        exact keeps_slot Query.ensures_decode.optional fun _ _ given before => { before with query := given }
      case headers =>
        exact keeps_slot ensures_headers fun _ _ given before =>
          { before with headers := ifAny_listed given }
      case body => exact keeps_slot ensures_body fun _ _ given before => { before with body := given }
      case rules =>
        exact keeps_slot PartRules.ensures_decode.optional fun _ _ given before =>
          { before with rules := given }
      case generators =>
        exact keeps_slot ensures_decodeGenerators.optional fun _ _ given before =>
          { before with generators := given }
  exact kept.imp fun _ sound => { sound with }

/-- What is read of each part of a response. -/
structure Response.Sound (n : Nat) (r : Response) : Prop where
  headers : IfAny HeadersSound n (listed r.headers)
  body : IfAny (fun n v => v.Sound n ∧ v ≠ .null) n r.body
  rules : IfAny PartRules.Sound n r.rules
  generators : IfAny GeneratorsSound n r.generators

/-- The response, parts that are missing left empty. -/
def Response.Partial.filled (p : Response.Partial) : Response :=
  ⟨p.status.getD 0, p.headers.getD [], p.body.getD none, p.rules.getD none, p.generators.getD none⟩

theorem Response.ensures_decode : Ensures decode (Inside Sound) := by
  intro n s r fits reads
  obtain ⟨p, filled, reads⟩ := bind_eq_ok_iff.1 reads
  obtain ⟨status, -, same⟩ := bind_eq_ok_iff.1 reads
  cases same
  have kept : Inside (fun m p => Sound m (Partial.filled p)) n p := by
    refine ensures_record _ (fun m => ?_) (fun m => ?_) fits filled
    · exact ⟨ifAny_none _ m, ifAny_none _ m, ifAny_none _ m, ifAny_none _ m⟩
    · refine List.forall_mem_cons.2 ⟨?status, List.forall_mem_cons.2 ⟨?headers, List.forall_mem_cons.2
        ⟨?body, List.forall_mem_cons.2 ⟨?rules, List.forall_mem_singleton.2 ?generators⟩⟩⟩⟩
      case status => exact keeps_slot ensures_true fun _ _ _ before => { before with }
      case headers =>
        exact keeps_slot ensures_headers fun _ _ given before =>
          { before with headers := ifAny_listed given }
      case body => exact keeps_slot ensures_body fun _ _ given before => { before with body := given }
      case rules =>
        exact keeps_slot PartRules.ensures_decode.optional fun _ _ given before =>
          { before with rules := given }
      case generators =>
        exact keeps_slot ensures_decodeGenerators.optional fun _ _ given before =>
          { before with generators := given }
  exact kept.imp fun _ sound => { sound with }

/-! ### States -/

/-- The document of the state fits, and its parameters are in order. -/
structure ProviderState.Sound (n : Nat) (s : ProviderState) : Prop where
  fits : s.toJson.Fits n
  ordered : s.InOrder

/-- What is read of the parameters of a state. -/
structure ProviderState.Partial.Sound (n : Nat) (p : ProviderState.Partial) : Prop where
  params : IfAny (Inside (AllEntries Json.Sound)) n (listed (p.params.getD []))

theorem ProviderState.ensures_decode : Ensures decode Sound := by
  intro n s state fits reads
  obtain ⟨p, filled, reads⟩ := bind_eq_ok_iff.1 reads
  obtain ⟨name, -, same⟩ := bind_eq_ok_iff.1 reads
  cases same
  have kept : Inside Partial.Sound n p := by
    refine ensures_record _ (fun m => ⟨ifAny_none _ m⟩) (fun m => ?_) fits filled
    refine List.forall_mem_cons.2 ⟨keeps_slot ensures_true fun _ _ _ before => { before with }, ?_⟩
    exact List.forall_mem_singleton.2 (keeps_slot ensures_value.dict fun _ _ given _ => ⟨ifAny_listed given⟩)
  obtain ⟨m, rfl, ⟨params⟩⟩ := kept
  constructor
  · refine .obj (List.forall_mem_cons.2 ⟨.str name, ?_⟩)
    rw [listMember_eq]
    refine fits_optionalMember "params" fun d some => ?_
    obtain ⟨k, rfl, entries⟩ := params d some
    exact .obj fun e he => (entries.values e he).fits
  · refine ⟨ordered_of_listed params, fun e he => ?_⟩
    obtain ⟨k, sound⟩ := exists_of_listed params he
    exact sound.ordered

/-- What is read of a list that is written if it has any items. -/
theorem exists_item_of_listed {α : Type} {p : Nat → α → Prop} {n : Nat} {as : List α}
    (h : IfAny (Inside (AllItems p)) n (listed as)) {a : α} (ha : a ∈ as) : ∃ m, p m a := by
  cases as with
  | nil => cases ha
  | cons b rest =>
    obtain ⟨m, -, items⟩ := h _ rfl
    exact ⟨m, items a ha⟩

theorem fits_items_of_listed {α : Type} {p : Nat → α → Prop} {write : α → Json}
    (step : ∀ m a, p m a → (write a).Fits m) {n : Nat} {as : List α}
    (h : IfAny (Inside (AllItems p)) n (listed as)) (bs : List α) (some : listed as = some bs) :
    (Json.arr (bs.map write)).Fits n := by
  obtain ⟨m, rfl, items⟩ := h bs some
  exact Json.fits_map fun a ha => step m a (items a ha)

/-! ### Interactions and messages -/

/-- What is read of the fields of an interaction. -/
structure Interaction.Partial.Sound (n : Nat) (p : Interaction.Partial) : Prop where
  states : IfAny (Inside (AllItems ProviderState.Sound)) n (listed (p.states.getD []))
  request : IfAny (Inside Request.Sound) n p.request
  response : IfAny (Inside Response.Sound) n p.response

/-- What is read of each part of an interaction. -/
structure Interaction.Sound (n : Nat) (i : Interaction) : Prop where
  states : IfAny (Inside (AllItems ProviderState.Sound)) n (listed i.states)
  request : Inside Request.Sound n i.request
  response : Inside Response.Sound n i.response

/-- An interaction that is read is sound, one level further in. -/
theorem Interaction.ensures_decode : Ensures decode (Inside Sound) := by
  intro n s i fits reads
  obtain ⟨p, filled, reads⟩ := bind_eq_ok_iff.1 reads
  obtain ⟨description, -, reads⟩ := bind_eq_ok_iff.1 reads
  obtain ⟨request, asked, reads⟩ := bind_eq_ok_iff.1 reads
  obtain ⟨response, answered, same⟩ := bind_eq_ok_iff.1 reads
  cases same
  have kept : Inside Partial.Sound n p := by
    refine ensures_record _ (fun m => ?_) (fun m => ?_) fits filled
    · exact ⟨ifAny_none _ m, ifAny_none _ m, ifAny_none _ m⟩
    · refine List.forall_mem_cons.2 ⟨?description, List.forall_mem_cons.2 ⟨?state,
        List.forall_mem_cons.2 ⟨?states, List.forall_mem_cons.2 ⟨?request,
        List.forall_mem_singleton.2 ?response⟩⟩⟩⟩
      case description => exact keeps_slot ensures_true fun _ _ _ before => { before with }
      case state => exact keeps_slot ensures_true fun _ _ _ before => { before with }
      case states =>
        exact keeps_slot ProviderState.ensures_decode.list fun _ _ given before =>
          { before with states := ifAny_listed given }
      case request =>
        exact keeps_slot Request.ensures_decode fun _ _ given before =>
          { before with request := ifAny_some given }
      case response =>
        exact keeps_slot Response.ensures_decode fun _ _ given before =>
          { before with response := ifAny_some given }
  exact kept.imp fun _ sound => ⟨sound.states, sound.request request (required_eq_ok_iff.1 asked),
    sound.response response (required_eq_ok_iff.1 answered)⟩

/-- What is read of each part of a message. -/
structure Message.Sound (n : Nat) (m : Message) : Prop where
  states : IfAny (Inside (AllItems ProviderState.Sound)) n (listed m.states)
  contents : m.contents.Sound n
  rules : IfAny PartRules.Sound n m.rules
  generators : IfAny GeneratorsSound n m.generators
  metadata : IfAny (Inside (AllEntries Json.Sound)) n (listed m.metadata)

/-- The message, parts that are missing left empty. -/
def Message.Partial.filled (p : Message.Partial) : Message :=
  ⟨p.description.getD "", p.states.getD [], p.contents.getD .null, p.rules.getD none,
    p.generators.getD none, p.metadata.getD []⟩

theorem Message.ensures_decode : Ensures decode (Inside Sound) := by
  intro n s m fits reads
  obtain ⟨p, filled, reads⟩ := bind_eq_ok_iff.1 reads
  obtain ⟨description, -, reads⟩ := bind_eq_ok_iff.1 reads
  obtain ⟨contents, given, same⟩ := bind_eq_ok_iff.1 reads
  cases same
  have kept : Inside (fun m p => Sound m (Partial.filled p)) n p := by
    refine ensures_record _ (fun m => ?_) (fun m => ?_) fits filled
    · exact ⟨ifAny_none _ m, ⟨.null, trivial⟩, ifAny_none _ m, ifAny_none _ m, ifAny_none _ m⟩
    · refine List.forall_mem_cons.2 ⟨?description, List.forall_mem_cons.2 ⟨?states,
        List.forall_mem_cons.2 ⟨?contents, List.forall_mem_cons.2 ⟨?rules, List.forall_mem_cons.2
        ⟨?generators, List.forall_mem_singleton.2 ?metadata⟩⟩⟩⟩⟩
      case description => exact keeps_slot ensures_true fun _ _ _ before => { before with }
      case states =>
        exact keeps_slot ProviderState.ensures_decode.list fun _ _ given before =>
          { before with states := ifAny_listed given }
      case contents => exact keeps_slot ensures_value fun _ _ given before => { before with contents := given }
      case rules =>
        exact keeps_slot PartRules.ensures_decode.optional fun _ _ given before =>
          { before with rules := given }
      case generators =>
        exact keeps_slot ensures_decodeGenerators.optional fun _ _ given before =>
          { before with generators := given }
      case metadata =>
        exact keeps_slot ensures_value.dict fun _ _ given before =>
          { before with metadata := ifAny_listed given }
  have same : p.contents.getD .null = contents := by rw [required_eq_ok_iff.1 given]; rfl
  exact kept.imp fun _ sound => { sound with contents := same ▸ sound.contents }

/-! ### Contracts -/

/-- The document of the metadata fits. -/
def Metadata.Sound (n : Nat) (m : Metadata) : Prop :=
  m.toJson.Fits n

theorem fits_singleJson {n : Nat} (levels : 0 < n) (key text : String) : (singleJson key text).Fits n := by
  obtain ⟨m, rfl⟩ := Nat.exists_eq_add_one.2 levels
  exact .obj (List.forall_mem_singleton.2 (.str text))

theorem ensures_decodeSingle (key : String) : Ensures (decodeSingle key) fun n _ => 0 < n := by
  intro n s text fits reads
  have texts : Ensures asText fun _ _ => True := ensures_true
  obtain ⟨m, rfl, -⟩ := texts.single false key fits reads
  exact Nat.succ_pos m

/-- What is read of the versions in metadata. -/
structure Metadata.Partial.Sound (n : Nat) (p : Metadata.Partial) : Prop where
  format : IfAny (fun n _ => 0 < n) n p.format

theorem Metadata.ensures_decode : Ensures decode Sound := by
  intro n s m fits reads
  obtain ⟨p, filled, reads⟩ := bind_eq_ok_iff.1 reads
  obtain ⟨format, given, reads⟩ := bind_eq_ok_iff.1 reads
  obtain ⟨library, -, same⟩ := bind_eq_ok_iff.1 reads
  cases same
  have kept : Inside Partial.Sound n p := by
    refine ensures_record _ (fun m => ⟨ifAny_none _ m⟩) (fun m => ?_) fits filled
    refine List.forall_mem_cons.2 ⟨keeps_slot (ensures_decodeSingle "version") fun _ _ levels _ =>
      ⟨ifAny_some levels⟩, ?_⟩
    exact List.forall_mem_singleton.2 (keeps_slot ensures_true fun _ _ _ before => { before with })
  obtain ⟨k, rfl, sound⟩ := kept
  have levels : 0 < k := sound.format format (required_eq_ok_iff.1 given)
  exact .obj (List.forall_mem_cons.2 ⟨fits_singleJson levels "version" format,
    List.forall_mem_singleton.2 (fits_singleJson levels "version" library)⟩)

/-- What is read of the fields of a contract. -/
structure Contract.Partial.Sound (n : Nat) (p : Contract.Partial) : Prop where
  interactions : IfAny (Inside (AllItems (Inside Interaction.Sound))) n (listed (p.interactions.getD []))
  messages : IfAny (Inside (AllItems (Inside Message.Sound))) n (listed (p.messages.getD []))
  metadata : IfAny Metadata.Sound n p.metadata

/-- What is read of each part of a contract. -/
structure Contract.Sound (n : Nat) (c : Contract) : Prop where
  interactions : IfAny (Inside (AllItems (Inside Interaction.Sound))) n (listed c.interactions)
  messages : IfAny (Inside (AllItems (Inside Message.Sound))) n (listed c.messages)
  metadata : c.metadata.Sound n

/-- A contract that is read is sound, one level further in. -/
theorem Contract.ensures_decode : Ensures decode (Inside Sound) := by
  intro n s c fits reads
  obtain ⟨p, filled, reads⟩ := bind_eq_ok_iff.1 reads
  obtain ⟨consumer, -, reads⟩ := bind_eq_ok_iff.1 reads
  obtain ⟨provider, -, reads⟩ := bind_eq_ok_iff.1 reads
  obtain ⟨metadata, given, same⟩ := bind_eq_ok_iff.1 reads
  cases same
  have kept : Inside Partial.Sound n p := by
    refine ensures_record _ (fun m => ?_) (fun m => ?_) fits filled
    · exact ⟨ifAny_none _ m, ifAny_none _ m, ifAny_none _ m⟩
    · refine List.forall_mem_cons.2 ⟨?consumer, List.forall_mem_cons.2 ⟨?provider,
        List.forall_mem_cons.2 ⟨?interactions, List.forall_mem_cons.2 ⟨?messages,
        List.forall_mem_singleton.2 ?metadata⟩⟩⟩⟩
      case consumer => exact keeps_slot ensures_true fun _ _ _ before => { before with }
      case provider => exact keeps_slot ensures_true fun _ _ _ before => { before with }
      case interactions =>
        exact keeps_slot Interaction.ensures_decode.list fun _ _ given before =>
          { before with interactions := ifAny_listed given }
      case messages =>
        exact keeps_slot Message.ensures_decode.list fun _ _ given before =>
          { before with messages := ifAny_listed given }
      case metadata =>
        exact keeps_slot Metadata.ensures_decode fun _ _ given before =>
          { before with metadata := ifAny_some given }
  exact kept.imp fun _ sound => ⟨sound.interactions, sound.messages,
    sound.metadata metadata (required_eq_ok_iff.1 given)⟩

end ConsumerContract
