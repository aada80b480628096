import ConsumerContract.Proofs.Agreement

/-!
# The header of the content type

Headers and bodies are given by calls, one after the other. A body adds a header that names its content type
unless there is one by then, and that header stays: of the headers that name a content type each has the value
that it was given last, and the added one, which no call gives, the content type of the first body
(`PayloadCall.get?_run`). Nothing tells an added header from a given one, so it stays when a header in another
case is given after the body, and when another body takes the place of the first. In all other cases the
headers tell what the calls say: `PayloadCall.tellsTypes_iff`, and for what is recorded
`Recorder.addInteraction_tellsTypes`.
-/

namespace ConsumerContract

open PayloadDraft (isContentType contentTypeName)

/-! ### Calls -/

/-- A call on a request or response in the making. -/
inductive PayloadCall where
  | header (name : String) (value : Template)
  | jsonBody (template : Template)
  | rawBody (contentType : String) (bytes : ByteArray)

namespace PayloadCall

/-- Does what the call asks for. -/
def perform (p : PayloadDraft) : PayloadCall → Noted PayloadDraft
  | .header name value => pure (p.header name value)
  | .jsonBody template => pure (p.setBody (.json template))
  | .rawBody contentType bytes => do
    let body ← BodyDraft.ofBytes contentType bytes
    pure (p.setBody body)

/-- Performs calls one after the other. -/
def run (p : PayloadDraft) : List PayloadCall → Noted PayloadDraft
  | [] => pure p
  | call :: rest => do
    let p ← call.perform p
    run p rest

/-- The body that the call gives. -/
def body? : PayloadCall → Option BodyDraft
  | .header .. => none
  | .jsonBody template => some (.json template)
  | .rawBody contentType bytes => some (.raw contentType bytes)

/-- The value that the call gives to the header of exactly this name. -/
def value? (name : String) : PayloadCall → Option Template
  | .header other value => if other = name then some value else none
  | _ => none

/-- The call gives a header that names the content type. -/
def givesType : PayloadCall → Bool
  | .header name _ => isContentType name
  | _ => false

/-- The value that the header of exactly this name is given last. -/
def lastValue? (name : String) (calls : List PayloadCall) : Option Template :=
  calls.reverse.findSome? (value? name)

/-- The body that is given last. -/
def lastBody? (calls : List PayloadCall) : Option BodyDraft :=
  calls.reverse.findSome? body?

/-- The body for which a header is added: the first one, if no header before it names a content type. -/
def addingBody? : List PayloadCall → Option BodyDraft
  | [] => none
  | call :: rest => if call.givesType then none else call.body?.or (addingBody? rest)

/-- Later calls decide the last value of a header, and the first one only if none of them does. -/
theorem lastValue?_cons (name : String) (call : PayloadCall) (rest : List PayloadCall) :
    lastValue? name (call :: rest) = (lastValue? name rest).or (call.value? name) := by
  rw [lastValue?, List.reverse_cons, List.findSome?_append, List.findSome?_singleton]
  rfl

/-- A header has a last value exactly if some call gives it one. -/
theorem lastValue?_eq_none_iff {name : String} {calls : List PayloadCall} :
    lastValue? name calls = none ↔ ∀ value, .header name value ∉ calls := by
  simp only [lastValue?, List.findSome?_eq_none_iff, List.mem_reverse]
  constructor
  · intro none value mem
    exact absurd (none _ mem) (by simp [value?])
  · intro absent call mem
    cases call with
    | header other value =>
      refine if_neg fun same => ?_
      subst same
      exact absent value mem
    | jsonBody | rawBody => rfl

/-- A call that gives a content type gives no body. -/
theorem body?_eq_none_of_givesType {call : PayloadCall} (h : call.givesType = true) : call.body? = none := by
  cases call with
  | header => rfl
  | jsonBody | rawBody => cases h

/-- Where no header that names a content type is given, one is added for the first body. -/
theorem addingBody?_eq_findSome? {calls : List PayloadCall}
    (absent : ∀ call ∈ calls, call.givesType = false) : addingBody? calls = calls.findSome? body? := by
  induction calls with
  | nil => rfl
  | cons call rest ih =>
    obtain ⟨here, others⟩ := List.forall_mem_cons.1 absent
    rw [addingBody?, here, ih others, List.findSome?_cons]
    cases call.body? <;> rfl

end PayloadCall

/-! ### Runs -/

/-- Some header of the draft names the content type. -/
def PayloadDraft.NamesType (p : PayloadDraft) : Prop :=
  ∃ name, isContentType name = true ∧ Dict.has name p.headers = true

namespace PayloadDraft

variable {p : PayloadDraft}

theorem isContentType_contentTypeName : isContentType contentTypeName = true := by
  decide

theorem not_namesType_empty : ¬ NamesType {} := by
  rintro ⟨name, _, has⟩
  cases has

theorem any_isContentType_iff : p.headers.any (fun h => isContentType h.1) = true ↔ p.NamesType := by
  rw [List.any_eq_true]
  constructor
  · rintro ⟨e, mem, type⟩
    exact ⟨e.1, type, Dict.has_of_mem mem⟩
  · rintro ⟨name, type, has⟩
    obtain ⟨value, found⟩ := Dict.has_iff.1 has
    exact ⟨(name, value), Dict.mem_of_get? found, type⟩

theorem get?_of_not_namesType (h : ¬ p.NamesType) {name : String} (type : isContentType name = true) :
    Dict.get? name p.headers = none :=
  Option.not_isSome_iff_eq_none.1 fun has => h ⟨name, type, has⟩

/-- A body leaves the headers as they are, if they name a type. -/
theorem headers_setBody_of_namesType (h : p.NamesType) (body : BodyDraft) :
    (p.setBody body).headers = p.headers := by
  rw [setBody, if_pos (any_isContentType_iff.2 h)]

/-- A body adds its type to headers that name none. -/
theorem headers_setBody_of_not_namesType (h : ¬ p.NamesType) (body : BodyDraft) :
    (p.setBody body).headers = Dict.insert contentTypeName (.ofString body.contentType) p.headers := by
  rw [setBody, if_neg (mt any_isContentType_iff.1 h)]
  rfl

/-- A header makes a payload name a type if it is one that does, or if another one was there. -/
theorem namesType_header_iff {name : String} {value : Template} :
    (p.header name value).NamesType ↔ isContentType name = true ∨ p.NamesType := by
  simp only [NamesType, header, Dict.has_insert, Bool.or_eq_true, decide_eq_true_eq]
  constructor
  · rintro ⟨other, type, rfl | has⟩
    · exact .inl type
    · exact .inr ⟨other, type, has⟩
  · rintro (type | ⟨other, type, has⟩)
    · exact ⟨name, type, .inl rfl⟩
    · exact ⟨other, type, .inr has⟩

/-- After a body, headers name a type. -/
theorem namesType_setBody (p : PayloadDraft) (body : BodyDraft) : (p.setBody body).NamesType := by
  by_cases named : p.NamesType
  · rw [NamesType, headers_setBody_of_namesType named]
    exact named
  · rw [NamesType, headers_setBody_of_not_namesType named]
    exact ⟨contentTypeName, isContentType_contentTypeName, by rw [Dict.has_insert]; simp⟩

end PayloadDraft

namespace PayloadCall

theorem value_perform_of_body? {call : PayloadCall} {body : BodyDraft} (h : call.body? = some body)
    (p : PayloadDraft) : (call.perform p).value = p.setBody body := by
  cases call with
  | header => cases h
  | jsonBody | rawBody => cases h; rfl

theorem value?_of_body? {call : PayloadCall} {body : BodyDraft} (h : call.body? = some body)
    (name : String) : call.value? name = none := by
  cases call with
  | header => cases h
  | jsonBody | rawBody => rfl

theorem exists_header_of_body?_eq_none {call : PayloadCall} (h : call.body? = none) :
    ∃ name value, call = .header name value := by
  cases call with
  | header name value => exact ⟨name, value, rfl⟩
  | jsonBody | rawBody => cases h

/-- Once some header names the content type, only calls that give a header do anything to the headers. -/
theorem get?_run_of_namesType {p : PayloadDraft} (named : p.NamesType) (calls : List PayloadCall)
    (name : String) :
    Dict.get? name (run p calls).value.headers = (lastValue? name calls).or (Dict.get? name p.headers) := by
  induction calls generalizing p with
  | nil => rfl
  | cons call rest ih =>
    rw [lastValue?_cons, Option.or_assoc, run, Noted.value_bind]
    cases given : call.body? with
    | some body =>
      rw [value_perform_of_body? given, ih (p.namesType_setBody body),
        PayloadDraft.headers_setBody_of_namesType named, value?_of_body? given, Option.none_or]
    | none =>
      obtain ⟨other, value, rfl⟩ := exists_header_of_body?_eq_none given
      refine (ih (PayloadDraft.namesType_header_iff.2 (.inr named))).trans ?_
      rw [PayloadDraft.header, Dict.get?_insert, value?]
      simp only [eq_comm (a := name)]
      split <;> rfl

/-- Of the headers that name the content type each has the value that it is given last; the one that is added
has the content type of the body for which it is added, unless a call gives it a value. -/
theorem get?_run {p : PayloadDraft} (unnamed : ¬ p.NamesType) (calls : List PayloadCall) {name : String}
    (type : isContentType name = true) :
    Dict.get? name (run p calls).value.headers =
      (lastValue? name calls).or
        (if name = contentTypeName then
          (addingBody? calls).map fun body => .ofString body.contentType
        else none) := by
  induction calls generalizing p with
  | nil =>
    have nothing := PayloadDraft.get?_of_not_namesType unnamed type
    simpa [run, lastValue?, addingBody?] using nothing
  | cons call rest ih =>
    have nothing := PayloadDraft.get?_of_not_namesType unnamed type
    rw [lastValue?_cons, Option.or_assoc, run, Noted.value_bind, addingBody?]
    cases given : call.body? with
    | some body =>
      have noHeader : call.givesType = false := eq_false_of_ne_true fun gives =>
        Option.some_ne_none body (given.symm.trans (body?_eq_none_of_givesType gives))
      -- from here on the header that has been added names the content type
      rw [value_perform_of_body? given, get?_run_of_namesType (p.namesType_setBody body),
        PayloadDraft.headers_setBody_of_not_namesType unnamed, Dict.get?_insert, nothing,
        value?_of_body? given, noHeader]
      rfl
    | none =>
      obtain ⟨other, value, rfl⟩ := exists_header_of_body?_eq_none given
      by_cases gives : isContentType other = true
      · -- from here on the header that has been given names the content type
        refine (get?_run_of_namesType (PayloadDraft.namesType_header_iff.2 (.inl gives)) rest name).trans ?_
        rw [PayloadDraft.header, Dict.get?_insert, nothing, value?, givesType, if_pos gives]
        simp only [eq_comm (a := name)]
        split <;> simp
      · have unnamed' : ¬ (p.header other value).NamesType := by
          rw [PayloadDraft.namesType_header_iff, not_or]
          exact ⟨gives, unnamed⟩
        have apart : ¬ other = name := fun same => gives (same ▸ type)
        refine (ih unnamed').trans ?_
        rw [value?, if_neg apart, Option.none_or, givesType, if_neg gives]
        rfl

/-! ### What headers tell -/

/-- Some call gives a header that names the content type. -/
def GivesType (calls : List PayloadCall) : Prop :=
  ∃ call ∈ calls, call.givesType = true

/-- The headers tell the content type as the calls do: those that name one are those that were given, with the
values given last; where none was given, but a body, there is one with the content type of the last body. -/
structure TellsTypes (calls : List PayloadCall) (headers : List (String × String)) : Prop where
  given : GivesType calls → ∀ name, isContentType name = true →
    Dict.get? name headers = (lastValue? name calls).map Template.text
  added : ¬ GivesType calls → ∀ body, lastBody? calls = some body → ∃ name, isContentType name = true ∧
    ∀ other, isContentType other = true →
      Dict.get? other headers = if other = name then some body.contentType else none

/-- The texts of the headers that name a content type. -/
theorem get?_texts_run (calls : List PayloadCall) {name : String} (type : isContentType name = true) :
    Dict.get? name (run {} calls).value.texts =
      ((lastValue? name calls).map Template.text).or
        (if name = contentTypeName then (addingBody? calls).map BodyDraft.contentType else none) := by
  rw [PayloadDraft.texts, Dict.get?_mapValues, get?_run PayloadDraft.not_namesType_empty calls type, Option.map_or]
  congr 1
  split
  · rw [Option.map_map]
    rfl
  · rfl

theorem not_givesType_iff {calls : List PayloadCall} :
    ¬ GivesType calls ↔ ∀ call ∈ calls, call.givesType = false := by
  simp [GivesType]

theorem givesType_of_mem {calls : List PayloadCall} {name : String} {value : Template}
    (type : isContentType name = true) (mem : .header name value ∈ calls) : GivesType calls :=
  ⟨_, mem, type⟩

/-- Where no call gives a content type, none gives a value to such a header. -/
theorem lastValue?_of_not_givesType {calls : List PayloadCall} (h : ¬ GivesType calls) {name : String}
    (type : isContentType name = true) : lastValue? name calls = none :=
  lastValue?_eq_none_iff.2 fun _ mem => h (givesType_of_mem type mem)

/-- Where no header is given that names a content type, one is added if there is a body. -/
theorem exists_addingBody? {calls : List PayloadCall} (h : ¬ GivesType calls) {body : BodyDraft}
    (last : lastBody? calls = some body) : ∃ first, addingBody? calls = some first := by
  rw [addingBody?_eq_findSome? (not_givesType_iff.1 h)]
  obtain ⟨call, mem, given⟩ := List.exists_of_findSome?_eq_some last
  exact Option.isSome_iff_exists.1
    (List.findSome?_isSome_iff.2 ⟨call, List.mem_reverse.1 mem, Option.isSome_of_eq_some given⟩)

/-- The headers tell the content type as the calls do unless one is added that does not: a call after it names the
content type in another case only, or a later body has another content type. -/
theorem tellsTypes_iff {calls : List PayloadCall} :
    TellsTypes calls (run {} calls).value.texts ↔
      ∀ first, addingBody? calls = some first →
        (∃ value, .header contentTypeName value ∈ calls) ∨
          ¬ GivesType calls ∧ ∀ last, lastBody? calls = some last → last.contentType = first.contentType := by
  have own := PayloadDraft.isContentType_contentTypeName
  have absent : (¬ ∃ value, .header contentTypeName value ∈ calls) ↔
      lastValue? contentTypeName calls = none := by
    rw [lastValue?_eq_none_iff, not_exists]
  constructor
  · rintro ⟨given, added⟩ first adding
    have here := get?_texts_run calls own
    rw [if_pos rfl, adding, Option.map_some] at here
    by_cases gives : GivesType calls
    · refine .inl (Classical.byContradiction fun none => ?_)
      rw [given gives contentTypeName own, absent.1 none] at here
      cases here
    · refine .inr ⟨gives, fun last isLast => ?_⟩
      obtain ⟨name, _, only⟩ := added gives last isLast
      rw [only contentTypeName own, lastValue?_of_not_givesType gives own] at here
      split at here
      next => exact Option.some.inj here
      next => cases here
  · intro condition
    refine ⟨fun gives name type => ?given, fun none last isLast => ?added⟩
    case given =>
      rw [get?_texts_run calls type]
      cases value : lastValue? name calls with
      | some value => rfl
      | none =>
        -- an added header would be one that is not given
        rw [Option.map_none, Option.none_or]
        split
        next same =>
          cases adding : addingBody? calls with
          | none => rfl
          | some first =>
            rcases condition first adding with here | ⟨other, _⟩
            · exact absurd here (absent.2 (same ▸ value))
            · exact absurd gives other
        next => rfl
    case added =>
      obtain ⟨first, adding⟩ := exists_addingBody? none isLast
      have same : last.contentType = first.contentType := by
        rcases condition first adding with ⟨value, mem⟩ | ⟨_, same⟩
        · exact absurd (givesType_of_mem own mem) none
        · exact same last isLast
      refine ⟨contentTypeName, own, fun other type => ?_⟩
      rw [get?_texts_run calls type, lastValue?_of_not_givesType none type, adding, same]
      rfl

end PayloadCall

/-! ### What is recorded -/

/-- In what is recorded of a request and a response that calls have made, each header that names the content type
has the value that it is given last, and one is added for the first body if none was given before. The headers
tell the content type as the calls do unless a call after the added one names it in another case only, or a
later body has another content type. -/
theorem Recorder.addInteraction_tellsTypes {r r' : Recorder} {draft : InteractionDraft} {i : Interaction}
    (recorded : (r.addInteraction draft).result = .ok (i, r')) {request : RequestDraft}
    {response : ResponseDraft} (asked : draft.request = some request)
    (answered : draft.response = some response) {requestCalls responseCalls : List PayloadCall}
    (asking : request.payload = (PayloadCall.run {} requestCalls).value)
    (answering : response.payload = (PayloadCall.run {} responseCalls).value) :
    r'.contract.interactions = r.contract.interactions ++ [i] ∧
    ∀ calls headers, (calls, headers) = (requestCalls, i.request.headers) ∨
        (calls, headers) = (responseCalls, i.response.headers) →
      (∀ name, isContentType name = true →
        Dict.get? name headers = ((PayloadCall.lastValue? name calls).map Template.text).or
          (if name = contentTypeName then
            (PayloadCall.addingBody? calls).map BodyDraft.contentType
          else none)) ∧
      (PayloadCall.TellsTypes calls headers ↔ ∀ first, PayloadCall.addingBody? calls = some first →
        (∃ value, .header contentTypeName value ∈ calls) ∨
          ¬ PayloadCall.GivesType calls ∧
            ∀ last, PayloadCall.lastBody? calls = some last → last.contentType = first.contentType) := by
  obtain ⟨assembled, rfl⟩ := addInteraction_eq_ok_iff.1 recorded
  obtain ⟨request', response', hr, hs, _, rfl⟩ := Assembly.interaction_eq_ok_iff.1 assembled
  obtain rfl := Option.some.inj (asked.symm.trans hr)
  obtain rfl := Option.some.inj (answered.symm.trans hs)
  refine ⟨rfl, fun calls headers which => ?_⟩
  have texts : headers = (PayloadCall.run {} calls).value.texts := by
    rcases which with same | same
    · obtain ⟨rfl, rfl⟩ := Prod.mk.inj same
      exact congrArg PayloadDraft.texts asking
    · obtain ⟨rfl, rfl⟩ := Prod.mk.inj same
      exact congrArg PayloadDraft.texts answering
  rw [texts]
  exact ⟨fun _ type => PayloadCall.get?_texts_run calls type, PayloadCall.tellsTypes_iff⟩

/-! ### Calls in several orders -/

namespace CallOrders

open PayloadCall (TellsTypes GivesType)

/-- Names the content type after the body, in small letters. -/
def late : List PayloadCall :=
  [.jsonBody (.literal (.int 1)), .header "content-type" (.ofString "application/vnd.api+json")]

/-- Names the content type before the body, and again after it. -/
def early : List PayloadCall :=
  [.header "content-type" (.ofString "text/plain"), .jsonBody (.literal (.int 1)),
    .header "content-type" (.ofString "application/vnd.api+json")]

/-- A JSON body in place of a text. -/
def replaced : List PayloadCall :=
  [.rawBody "text/plain" "1".toUTF8, .header "Accept" (.ofString "*/*"), .jsonBody (.literal (.int 1))]

/-- An interaction whose request and response the calls have made. -/
def draft (requestCalls responseCalls : List PayloadCall) : InteractionDraft where
  description := "p"
  request := some
    { method := "post", path := .ofString "/", payload := (PayloadCall.run {} requestCalls).value }
  response := some { status := 200, payload := (PayloadCall.run {} responseCalls).value }

/-- A recorder that has recorded nothing. -/
def recorder : Recorder :=
  .ofSettings ⟨"web-app", "user-service", .v3, .never, "info"⟩

/-- A header after the body and a replaced body leave headers that do not tell the content type; a header before
the body does not. -/
theorem addInteraction_tellsTypes_orders :
    (∃ i r', (recorder.addInteraction (draft late replaced)).result = .ok (i, r') ∧
      i.request.headers =
        [("Content-Type", "application/json"), ("content-type", "application/vnd.api+json")] ∧
      ¬ TellsTypes late i.request.headers ∧
      i.response.headers = [("Accept", "*/*"), ("Content-Type", "text/plain")] ∧
      ¬ TellsTypes replaced i.response.headers) ∧
    ∃ i r', (recorder.addInteraction (draft early [])).result = .ok (i, r') ∧
      i.request.headers = [("content-type", "application/vnd.api+json")] ∧
      TellsTypes early i.request.headers := by
  obtain ⟨i, _, recorded, asked, answered⟩ : ∃ i r',
      (recorder.addInteraction (draft late replaced)).result = .ok (i, r') ∧
      i.request.headers =
        [("Content-Type", "application/json"), ("content-type", "application/vnd.api+json")] ∧
      i.response.headers = [("Accept", "*/*"), ("Content-Type", "text/plain")] :=
    ⟨_, _, by rfl, by rfl, by rfl⟩
  obtain ⟨j, _, recorded', asked'⟩ : ∃ j r',
      (recorder.addInteraction (draft early [])).result = .ok (j, r') ∧
      j.request.headers = [("content-type", "application/vnd.api+json")] :=
    ⟨_, _, by rfl, by rfl⟩
  obtain ⟨_, told⟩ := Recorder.addInteraction_tellsTypes recorded rfl rfl rfl rfl
  obtain ⟨_, told'⟩ := Recorder.addInteraction_tellsTypes recorded' rfl rfl rfl rfl
  refine ⟨⟨i, _, recorded, asked, ?late, answered, ?replaced⟩, j, _, recorded', asked', ?early⟩
  case late =>
    intro tells
    rcases (told late _ (.inl rfl)).2.1 tells _ rfl with ⟨value, mem⟩ | ⟨none, _⟩
    · simp [late, contentTypeName] at mem
    · exact none ⟨.header "content-type" (.ofString "application/vnd.api+json"), by simp [late], by decide⟩
  case replaced =>
    intro tells
    rcases (told replaced _ (.inr rfl)).2.1 tells _ rfl with ⟨value, mem⟩ | ⟨_, same⟩
    · simp [replaced, contentTypeName] at mem
    · exact absurd (same _ rfl) (by decide)
  case early =>
    refine (told' early _ (.inl rfl)).2.2 fun first adding => ?_
    cases adding

end CallOrders

end ConsumerContract
