import ConsumerContract.Proofs.Assembly
import ConsumerContract.Recorder

/-!
# Runs of a recorder

A desk is a recorder with the archives that its contract may go to, and a run is any sequence of calls,
each of which may fail. `Desk.perform_cases` says once what a call can do; that failures change nothing,
that a contract only grows, and that it keeps the shape of its version all follow from it.
-/

namespace ConsumerContract

/-! ### The desk -/

/-- What an author may ask for. -/
inductive Call where
  | interaction (draft : InteractionDraft)
  | message (draft : MessageDraft)
  | write (archive : Nat)

/-- A recorder, and the archives that its contract may go to. -/
structure Desk where
  recorder : Recorder
  archives : Nat → Archive

namespace Desk

/-- An empty recorder, with archives of any kind. -/
def start (settings : Settings) (archives : Nat → Archive) : Desk :=
  ⟨.ofSettings settings, archives⟩

/-- The contract held. -/
def contract (d : Desk) : Contract :=
  d.recorder.contract

/-- The desk after one more interaction. -/
def recordInteraction (d : Desk) (i : Interaction) : Desk :=
  { d with recorder.contract.interactions := d.contract.interactions ++ [i] }

/-- The desk after one more message. -/
def recordMessage (d : Desk) (m : Message) : Desk :=
  { d with recorder.contract.messages := d.contract.messages ++ [m] }

/-- The desk after the archive `k` has become `a`. -/
def setArchive (d : Desk) (k : Nat) (a : Archive) : Desk :=
  { d with archives := fun j => if j = k then a else d.archives j }

/-- One call: its error, if it fails, and the desk after it. -/
def perform (d : Desk) : Call → Option Error × Desk
  | .interaction draft =>
    match (d.recorder.addInteraction draft).result with
    | .ok (_, recorder) => (none, { d with recorder := recorder })
    | .error e => (some e, d)
  | .message draft =>
    match (d.recorder.addMessage draft).result with
    | .ok (_, recorder) => (none, { d with recorder := recorder })
    | .error e => (some e, d)
  | .write k =>
    match d.recorder.write (d.archives k) with
    | .ok archive => (none, d.setArchive k archive)
    | .error e => (some e, d)

/-- The desk after a sequence of calls. -/
def run (d : Desk) (calls : List Call) : Desk :=
  calls.foldl (fun d call => (d.perform call).2) d

/-! ### One call -/

/-- What a call does to the desk. -/
inductive Does (d : Desk) : Call → Option Error → Desk → Prop where
  | fails (call : Call) (e : Error) : Does d call (some e) d
  | records {draft i} : (Assembly.interaction d.recorder.settings.version
        d.recorder.settings.queryStyle draft).result = .ok i →
      Does d (.interaction draft) none (d.recordInteraction i)
  | notes {draft m} : (Assembly.message d.recorder.settings.version draft).result = .ok m →
      Does d (.message draft) none (d.recordMessage m)
  | hands {k} : (d.archives k).refuses = false →
      Does d (.write k) none (d.setArchive k
        { d.archives k with contracts := (d.archives k).contracts ++ [d.contract] })

/-- Asking for an interaction records it if it can be assembled, and else changes nothing. -/
theorem perform_interaction (d : Desk) (draft : InteractionDraft) :
    d.perform (.interaction draft) =
      match (Assembly.interaction d.recorder.settings.version
        d.recorder.settings.queryStyle draft).result with
      | .ok i => (none, d.recordInteraction i)
      | .error e => (some e, d) := by
  rw [perform, Recorder.addInteraction, Attempt.result_bind]
  cases (Assembly.interaction ..).result <;> rfl

/-- Asking for a message records it if it can be assembled, and else changes nothing. -/
theorem perform_message (d : Desk) (draft : MessageDraft) :
    d.perform (.message draft) =
      match (Assembly.message d.recorder.settings.version draft).result with
      | .ok m => (none, d.recordMessage m)
      | .error e => (some e, d) := by
  rw [perform, Recorder.addMessage, Attempt.result_bind]
  cases (Assembly.message ..).result <;> rfl

/-- Writing puts the contract into the archive, unless the archive refuses. -/
theorem perform_write (d : Desk) (k : Nat) :
    d.perform (.write k) =
      if (d.archives k).refuses then
        (some (.invalidPart "contract" "writer unavailable"), d)
      else (none, d.setArchive k
        { d.archives k with contracts := (d.archives k).contracts ++ [d.contract] }) := by
  rw [perform, Recorder.write, Recorder.handOver, Attempt.result_give_bind, Attempt.result_ofExcept,
    Archive.add]
  by_cases refuses : (d.archives k).refuses = true
  · rw [if_pos refuses, if_pos refuses]
  · rw [if_neg refuses, if_neg refuses]
    rfl

/-- All that a call can do. -/
theorem perform_cases (d : Desk) (call : Call) :
    d.Does call (d.perform call).1 (d.perform call).2 := by
  cases call with
  | interaction draft =>
    rw [perform_interaction]
    split
    next found => exact .records found
    next => exact .fails _ _
  | message draft =>
    rw [perform_message]
    split
    next found => exact .notes found
    next => exact .fails _ _
  | write k =>
    rw [perform_write]
    split
    next => exact .fails _ _
    next open_ => exact .hands (by simpa using open_)

/-- A call that fails changes nothing. -/
theorem Does.eq_of_error {d d' : Desk} {call : Call} {e : Error} (h : d.Does call (some e) d') :
    d' = d := by
  cases h
  rfl

/-- What every call keeps, a run keeps. -/
theorem run_induction {p : Desk → Prop} {d : Desk} {calls : List Call} (h : p d)
    (step : ∀ d call, call ∈ calls → p d → p (d.perform call).2) : p (d.run calls) := by
  induction calls generalizing d with
  | nil => exact h
  | cons call rest ih =>
    have first : p (d.perform call).2 := step d call List.mem_cons_self h
    apply ih first
    intro d' later hlater
    exact step d' later (List.mem_cons_of_mem _ hlater)

end Desk

/-! ### Where everything comes from -/

namespace Desk

/-- Everything in the contract was assembled, under the settings, from the draft of one of the calls. -/
structure Stems (s : Settings) (calls : List Call) (d : Desk) : Prop where
  settings : d.recorder.settings = s
  interactions : ∀ i ∈ d.contract.interactions, ∃ draft, Call.interaction draft ∈ calls ∧
    (Assembly.interaction s.version s.queryStyle draft).result = .ok i
  messages : ∀ m ∈ d.contract.messages, ∃ draft, Call.message draft ∈ calls ∧
    (Assembly.message s.version draft).result = .ok m

theorem stems_start (s : Settings) (archives : Nat → Archive) (calls : List Call) :
    (start s archives).Stems s calls where
  settings := rfl
  interactions _ h := absurd h List.not_mem_nil
  messages _ h := absurd h List.not_mem_nil

/-- What one of the calls records stems from its draft. -/
theorem Stems.perform {s : Settings} {calls : List Call} {d : Desk} (h : d.Stems s calls) {call : Call}
    (hcall : call ∈ calls) : (d.perform call).2.Stems s calls := by
  have does := d.perform_cases call
  generalize d.perform call = out at does ⊢
  obtain ⟨error, d'⟩ := out
  cases does with
  | fails => exact h
  | @records draft i found =>
    rw [h.settings] at found
    have new : ∃ draft, Call.interaction draft ∈ calls ∧
        (Assembly.interaction s.version s.queryStyle draft).result = .ok i := ⟨draft, hcall, found⟩
    exact ⟨h.settings,
      List.forall_mem_append.2 ⟨h.interactions, List.forall_mem_singleton.2 new⟩, h.messages⟩
  | @notes draft m found =>
    rw [h.settings] at found
    have new : ∃ draft, Call.message draft ∈ calls ∧
        (Assembly.message s.version draft).result = .ok m := ⟨draft, hcall, found⟩
    exact ⟨h.settings, h.interactions,
      List.forall_mem_append.2 ⟨h.messages, List.forall_mem_singleton.2 new⟩⟩
  | hands => exact ⟨h.settings, h.interactions, h.messages⟩

/-- After any run, everything in the contract stems from the draft of one of the calls. -/
theorem stems_run (s : Settings) (archives : Nat → Archive) (calls : List Call) :
    ((start s archives).run calls).Stems s calls := by
  apply run_induction (stems_start s archives calls)
  intro d call hcall stems
  exact stems.perform hcall

end Desk

/-! ### The shapes of the versions -/

/-- Rules and generators as version 2 has them: one rule a path, and no generators. -/
structure EarlyArtifacts (rules : Option PartRules) (generators : Option (ByPart Generator)) :
    Prop where
  rules : ∀ r, rules = some r → ∃ flat, r = .flat flat ∧ flat ≠ []
  generators : generators = none

/-- Rules and generators as later versions have them: by part, and each rule in a set of its own. -/
structure LateArtifacts (rules : Option PartRules) (generators : Option (ByPart Generator)) :
    Prop where
  rules : ∀ r, rules = some r →
    ∃ sets, r = .byPart sets ∧ sets.isEmpty = false ∧ sets.All fun set => ∃ rule, set = Rule.alone rule
  generators : ∀ g, generators = some g → g.isEmpty = false

/-- Nothing is said of a part that only requests have. -/
def ByPart.SkipsRequest {α : Type} (b : ByPart α) : Prop :=
  b.query = [] ∧ b.path = none

/-- Nothing is said of a part other than the body. -/
def ByPart.IsOfBody {α : Type} (b : ByPart α) : Prop :=
  b.SkipsRequest ∧ b.header = []

/-- The shape of an interaction of version 2. -/
structure Interaction.IsEarly (i : Interaction) : Prop where
  states : i.states = []
  query : ∀ q, i.request.query = some q → ∃ s, q = .text s
  request : EarlyArtifacts i.request.rules i.request.generators
  response : EarlyArtifacts i.response.rules i.response.generators

/-- The shape of an interaction of later versions. -/
structure Interaction.IsLate (i : Interaction) : Prop where
  state : i.state = none
  query : ∀ q, i.request.query = some q → ∃ values, q = .byName values ∧ values ≠ []
  request : LateArtifacts i.request.rules i.request.generators
  response : LateArtifacts i.response.rules i.response.generators
  responseRules : ∀ sets, i.response.rules = some (.byPart sets) → sets.SkipsRequest
  responseGenerators : ∀ g, i.response.generators = some g → g.SkipsRequest

/-- The shape of a message. -/
structure Message.IsLate (m : Message) : Prop where
  artifacts : LateArtifacts m.rules m.generators
  rules : ∀ sets, m.rules = some (.byPart sets) → sets.IsOfBody
  generators : ∀ g, m.generators = some g → g.IsOfBody

/-- The contract has the shape of its version. -/
structure Contract.Fits (version : Version) (c : Contract) : Prop where
  early : version = .v2 → c.messages = [] ∧ ∀ i ∈ c.interactions, i.IsEarly
  late : version ≠ .v2 → (∀ i ∈ c.interactions, i.IsLate) ∧ ∀ m ∈ c.messages, m.IsLate

theorem usesRuleSets_v2 : Version.v2.usesRuleSets = false :=
  rfl

theorem usesRuleSets_of_ne {version : Version} (late : version ≠ .v2) :
    version.usesRuleSets = true := by
  simp [Version.usesRuleSets, late]

namespace Placed

variable {α : Type}

/-- In later versions every rule stands alone in its set. -/
theorem all_rulesByPart (parts : List Placed) :
    (rulesByPart parts).All fun set => ∃ rule, set = Rule.alone rule := by
  apply List.foldlRecOn parts
  · exact ⟨by simp, by simp, by simp, by simp⟩
  · intro b hb p _
    apply all_takeUp hb
    intro e he
    obtain ⟨⟨_, rule⟩, _, rfl⟩ := List.mem_map.1 he
    exact ⟨rule, rfl⟩

/-- A part that is no part of a request leaves the query and the path alone. -/
theorem skipsRequest_takeUp {b : ByPart α} (h : b.SkipsRequest) {place : Place}
    (ours : place = .body ∨ ∃ name, place = .header name) (entries : List (String × α)) :
    (takeUp b place entries).SkipsRequest := by
  rw [takeUp.eq_def]
  rcases ours with rfl | ⟨name, rfl⟩
  · exact h
  · cases Dict.get? Path.root entries <;> exact h

/-- The rules of version 2 are those of the one dictionary, if there are any. -/
theorem rules_early (parts : List Placed) {r : PartRules} (h : rules .v2 parts = some r) :
    sharedRules parts ≠ [] ∧ r = .flat (sharedRules parts) := by
  simp only [rules, usesRuleSets_v2, Bool.false_eq_true, if_false] at h
  split at h
  · cases h
  next filled => exact ⟨by simpa [PartRules.isEmpty] using filled, (Option.some.inj h).symm⟩

/-- The rules of later versions are those by part, if there are any. -/
theorem rules_late {version : Version} (late : version ≠ .v2) (parts : List Placed) {r : PartRules}
    (h : rules version parts = some r) :
    (rulesByPart parts).isEmpty = false ∧ r = .byPart (rulesByPart parts) := by
  simp only [rules, usesRuleSets_of_ne late, if_true] at h
  split at h
  · cases h
  next filled => exact ⟨by simpa [PartRules.isEmpty] using filled, (Option.some.inj h).symm⟩

/-- The generators of later versions are those by part, if there are any. -/
theorem generators_late {version : Version} (late : version ≠ .v2) (parts : List Placed)
    {g : ByPart Generator} (h : generators version parts = some g) :
    (generatorsByPart parts).isEmpty = false ∧ g = generatorsByPart parts := by
  simp only [generators, usesRuleSets_of_ne late, if_true] at h
  split at h
  · cases h
  next filled => exact ⟨by simpa using filled, (Option.some.inj h).symm⟩

/-- Version 2 has rules by path and no generators. -/
theorem early_artifacts (parts : List Placed) :
    EarlyArtifacts (rules .v2 parts) (generators .v2 parts) where
  rules r h := by
    obtain ⟨filled, rfl⟩ := rules_early parts h
    exact ⟨_, rfl, filled⟩
  generators := rfl

/-- Later versions have rules and generators by part. -/
theorem late_artifacts {version : Version} (late : version ≠ .v2) (parts : List Placed) :
    LateArtifacts (rules version parts) (generators version parts) where
  rules r h := by
    obtain ⟨filled, rfl⟩ := rules_late late parts h
    exact ⟨_, rfl, filled, all_rulesByPart parts⟩
  generators g h := by
    obtain ⟨filled, rfl⟩ := generators_late late parts h
    exact filled

/-- What is recorded of headers and a body says nothing of a request. -/
theorem skipsRequest_fold {version : Version} {payload : PayloadDraft} {parts : List Placed}
    (h : AllOf version payload.Holds parts) (entries : Placed → List (String × α)) :
    (parts.foldl (fun b p => takeUp b p.place (entries p)) ({} : ByPart α)).SkipsRequest := by
  apply List.foldlRecOn parts
  · exact ⟨rfl, rfl⟩
  · intro b hb p hp
    obtain ⟨t, held, _⟩ := h p hp
    have ours : p.place = .body ∨ ∃ name, p.place = .header name := by
      generalize p.place = place at held
      cases held with
      | header _ => exact .inr ⟨_, rfl⟩
      | body _ => exact .inl rfl
    exact skipsRequest_takeUp hb ours (entries p)

end Placed

namespace Assembly

open Placed

variable {version : Version} {style : QueryStyle}

/-- An interaction of version 2 has its shape. -/
theorem isEarly_of_interaction {draft : InteractionDraft} {i : Interaction}
    (h : (interaction .v2 style draft).result = .ok i) : i.IsEarly := by
  obtain ⟨r, s, _, _, _, rfl⟩ := interaction_eq_ok_iff.1 h
  constructor
  · rw [InteractionDraft.assembled, value_states]
    rfl
  · intro q (hq : renderQuery .v2 style r.values = some q)
    rw [renderQuery] at hq
    split at hq
    · cases hq
    · exact ⟨_, (Option.some.inj hq).symm⟩
  · exact early_artifacts _
  · exact early_artifacts _

/-- An interaction of a later version has the shape of later versions. -/
theorem isLate_of_interaction {draft : InteractionDraft} {i : Interaction} (late : version ≠ .v2)
    (h : (interaction version style draft).result = .ok i) : i.IsLate := by
  have sets : version.usesRuleSets = true := usesRuleSets_of_ne late
  obtain ⟨r, s, _, _, _, rfl⟩ := interaction_eq_ok_iff.1 h
  constructor
  · rw [InteractionDraft.assembled, value_states, if_pos sets]
  · intro q (hq : renderQuery version style r.values = some q)
    rw [renderQuery, if_pos sets] at hq
    split at hq
    · cases hq
    next filled => exact ⟨r.values, (Option.some.inj hq).symm, by simpa using filled⟩
  · exact late_artifacts late _
  · exact late_artifacts late _
  · intro b hb
    obtain rfl := PartRules.byPart.inj (rules_late late _ hb).2
    exact skipsRequest_fold (s.payload.allOf_places version) _
  · intro g hg
    obtain rfl := (generators_late late _ hg).2
    exact skipsRequest_fold (s.payload.allOf_places version) _

/-- Only later versions have messages, and these have their shape. -/
theorem isLate_of_message {draft : MessageDraft} {m : Message}
    (h : (message version draft).result = .ok m) : version ≠ .v2 ∧ m.IsLate := by
  obtain ⟨⟨sets, _⟩, rfl⟩ := (message_gives version draft m).1 h
  have late : version ≠ .v2 := by
    rintro rfl
    cases sets
  refine ⟨late, ?_⟩
  constructor
  · exact late_artifacts late _
  · intro b hb
    obtain rfl := PartRules.byPart.inj (rules_late late _ hb).2
    exact ⟨⟨rfl, rfl⟩, rfl⟩
  · intro g hg
    obtain rfl := (generators_late late _ hg).2
    exact ⟨⟨rfl, rfl⟩, rfl⟩

end Assembly

/-! ### Runs -/

namespace Desk

/-- What stays so over a whole run. -/
structure Keeps (s : Settings) (d : Desk) : Prop where
  settings : d.recorder.settings = s
  consumer : d.contract.consumer = s.consumer
  provider : d.contract.provider = s.provider
  metadata : d.contract.metadata = .ofVersion s.version
  shape : d.contract.Fits s.version

theorem keeps_start (s : Settings) (archives : Nat → Archive) : (start s archives).Keeps s where
  settings := rfl
  consumer := rfl
  provider := rfl
  metadata := rfl
  shape := ⟨fun _ => ⟨rfl, fun _ h => absurd h List.not_mem_nil⟩,
    fun _ => ⟨fun _ h => absurd h List.not_mem_nil, fun _ h => absurd h List.not_mem_nil⟩⟩

/-- One more interaction of its version leaves a contract in the shape of the version. -/
theorem fits_interaction {version : Version} {style : QueryStyle} {draft : InteractionDraft}
    {i : Interaction} {c : Contract} (fits : c.Fits version)
    (h : (Assembly.interaction version style draft).result = .ok i) :
    ({ c with interactions := c.interactions ++ [i] } : Contract).Fits version := by
  constructor
  · rintro rfl
    obtain ⟨noMessages, shapes⟩ := fits.early rfl
    have shape : i.IsEarly := Assembly.isEarly_of_interaction h
    exact ⟨noMessages, List.forall_mem_append.2 ⟨shapes, List.forall_mem_singleton.2 shape⟩⟩
  · intro late
    obtain ⟨shapes, messages⟩ := fits.late late
    have shape : i.IsLate := Assembly.isLate_of_interaction late h
    exact ⟨List.forall_mem_append.2 ⟨shapes, List.forall_mem_singleton.2 shape⟩, messages⟩

/-- One more message of its version leaves a contract in the shape of the version. -/
theorem fits_message {version : Version} {draft : MessageDraft} {m : Message} {c : Contract}
    (fits : c.Fits version) (h : (Assembly.message version draft).result = .ok m) :
    ({ c with messages := c.messages ++ [m] } : Contract).Fits version := by
  obtain ⟨late, shape⟩ := Assembly.isLate_of_message h
  constructor
  · intro early
    exact absurd early late
  · intro _
    obtain ⟨interactions, shapes⟩ := fits.late late
    exact ⟨interactions, List.forall_mem_append.2 ⟨shapes, List.forall_mem_singleton.2 shape⟩⟩

/-- One call keeps the settings, what the contract says of them, and its shape. -/
theorem Keeps.perform {s : Settings} {d : Desk} (h : d.Keeps s) (call : Call) :
    (d.perform call).2.Keeps s := by
  have does := d.perform_cases call
  generalize d.perform call = out at does ⊢
  obtain ⟨error, d'⟩ := out
  cases does with
  | fails => exact h
  | records found =>
    rw [h.settings] at found
    exact { h with shape := fits_interaction h.shape found }
  | notes found =>
    rw [h.settings] at found
    exact { h with shape := fits_message h.shape found }
  | hands => exact { h with }

/-- A whole run keeps them. -/
theorem Keeps.run {s : Settings} {d : Desk} (h : d.Keeps s) (calls : List Call) :
    (d.run calls).Keeps s := by
  apply run_induction h
  intro d' call _ keeps
  exact keeps.perform call

/-- Each call is carried out as a whole or not at all. -/
structure Orderly (d : Desk) : Prop where
  /-- A call that fails changes nothing. -/
  failure : ∀ call e d', d.perform call = (some e, d') → d' = d
  /-- An interaction that is recorded comes last, and nothing else changes. -/
  interaction : ∀ draft d', d.perform (.interaction draft) = (none, d') →
    ∃ i, (Assembly.interaction d.recorder.settings.version d.recorder.settings.queryStyle
        draft).result = .ok i ∧
      d' = { d with recorder.contract.interactions := d.contract.interactions ++ [i] }
  /-- A message that is recorded comes last, and nothing else changes. -/
  message : ∀ draft d', d.perform (.message draft) = (none, d') →
    ∃ m, (Assembly.message d.recorder.settings.version draft).result = .ok m ∧
      d' = { d with recorder.contract.messages := d.contract.messages ++ [m] }
  /-- Writing leaves the recorder and the other archives alone. -/
  writing : ∀ k, (d.perform (.write k)).2.recorder = d.recorder ∧
    ∀ j, j ≠ k → (d.perform (.write k)).2.archives j = d.archives j
  /-- An archive that takes contracts gains the one held, and no other. -/
  accepted : ∀ k, (d.archives k).refuses = false → (d.perform (.write k)).1 = none ∧
    (d.perform (.write k)).2.archives k =
      { d.archives k with contracts := (d.archives k).contracts ++ [d.contract] }
  /-- An archive that refuses gains none. -/
  refused : ∀ k, (d.archives k).refuses = true → ∃ e, d.perform (.write k) = (some e, d)

/-- Whatever a desk holds, each call either fails and changes nothing or does what it says. -/
theorem orderly (d : Desk) : d.Orderly := by
  constructor
  · intro call e d' h
    have does := d.perform_cases call
    rw [h] at does
    exact does.eq_of_error
  · intro draft d' h
    have does := d.perform_cases (.interaction draft)
    rw [h] at does
    cases does with
    | records found => exact ⟨_, found, rfl⟩
  · intro draft d' h
    have does := d.perform_cases (.message draft)
    rw [h] at does
    cases does with
    | notes found => exact ⟨_, found, rfl⟩
  · intro k
    rw [perform_write]
    split
    · exact ⟨rfl, fun _ _ => rfl⟩
    · exact ⟨rfl, fun j apart => if_neg apart⟩
  · intro k takes
    rw [perform_write, if_neg (by simp [takes])]
    exact ⟨rfl, if_pos rfl⟩
  · intro k refuses
    rw [perform_write, if_pos refuses]
    exact ⟨_, rfl⟩

/-- After any calls, failed ones among them, the next is carried out as a whole or not at all, the
contract is still that of the settings, and everything in it has the shape of its version. -/
theorem run_orderly (s : Settings) (archives : Nat → Archive) (calls : List Call) :
    ((start s archives).run calls).Orderly ∧ ((start s archives).run calls).Keeps s :=
  ⟨orderly _, (keeps_start s archives).run calls⟩

end Desk

end ConsumerContract
