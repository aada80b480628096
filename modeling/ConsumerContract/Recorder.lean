import ConsumerContract.Contract.Document
import ConsumerContract.Draft.Assembly

/-!
# Recorders

A recorder gathers interactions and messages into one contract under settings that stay the same. What
cannot be assembled leaves the contract as it was. An archive takes finished contracts, or refuses them.
-/

namespace ConsumerContract

/-- A contract in the making. -/
structure Recorder where
  settings : Settings
  contract : Contract

/-- A place for finished contracts. -/
structure Archive where
  contracts : List Contract := []
  /-- Takes no contracts. -/
  refuses : Bool := false

/-- Puts a contract into the archive. -/
def Archive.add (a : Archive) (c : Contract) : Except Error Archive :=
  if a.refuses then .error (.invalidPart "contract" "writer unavailable")
  else .ok { a with contracts := a.contracts ++ [c] }

namespace Recorder

/-- A recorder that has recorded nothing. -/
def ofSettings (s : Settings) : Recorder where
  settings := s
  contract := .empty s.consumer s.provider s.version

/-- Records an interaction. -/
def addInteraction (r : Recorder) (draft : InteractionDraft) : Attempt (Interaction × Recorder) := do
  let i ← Assembly.interaction r.settings.version r.settings.queryStyle draft
  pure (i, { r with contract.interactions := r.contract.interactions ++ [i] })

/-- Records a message. -/
def addMessage (r : Recorder) (draft : MessageDraft) : Attempt (Message × Recorder) := do
  let m ← Assembly.message r.settings.version draft
  pure (m, { r with contract.messages := r.contract.messages ++ [m] })

/-- Hands the contract over to an archive. -/
def handOver (r : Recorder) (a : Archive) : Attempt Archive := do
  Attempt.give (.contractHandedOver r.settings.consumer r.settings.provider
    r.contract.interactions.length r.contract.messages.length)
  Attempt.ofExcept (a.add r.contract)

/-- The archive after the contract has been handed over. -/
def write (r : Recorder) (a : Archive) : Except Error Archive :=
  (r.handOver a).result

end Recorder

end ConsumerContract
