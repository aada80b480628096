import ConsumerContract.Path.Reader
import ConsumerContract.Recorder
import ConsumerContract.Samples
import ConsumerContract.Shape.Derivation
import ConsumerContract.Proofs.RoundTrip
import ConsumerContract.Proofs.Refusals
import ConsumerContract.Proofs.Validation
import ConsumerContract.Proofs.EarlyRules
import ConsumerContract.Proofs.Lookups
import ConsumerContract.Proofs.Agreement
import ConsumerContract.Proofs.Derivation
import ConsumerContract.Proofs.Roots
import ConsumerContract.Proofs.Bodies
import ConsumerContract.Proofs.RuleShapes
import ConsumerContract.Proofs.Placement
import ConsumerContract.Proofs.Skeletons
import ConsumerContract.Proofs.Interchange
import ConsumerContract.Proofs.MarkerReading
import ConsumerContract.Proofs.Unions
import ConsumerContract.Proofs.MemberOrder
import ConsumerContract.Proofs.RuleVocabulary
import ConsumerContract.Proofs.Hints
import ConsumerContract.Proofs.HintGrammar
import ConsumerContract.Proofs.RegexHints
import ConsumerContract.Proofs.DerivedMatchers
import ConsumerContract.Proofs.DerivedVersions
import ConsumerContract.Proofs.RefusedPlaces
import ConsumerContract.Proofs.DerivedSamples
import ConsumerContract.Proofs.QueryStrings
import ConsumerContract.Proofs.ContentTypes
import ConsumerContract.Proofs.PathWalks
import ConsumerContract.Proofs.HintLoop
import ConsumerContract.Proofs.StableReading
import ConsumerContract.Proofs.ObjectTexts
import ConsumerContract.Proofs.FieldNames
