import NautilusAgents.Json
import NautilusAgents.JsonText
import NautilusAgents.PrettyText
import NautilusAgents.OrderedSet
import NautilusAgents.Collecting
import NautilusAgents.Serde
import NautilusAgents.Derive
import NautilusAgents.DocumentGrammar
import NautilusAgents.Pattern
import NautilusAgents.Schema
import NautilusAgents.Described
import NautilusAgents.PrefixCode
import NautilusAgents.CanonicalForm
import NautilusAgents.DebugText
import NautilusAgents.ExactSchema
import NautilusAgents.SimilarDocuments
import NautilusAgents.JsonPointer
import NautilusAgents.JsonPlaces
import NautilusAgents.Overwrites
import NautilusAgents.Loop
import NautilusAgents.Stopping
import NautilusAgents.Redo
import NautilusAgents.Polling
import NautilusAgents.Numeral
import NautilusAgents.Decimal
import NautilusAgents.FirstViolation
import NautilusAgents.FileProgram
import NautilusAgents.BlindRuns
import NautilusAgents.FileTree
import NautilusAgents.AppendCell
import NautilusAgents.Crates
import NautilusAgents.Value
import NautilusAgents.Quantity
import NautilusAgents.QuantityGrammar
import NautilusAgents.CheckedDecimal
import NautilusAgents.LongDivision
import NautilusAgents.Identity
import NautilusAgents.ScalarPatterns
import NautilusAgents.Protocol
import NautilusAgents.Observation
import NautilusAgents.Receipt
import NautilusAgents.Recording
import NautilusAgents.Fixture
import NautilusAgents.Mutation
import NautilusAgents.Contract
import NautilusAgents.ContentAddress
import NautilusAgents.ObservationBuilder
import NautilusAgents.Advisory
import NautilusAgents.ScalarAcceptance
import NautilusAgents.ScalarTexts
import NautilusAgents.SchemaBounds
import NautilusAgents.DecodedValues
import NautilusAgents.AdvisoryViews
import NautilusAgents.OmissionCoverage
import NautilusAgents.Runner
import NautilusAgents.Shadow
import NautilusAgents.ReductionPolicies
import NautilusAgents.Wire
import NautilusAgents.RecordAppend
import NautilusAgents.RecordingRuns
import NautilusAgents.Retention
import NautilusAgents.Jsonl
import NautilusAgents.Replay
import NautilusAgents.Redaction
import NautilusAgents.ConcurrentCalls
import NautilusAgents.LostUpdate
import NautilusAgents.ContractSchema
import NautilusAgents.ContractAgreement
import NautilusAgents.FieldList
import NautilusAgents.Conformance
import NautilusAgents.Regeneration
import NautilusAgents.WireDigest
