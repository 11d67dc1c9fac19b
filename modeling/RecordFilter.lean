import RecordFilter.Backend
import RecordFilter.Log
import RecordFilter.Main
import RecordFilter.Node.Part
import RecordFilter.Proofs.CommandLine.CaseFlag
import RecordFilter.Proofs.Filter.Chains
import RecordFilter.Proofs.Filter.Entries
import RecordFilter.Proofs.Filter.Joining
import RecordFilter.Proofs.Filter.Spelling
import RecordFilter.Proofs.Function.Texts
import RecordFilter.Proofs.Json.MergeLaws
import RecordFilter.Proofs.Operand.Literals
import RecordFilter.Proofs.Operand.Lossless
import RecordFilter.Proofs.Operand.MarkedNumbers
import RecordFilter.Proofs.Operand.QuotedArgument
import RecordFilter.Proofs.Operand.WholeText
import RecordFilter.Proofs.Operator.Registrations
import RecordFilter.Proofs.Predicate.Acceptance
import RecordFilter.Proofs.Predicate.BareLiterals
import RecordFilter.Proofs.Predicate.Escapes
import RecordFilter.Proofs.Predicate.FailedValidation
import RecordFilter.Proofs.Predicate.Merging
import RecordFilter.Proofs.Predicate.Naming
import RecordFilter.Proofs.Predicate.Negation
import RecordFilter.Proofs.Predicate.Policies
import RecordFilter.Proofs.Predicate.PropertyNames
import RecordFilter.Proofs.Predicate.Reads
import RecordFilter.Proofs.Predicate.SchemaCalls
import RecordFilter.Proofs.Predicate.Schemaless
import RecordFilter.Proofs.Predicate.Scopes
import RecordFilter.Proofs.Predicate.Stability
import RecordFilter.Proofs.Predicate.TextForm
import RecordFilter.Proofs.Predicate.Totality
import RecordFilter.Proofs.Schema.Order
import RecordFilter.Proofs.Schema.Paths
import RecordFilter.Proofs.Session
import RecordFilter.Proofs.Value.Agreement
