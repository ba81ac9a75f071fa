import SchemaEvolution.Command.Run
import SchemaEvolution.Diff.Configuration
import SchemaEvolution.Diff.JsonForm
import SchemaEvolution.Document.JsonForm
import SchemaEvolution.FileTree
import SchemaEvolution.Main
import SchemaEvolution.Report
import SchemaEvolution.Schema
import SchemaEvolution.Proofs.Diff.Comparisons
import SchemaEvolution.Proofs.Diff.References
import SchemaEvolution.Proofs.Diff.Compatible
import SchemaEvolution.Proofs.Diff.Reachable
import SchemaEvolution.Proofs.Diff.Verdict
import SchemaEvolution.Proofs.Diff.ClientPaths
import SchemaEvolution.Proofs.Diff.RequiredInputs
import SchemaEvolution.Proofs.Diff.Retyping
import SchemaEvolution.Proofs.Diff.Reports
import SchemaEvolution.Proofs.Diff.Recursion
import SchemaEvolution.Proofs.Report
import SchemaEvolution.Proofs.Diff.SelfComparison
import SchemaEvolution.Proofs.Canonical
import SchemaEvolution.Proofs.Command
import SchemaEvolution.Proofs.Command.Formats
import SchemaEvolution.Proofs.Diff.Agreement
import SchemaEvolution.Proofs.Diff.Composition
import SchemaEvolution.Proofs.Diff.Additions
import SchemaEvolution.Proofs.Diff.AddedMembers
import SchemaEvolution.Proofs.Diff.TypeFindings
import SchemaEvolution.Proofs.Diff.Converted
import SchemaEvolution.Proofs.Diff.Rearranged
import SchemaEvolution.Proofs.Diff.Relevance
import SchemaEvolution.Proofs.Diff.DirectiveEnforcement
import SchemaEvolution.Proofs.Diff.FieldRemoval
import SchemaEvolution.Proofs.Meaning
import SchemaEvolution.Proofs.Introspection.RoundTrip
import SchemaEvolution.Proofs.LiteralAcceptance
import SchemaEvolution.Proofs.LiteralRoundTrip
import SchemaEvolution.Proofs.TypeRefReading
import SchemaEvolution.Proofs.TypeRef.MarkRuns
import SchemaEvolution.Proofs.TypeRef.AdmittedValues
import SchemaEvolution.Proofs.Diff.EventPlaces
