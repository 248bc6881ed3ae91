import FlowLint.Text.Blank
import FlowLint.Markup.Document
import FlowLint.Json.Printer
import FlowLint.Json.Reader
import FlowLint.Path.Normal
import FlowLint.Flow.Artifact
import FlowLint.Query.ProcessStep
import FlowLint.Query.Description
import FlowLint.Text.Property.Word
import FlowLint.Text.Property.Case
import FlowLint.Text.Lowercase
import FlowLint.Pattern.Matcher
import FlowLint.Pattern.Reader
import FlowLint.Naming.Scheme
import FlowLint.Issue.Codec
import FlowLint.Digest.Sha256
import FlowLint.Rule.Run
import FlowLint.Catalog.Factory
import FlowLint.Extension.Declared
import FlowLint.RulesFile.Loader
import FlowLint.Report.Codec
import FlowLint.Report.Markdown
import FlowLint.Report.Annotation
import FlowLint.Report.Masking
import FlowLint.Catalog.Explanation
import FlowLint.Bundle.Manifest
import FlowLint.Bundle.Resource
import FlowLint.Bundle.Draft
import FlowLint.Main
import FlowLint.Proofs.Numeric.Rounding
import FlowLint.Proofs.RulesFile.Cycles
import FlowLint.Proofs.RulesFile.Reordering
import FlowLint.Proofs.Rule.Suppression
import FlowLint.Proofs.Rule.Course
import FlowLint.Proofs.Rule.Requests
import FlowLint.Proofs.Rule.Deferral
import FlowLint.Proofs.Catalog.ArtifactOrder
import FlowLint.Proofs.Catalog.PlainReceivers
import FlowLint.Proofs.Catalog.Complement
import FlowLint.Proofs.Catalog.Gathering
import FlowLint.Proofs.Catalog.OpenCalls
import FlowLint.Proofs.Naming.WholeName
import FlowLint.Proofs.Naming.Grammar
import FlowLint.Proofs.Query.DocumentOrder
import FlowLint.Proofs.RulesFile.Shape
import FlowLint.Proofs.Rule.Ending
import FlowLint.Proofs.Bundle.DraftQueries
import FlowLint.Proofs.RulesFile.Extensions
import FlowLint.Proofs.Command.LintReport
import FlowLint.Proofs.Report.ReadBack
import FlowLint.Proofs.RulesFile.UniqueIds
import FlowLint.Proofs.Query.Filters
import FlowLint.Proofs.Report.MarkdownLines
import FlowLint.Proofs.RulesFile.AlikeDocuments
import FlowLint.Proofs.Report.AnnotationLines
import FlowLint.Proofs.Bundle.ManifestFolding
import FlowLint.Proofs.RulesFile.References
import FlowLint.Proofs.Command.GoldenReports
import FlowLint.Proofs.Bundle.Discovered
import FlowLint.Proofs.Catalog.Batches
import FlowLint.Proofs.Issue.Canonical
import FlowLint.Proofs.Markup.Preorder
