import Workflow.Main
import Workflow.Json.Reader
import Workflow.Session.Basic
import Workflow.Step.Branch
import Workflow.Step.Registration
import Workflow.Proofs.Decimal.ReadBack
import Workflow.Proofs.Decimal.Numeral
import Workflow.Proofs.Json.Number
import Workflow.Proofs.Json.Lexing
import Workflow.Proofs.Json.RoundTrip
import Workflow.Proofs.Config.Building
import Workflow.Proofs.Config.Placeholder
import Workflow.Proofs.Document.ReadBack
import Workflow.Proofs.Config.Lowering
import Workflow.Proofs.Document.Distinct
import Workflow.Proofs.Document.Shrinking
import Workflow.Proofs.Pipeline.Identity
import Workflow.Proofs.Config.Acceptance
import Workflow.Proofs.Document.NormalForm
import Workflow.Proofs.Pipeline.Expansion
import Workflow.Proofs.Step.Grouping
import Workflow.Proofs.Pipeline.Declaration
import Workflow.Proofs.Session.Polling
import Workflow.Proofs.Session.Discipline
import Workflow.Proofs.Session.Contention
import Workflow.Proofs.Session.Upsert
import Workflow.Proofs.Session.Failure
import Workflow.Proofs.Json.Equality
import Workflow.Proofs.Document.Equality
import Workflow.Proofs.Pipeline.Equality
import Workflow.Proofs.Config.Schema
import Workflow.Proofs.Document.Location
import Workflow.Proofs.Config.Reference
import Workflow.Proofs.Config.ParameterName
import Workflow.Proofs.Record.Members
import Workflow.Proofs.Config.RoundTrip
import Workflow.Proofs.Calendar.ReadBack
import Workflow.Proofs.Service.RoundTrip
import Workflow.Proofs.CommandLine.Agreement
import Workflow.Proofs.Condition.Operands
import Workflow.Proofs.Step.Branching
import Workflow.Proofs.Decimal.Notation
import Workflow.Proofs.Json.FloatText
import Workflow.Proofs.Json.Literal
import Workflow.Proofs.Document.Representatives
import Workflow.Proofs.Document.Staging
import Workflow.Proofs.Config.Recognition
import Workflow.Proofs.Document.Shape
import Workflow.Proofs.Config.Dangling
import Workflow.Proofs.Condition.Lowering
import Workflow.Proofs.Pipeline.Batch
import Workflow.Proofs.Session.Override
import Workflow.Proofs.Reference.Apart
