import UncheckedErrors.Calls
import UncheckedErrors.Check
import UncheckedErrors.CommandLine.Arguments
import UncheckedErrors.CommandLine.Session
import UncheckedErrors.Datum.Basic
import UncheckedErrors.Datum.Reader
import UncheckedErrors.Depth
import UncheckedErrors.Diagnostic
import UncheckedErrors.Disk
import UncheckedErrors.Dump.Form
import UncheckedErrors.Dump.Program
import UncheckedErrors.Dump.Trees
import UncheckedErrors.Dump.Types
import UncheckedErrors.Embedding
import UncheckedErrors.Exclusion.Index
import UncheckedErrors.Exclusion.Vendor
import UncheckedErrors.Fault
import UncheckedErrors.GoType.Basic
import UncheckedErrors.GoType.Methods
import UncheckedErrors.GoType.Table
import UncheckedErrors.Load
import UncheckedErrors.Main
import UncheckedErrors.Notice
import UncheckedErrors.Number.Binary64
import UncheckedErrors.Number.Decimal
import UncheckedErrors.Object
import UncheckedErrors.OrderedMap
import UncheckedErrors.Pattern.Alternatives
import UncheckedErrors.Pattern.Basic
import UncheckedErrors.Pattern.Library
import UncheckedErrors.Pattern.Mistake
import UncheckedErrors.Pattern.Parser
import UncheckedErrors.Pattern.Token
import UncheckedErrors.Program
import UncheckedErrors.Proofs.CallCount
import UncheckedErrors.Proofs.CompletionOrder
import UncheckedErrors.Proofs.Depths
import UncheckedErrors.Proofs.Effort
import UncheckedErrors.Proofs.Grammar
import UncheckedErrors.Proofs.Merge
import UncheckedErrors.Proofs.Nesting
import UncheckedErrors.Proofs.Readers
import UncheckedErrors.Proofs.RoundTrip
import UncheckedErrors.Proofs.Scan
import UncheckedErrors.Proofs.TreeForms
import UncheckedErrors.Proofs.TypeForms
import UncheckedErrors.Run
import UncheckedErrors.RunResults
import UncheckedErrors.Source
import UncheckedErrors.Text.Blank
import UncheckedErrors.Text.Case
import UncheckedErrors.Text.Quoted
import UncheckedErrors.Text.Word
import UncheckedErrors.Tree.Basic
import UncheckedErrors.Tree.Walk
import UncheckedErrors.Proofs.PackageRules
import UncheckedErrors.Proofs.PackageSelection
import UncheckedErrors.Proofs.SymbolRules
import UncheckedErrors.Proofs.LineBreaks
import UncheckedErrors.Proofs.Outlines
import UncheckedErrors.Proofs.Parentheses
import UncheckedErrors.Proofs.MethodSets
import UncheckedErrors.Proofs.Descents
import UncheckedErrors.Proofs.SelectionChains
import UncheckedErrors.Proofs.Coherence
import UncheckedErrors.Proofs.TypeDefinitions
import UncheckedErrors.Proofs.PromotedMethods
import UncheckedErrors.Proofs.Suppression
import UncheckedErrors.Proofs.Containment
import UncheckedErrors.Proofs.Names
import UncheckedErrors.Proofs.Mentions
import UncheckedErrors.Proofs.Contributions
import UncheckedErrors.Proofs.TypeEntries
import UncheckedErrors.Proofs.DefinitionOrder
import UncheckedErrors.Proofs.Batches
import UncheckedErrors.Proofs.Monotonicity
import UncheckedErrors.Proofs.MoreRules
import UncheckedErrors.Proofs.SharedFiles
import UncheckedErrors.Proofs.FileSwitches
import UncheckedErrors.Proofs.VendoredPaths
import UncheckedErrors.Proofs.ExitStatus
import UncheckedErrors.Proofs.Places.Access
import UncheckedErrors.Proofs.Places.Chains
import UncheckedErrors.Proofs.Places.Checks
import UncheckedErrors.Proofs.Places.Expressions
import UncheckedErrors.Proofs.Places.Outcomes
import UncheckedErrors.Proofs.PathPatterns
import UncheckedErrors.Proofs.SourceLines
import UncheckedErrors.Proofs.DeclarationOrder
import UncheckedErrors.Proofs.LeadingOperands
import UncheckedErrors.Proofs.VendorFree
import UncheckedErrors.Proofs.RuleLists
import UncheckedErrors.Proofs.Fields
import UncheckedErrors.Proofs.TypeReading
