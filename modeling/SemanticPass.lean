import SemanticPass.Files.Tree
import SemanticPass.Main
import SemanticPass.Proofs.Table.Occurrences
import SemanticPass.Proofs.Table.Symbols
import SemanticPass.Proofs.Run.Effects
import SemanticPass.Proofs.Run.Recording
import SemanticPass.Proofs.Run.Resolution
import SemanticPass.Proofs.Run.Redeclaration
import SemanticPass.Proofs.Text.Fields
import SemanticPass.Proofs.Text.Numerals
import SemanticPass.Proofs.Event.Grammar
import SemanticPass.Proofs.Text.PhysicalLines
import SemanticPass.Proofs.Run.FirstFault
import SemanticPass.Proofs.Table.LinearScan
import SemanticPass.Proofs.Run.FirstRecording
import SemanticPass.Proofs.Run.TypeChecks
import SemanticPass.Proofs.Listing.Rows
import SemanticPass.Proofs.Table.Tokens
import SemanticPass.Proofs.Run.Texts
import SemanticPass.Proofs.Listing.Faithful
import SemanticPass.Proofs.Run.Blocks
import SemanticPass.Proofs.Run.Parts
import SemanticPass.Proofs.Table.Growth
import SemanticPass.Proofs.Run.Growth
import SemanticPass.Proofs.Files.Tree
import SemanticPass.Proofs.Files.Programs
import SemanticPass.Proofs.Program.Listings
import SemanticPass.Proofs.Program.Outcome
import SemanticPass.Proofs.Run.Refusals
import SemanticPass.Proofs.Run.GlobalScope
import SemanticPass.Proofs.Run.Builtins
import SemanticPass.Proofs.Run.Journal
import SemanticPass.Proofs.Program.Presentation
import SemanticPass.Proofs.Files.Alike
import SemanticPass.Proofs.Run.ErrorFlag
import SemanticPass.Proofs.Run.ScopeCounts
import SemanticPass.Proofs.Run.RowOrder
import SemanticPass.Proofs.Run.Layout
import SemanticPass.Proofs.Run.Classification
import SemanticPass.Proofs.Libraries.Standard
import SemanticPass.Proofs.Settings.Precedence
