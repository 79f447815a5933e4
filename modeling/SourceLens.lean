import SourceLens.Builtin.Json
import SourceLens.Data.Json
import SourceLens.Log.Router
import SourceLens.Proofs.Indented.Completeness
import SourceLens.Proofs.Indented.Injection
import SourceLens.Proofs.Indented.Leading
import SourceLens.Proofs.Indented.Nesting
import SourceLens.Proofs.Indented.Signatures
import SourceLens.Proofs.Indented.Stability
import SourceLens.Proofs.Indented.Unread
import SourceLens.Proofs.Markup.Placement
import SourceLens.Proofs.Markup.Stability
import SourceLens.Proofs.Registry.History
import SourceLens.Proofs.Registry.Reach
import SourceLens.Proofs.Script.Sealed
import SourceLens.Proofs.Stylesheet.Injection
import SourceLens.Proofs.Stylesheet.Leading
import SourceLens.Proofs.Stylesheet.Masking
import SourceLens.Proofs.Tree.Faults
import SourceLens.Builtin.Packages
import SourceLens.Registry
import SourceLens.Settings.Load
import SourceLens.Text.Lemmas
import SourceLens.Text.Utf8.Lemmas
import SourceLens.Tree.Lemmas
import SourceLens.Proofs.Indented.Brackets
import SourceLens.Proofs.Indented.Suites
import SourceLens.Proofs.Indented.Literals
import SourceLens.Proofs.Indented.Verbatim
import SourceLens.Proofs.Indented.Indenting
import SourceLens.Proofs.Indented.Wrapping
import SourceLens.Proofs.Indented.Functions
import SourceLens.Proofs.Indented.Structure
import SourceLens.Proofs.Indented.Generated
import SourceLens.Proofs.Indented.Classes
import SourceLens.Proofs.Indented.Spelling
import SourceLens.Proofs.ReadBack
import SourceLens.Proofs.Script.Generated
import SourceLens.Proofs.Script.Injection
import SourceLens.Proofs.Script.Settled
import SourceLens.Proofs.Markup.Containment
import SourceLens.Proofs.Markup.Reflow
import SourceLens.Proofs.Stylesheet.Merging
import SourceLens.Proofs.Tree.Choice
import SourceLens.Proofs.Tree.Walker
import SourceLens.Proofs.Data.Paths
import SourceLens.Proofs.Indented.Joining
import SourceLens.Proofs.Indented.Balance
import SourceLens.Proofs.Settings.Failures
import SourceLens.Proofs.Settings.Precedence
import SourceLens.Proofs.Settings.Stability
