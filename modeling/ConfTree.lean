import ConfTree.Text.Lowercase
import ConfTree.Text.Letters
import ConfTree.Expression.Evaluation
import ConfTree.Error
import ConfTree.Macro.Builtin
import ConfTree.Merge.Policy
import ConfTree.Tree.Subtree
import ConfTree.Evaluation.Value
import ConfTree.Brace.Reader
import ConfTree.Brace.Writer
import ConfTree.Json.Document
import ConfTree.Xml.Reader
import ConfTree.Xml.Writer
import ConfTree.Toml.Datetime
import ConfTree.Toml.Quoted
import ConfTree.Document.Text
import ConfTree.Merge.Overlay
import ConfTree.Comparison
import ConfTree.Binding
import ConfTree.Script.Run
import ConfTree.Text.Split
import ConfTree.Layer.Build
import ConfTree.Tree.Description
import ConfTree.Evaluation.Reading
import ConfTree.Decimal.Power
import ConfTree.Proofs.Path.Canonical
import ConfTree.Proofs.Brace.RoundTrip
import ConfTree.Proofs.Merge.Associative
import ConfTree.Proofs.Evaluation.Values
import ConfTree.Proofs.Merge.Idempotent
import ConfTree.Proofs.Merge.Stopped
import ConfTree.Proofs.Merge.Policies
import ConfTree.Proofs.Merge.Embedding
import ConfTree.Proofs.Expression.Rendering
import ConfTree.Proofs.Script.Ends
import ConfTree.Proofs.Script.Independence
import ConfTree.Proofs.Script.Limits
import ConfTree.Proofs.Operation.Frozen
import ConfTree.Proofs.Script.Output
import ConfTree.Proofs.Xml.RoundTrip
import ConfTree.Proofs.Xml.Representable
import ConfTree.Proofs.Document.Unmistakable
import ConfTree.Proofs.Evaluation.CanonicalReference
import ConfTree.Proofs.Layer.Merging
import ConfTree.Proofs.Layer.Environment
import ConfTree.Proofs.Script.Assignments
import ConfTree.Proofs.Script.Conditionals
import ConfTree.Proofs.Script.Counting
import ConfTree.Proofs.Script.Rereading
import ConfTree.Proofs.Path.Failures
import ConfTree.Proofs.Path.Coalescing
import ConfTree.Proofs.Path.Malformed
import ConfTree.Proofs.Path.Lookup
import ConfTree.Proofs.Evaluation.SelectingReference
import ConfTree.Proofs.Evaluation.Agreement
import ConfTree.Proofs.Evaluation.Composition
import ConfTree.Proofs.Evaluation.Stack
import ConfTree.Proofs.Evaluation.SelfContained
import ConfTree.Proofs.Tree.Equivalence
import ConfTree.Proofs.Operation.Untouched
import ConfTree.Proofs.Tree.Removal
import ConfTree.Proofs.Operation.Modified
import ConfTree.Proofs.Merge.Occurrences
import ConfTree.Proofs.Merge.Itself
import ConfTree.Proofs.Merge.Flags
import ConfTree.Proofs.Merge.Appending
import ConfTree.Proofs.Expression.Exactness
import ConfTree.Proofs.Expression.Printing
import ConfTree.Proofs.Binding.Tables
import ConfTree.Proofs.Layer.Variables
import ConfTree.Proofs.Macro.Calls
import ConfTree.Proofs.Brace.Spacing
import ConfTree.Proofs.Xml.Lossless
import ConfTree.Proofs.Macro.Conversion
