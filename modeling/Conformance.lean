import Conformance.Address.V4
import Conformance.Address.V6
import Conformance.Binary64
import Conformance.Binary64.Rounding
import Conformance.Callback
import Conformance.Catalog
import Conformance.Constraint
import Conformance.Constraint.Factory
import Conformance.Datum
import Conformance.Decimal.Layout
import Conformance.Decimal.Power
import Conformance.Decimal.Reader
import Conformance.Decimal.Shortest
import Conformance.Descriptor
import Conformance.Invalid
import Conformance.Invalid.Issue
import Conformance.Json
import Conformance.Json.Number
import Conformance.Json.Reader
import Conformance.Json.Token
import Conformance.Json.Writer
import Conformance.Outcome
import Conformance.Pattern
import Conformance.Pattern.Class
import Conformance.Pattern.Places
import Conformance.Pattern.Reader
import Conformance.Pattern.Search
import Conformance.Pattern.Size
import Conformance.Post
import Conformance.Proofs.Binary64.Integers
import Conformance.Proofs.Result
import Conformance.Proofs.Value.Bounds
import Conformance.Proofs.Value.Entries
import Conformance.Proofs.Value.Identity
import Conformance.Proofs.Value.Literals
import Conformance.Proofs.Value.Order
import Conformance.Proofs.Value.Sorted
import Conformance.Schema
import Conformance.SchemaError
import Conformance.Settings
import Conformance.Spec
import Conformance.Spec.Build
import Conformance.Spec.Check
import Conformance.Spec.Same
import Conformance.Text.Blank
import Conformance.Text.Casing
import Conformance.Text.CharClass
import Conformance.Text.Folding
import Conformance.Text.Lower
import Conformance.Text.Printable
import Conformance.Text.Quoted
import Conformance.Text.Utf8
import Conformance.Text.Word
import Conformance.Value
import Conformance.Value.Collection
import Conformance.Value.Json
import Conformance.Value.Kind
import Conformance.Value.Render
import Conformance.Proofs.Mapping.Pass
import Conformance.Proofs.Mapping.Failures
import Conformance.Proofs.Mapping.Meaning
import Conformance.Proofs.Mapping.Collision
import Conformance.Proofs.Stable.Elements
import Conformance.Proofs.Stable.Replay
import Conformance.Proofs.Stable.Keys
import Conformance.Proofs.Stable.Mapping
import Conformance.Proofs.Stable.Check
import Conformance.Proofs.Stable.Union
import Conformance.Proofs.Union.Flattening
import Conformance.Proofs.Union.Ownership
import Conformance.Proofs.Spec.Buildable
import Conformance.Proofs.Spec.Constrained
import Conformance.Proofs.Spec.Sorted
import Conformance.Proofs.Spec.Collections
import Conformance.Proofs.Json.Members
import Conformance.Proofs.Json.Tree
import Conformance.Proofs.Json.Writing
import Conformance.Proofs.Json.Reading
import Conformance.Proofs.Json.Scanning
import Conformance.Proofs.Json.Nesting
import Conformance.Proofs.Post.Steps
import Conformance.Proofs.Post.Tested
import Conformance.Proofs.Spec.Unprovided
import Conformance.Proofs.Spec.Enumerated
import Conformance.Proofs.Spec.Composed
import Conformance.Proofs.Conditional.Selection
import Conformance.Proofs.Conditional.Effect
import Conformance.Proofs.Conditional.Footprint
import Conformance.Proofs.Conditional.Pass
import Conformance.Proofs.Conditional.Unhandled
import Conformance.Proofs.Conditional.Inlining
import Conformance.Proofs.Conditional.Default
import Conformance.Proofs.Conditional.Unset
import Conformance.Proofs.Conditional.Order
import Conformance.Proofs.Conditional.Output
import Conformance.Proofs.Conditional.Alone
import Conformance.Proofs.Conditional.Structure
import Conformance.Proofs.Invalid.Leaves
import Conformance.Proofs.Invalid.Located
import Conformance.Proofs.Invalid.Paths
import Conformance.Proofs.Invalid.Report
import Conformance.Proofs.Spec.Defects
import Conformance.Proofs.Spec.Meaning
import Conformance.Proofs.Spec.Gathering
import Conformance.Proofs.Spec.Pointwise
import Conformance.Proofs.Spec.Interchange
import Conformance.Proofs.Spec.Derivation
import Conformance.Proofs.Spec.Narrowing
import Conformance.Proofs.Spec.Optionality
import Conformance.Proofs.Catalog.ListOrSingle
import Conformance.Proofs.Catalog.Integers
import Conformance.Proofs.Catalog.Addresses
