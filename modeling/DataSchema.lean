import DataSchema.Json.Reader
import DataSchema.Path.Reader
import DataSchema.Pattern.Reader
import DataSchema.Text.CharClass
import DataSchema.Validation.Issue
import DataSchema.Access.Accessor
import DataSchema.Schema.Document
import DataSchema.Schema.Facet
import DataSchema.Schema.Merge
import DataSchema.Validation.Session
import DataSchema.Registry.Load
import DataSchema.Registry.Reference
import DataSchema.Proofs.Results
import DataSchema.Proofs.Evaluation
import DataSchema.Proofs.Facets
import DataSchema.Proofs.Nesting
import DataSchema.Proofs.Acceptance
import DataSchema.Proofs.Conforming
import DataSchema.Proofs.FirstError
import DataSchema.Proofs.Handle
import DataSchema.Proofs.Lists
import DataSchema.Proofs.Members
import DataSchema.Proofs.Values
import DataSchema.Proofs.Rewriting
import DataSchema.Proofs.Rewritten
import DataSchema.Proofs.Checked
import DataSchema.Proofs.Effects
import DataSchema.Proofs.Frame
import DataSchema.Proofs.Order
import DataSchema.Proofs.Checking
import DataSchema.Proofs.Reordering
import DataSchema.Proofs.Related
import DataSchema.Proofs.OrderFree
import DataSchema.Proofs.Reading
import DataSchema.Proofs.Rebuilding
import DataSchema.Proofs.Inlining
import DataSchema.Proofs.Trail
import DataSchema.Proofs.Dereference
import DataSchema.Proofs.Inlined
import DataSchema.Proofs.Loading
import DataSchema.Proofs.ShownText
import DataSchema.Proofs.PathText
import DataSchema.Proofs.Replacing
import DataSchema.Proofs.Lens
import DataSchema.Proofs.Governing
import DataSchema.Proofs.Sharing
import DataSchema.Proofs.Run
import DataSchema.Proofs.Freezing
import DataSchema.Proofs.Attempts
import DataSchema.Proofs.Writing
import DataSchema.Proofs.Construction
import DataSchema.Proofs.Transforming
import DataSchema.Proofs.Strictness
import DataSchema.Proofs.PointerText
import DataSchema.Proofs.Locating
import DataSchema.Proofs.Nullability
import DataSchema.Proofs.Equivalence
import DataSchema.Proofs.Sameness
import DataSchema.Proofs.Objects
import DataSchema.Proofs.Merging
import DataSchema.Proofs.Merged
import DataSchema.Proofs.Mapping
import DataSchema.Proofs.Relaxing
import DataSchema.Proofs.Steadiness
import DataSchema.Proofs.Policies
import DataSchema.Proofs.Rules
import DataSchema.Proofs.Optionals
import DataSchema.Proofs.Overlaying
import DataSchema.Proofs.Picking
import DataSchema.Proofs.Renamed
import DataSchema.Proofs.Renaming
import DataSchema.Proofs.Unwrapping
import DataSchema.Proofs.Faults
import DataSchema.Proofs.Obstacles
import DataSchema.Proofs.Naming
import DataSchema.Proofs.PathJoining
import DataSchema.Proofs.DocumentOrder
import DataSchema.Proofs.Layers
import DataSchema.Proofs.Adding
import DataSchema.Proofs.Rounding
import DataSchema.Proofs.Distinctness
import DataSchema.Proofs.NumberText
