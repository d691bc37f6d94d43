import EntityRules.Access
import EntityRules.Config.Reading
import EntityRules.Event.Outcome
import EntityRules.Json.Reader
import EntityRules.Schema.Form
import EntityRules.Schema.Loading
import EntityRules.Proofs.FirstFault
import EntityRules.Proofs.Lists
import EntityRules.Proofs.Tables
import EntityRules.Proofs.Decimal.RoundTrip
import EntityRules.Proofs.Decimal.Quotients
import EntityRules.Proofs.Json.Members
import EntityRules.Proofs.Leaf.RoundTrip
import EntityRules.Proofs.Path.RoundTrip
import EntityRules.Proofs.Path.DottedForm
import EntityRules.Proofs.Expr.Literals
import EntityRules.Proofs.Expr.Steps
import EntityRules.Proofs.Expr.Kinds
import EntityRules.Proofs.Expr.Names
import EntityRules.Proofs.Expr.Grammar
import EntityRules.Proofs.Expr.IdleMembers
import EntityRules.Proofs.Expr.RoundTrip
import EntityRules.Proofs.Expr.Rewriting
import EntityRules.Proofs.Expr.Reads
import EntityRules.Proofs.Expr.Soundness
import EntityRules.Proofs.Expr.Chains
import EntityRules.Proofs.Expr.Connectives
import EntityRules.Proofs.Expr.Selection
import EntityRules.Proofs.Expr.Strictness
import EntityRules.Proofs.Expr.Arithmetic
import EntityRules.Proofs.Leaf.WholeNumbers
import EntityRules.Proofs.Leaf.Equality
import EntityRules.Proofs.Leaf.Coercions
import EntityRules.Proofs.Schema.Routes
import EntityRules.Proofs.Schema.Validity
import EntityRules.Proofs.Schema.Arrangement
import EntityRules.Proofs.Schema.Declarations
import EntityRules.Proofs.Schema.Shape
import EntityRules.Proofs.Schema.Leaves
import EntityRules.Proofs.Schema.Readable
import EntityRules.Proofs.Schema.RoundTrip
import EntityRules.Proofs.Schema.Distinct
import EntityRules.Proofs.Schema.Reload
import EntityRules.Proofs.Ownership.Unlock
import EntityRules.Proofs.Ownership.Rights
import EntityRules.Proofs.Ownership.Listing
import EntityRules.Proofs.Ownership.DeclaredPaths
import EntityRules.Proofs.Ownership.Borrowing
import EntityRules.Proofs.Ownership.Derived
import EntityRules.Proofs.Schema.Rules
import EntityRules.Proofs.Schema.LoadFaults
import EntityRules.Proofs.Effects.Blocks
import EntityRules.Proofs.Environment.Insertion
import EntityRules.Proofs.Environment.Building
import EntityRules.Proofs.Environment.InPlace
import EntityRules.Proofs.Environment.Canonical
import EntityRules.Proofs.Expr.Answers
import EntityRules.Proofs.Expr.Failures
import EntityRules.Proofs.Effects.Gating
import EntityRules.Proofs.Access.Marks
import EntityRules.Proofs.Access.Ancestors
import EntityRules.Proofs.Event.Footprint
import EntityRules.Proofs.Event.CurrentValues
import EntityRules.Proofs.Effects.Changes
