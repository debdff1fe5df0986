import InterfaceTree.TypeExpr
import InterfaceTree.Declaration
import InterfaceTree.Text.Quoted
import InterfaceTree.Layout
import InterfaceTree.Fault
import InterfaceTree.Name
import InterfaceTree.Walk.Observe
import InterfaceTree.Walk.Rebuild
import InterfaceTree.Walk.Evaluate
import InterfaceTree.Walk.Trace
import InterfaceTree.Store
import InterfaceTree.ClassTable
import InterfaceTree.Substitution
import InterfaceTree.Resolution
import InterfaceTree.Instance.Active
import InterfaceTree.Instance.Specialize
import InterfaceTree.Instance.Instantiate
import InterfaceTree.Cell
import InterfaceTree.Workspace
import InterfaceTree.Workshop
import InterfaceTree.Proofs.Refill
import InterfaceTree.Proofs.Linking
import InterfaceTree.Proofs.Resolution
import InterfaceTree.Proofs.Atoms
import InterfaceTree.Proofs.Cached
import InterfaceTree.Proofs.Canonical
import InterfaceTree.Proofs.Growth
import InterfaceTree.Proofs.Instantiated
import InterfaceTree.Proofs.Specialization
import InterfaceTree.Proofs.Instantiation
import InterfaceTree.Proofs.Frame
import InterfaceTree.Proofs.Closed
import InterfaceTree.Proofs.Sharing
import InterfaceTree.Proofs.Texts
import InterfaceTree.Proofs.Walks
import InterfaceTree.Proofs.Origin
import InterfaceTree.Proofs.Covered
import InterfaceTree.Proofs.Reading
import InterfaceTree.Proofs.Making
import InterfaceTree.Proofs.Flattened
import InterfaceTree.Proofs.Argument
import InterfaceTree.Proofs.Readiness
import InterfaceTree.Proofs.Acceptance
import InterfaceTree.Proofs.Referred
import InterfaceTree.Proofs.Lockstep
import InterfaceTree.Proofs.Commuting
import InterfaceTree.Proofs.Retained
import InterfaceTree.Proofs.Needed
import InterfaceTree.Proofs.Nesting
import InterfaceTree.Proofs.Faults
import InterfaceTree.Proofs.Blocked
import InterfaceTree.Proofs.Recursion
import InterfaceTree.Proofs.Readable
import InterfaceTree.Proofs.Failing
import InterfaceTree.Proofs.Steps
import InterfaceTree.Proofs.Retrying
import InterfaceTree.Proofs.Stack
import InterfaceTree.Proofs.Orderly
import InterfaceTree.Proofs.Reuse
import InterfaceTree.Proofs.Cells
import InterfaceTree.Proofs.Refilled
import InterfaceTree.Proofs.Outline
import InterfaceTree.Proofs.Filling
import InterfaceTree.Proofs.Parallel
import InterfaceTree.Proofs.Matching
import InterfaceTree.Proofs.Corresponding
import InterfaceTree.Proofs.Unused
import InterfaceTree.Proofs.Spelling
import InterfaceTree.Proofs.Postorder
import InterfaceTree.Proofs.Traversals
import InterfaceTree.Proofs.Traces
import InterfaceTree.Proofs.Printed
import InterfaceTree.Proofs.Printable
import InterfaceTree.Proofs.Offender
import InterfaceTree.Proofs.Unquoted
import InterfaceTree.Proofs.Replacement
import InterfaceTree.Proofs.Margins
import InterfaceTree.Proofs.Binding
import InterfaceTree.Proofs.Tables
import InterfaceTree.Proofs.Workshops
import InterfaceTree.Proofs.Receivers
import InterfaceTree.Proofs.Shortened
import InterfaceTree.Proofs.Scopes
import InterfaceTree.Proofs.Referring
import InterfaceTree.Proofs.Firsts
