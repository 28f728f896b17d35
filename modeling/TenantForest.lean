import TenantForest.Ident
import TenantForest.Text.Blank
import TenantForest.Text.Lowercase
import TenantForest.Text.Visible
import TenantForest.Number.Binary64
import TenantForest.Number.Shortest
import TenantForest.Document
import TenantForest.Document.Read
import TenantForest.Document.Describe
import TenantForest.Fault
import TenantForest.Settings
import TenantForest.Settings.Read
import TenantForest.Page
import TenantForest.Kind
import TenantForest.Entity
import TenantForest.Path
import TenantForest.Store.Basic
import TenantForest.Store.Claim
import TenantForest.Store.Write
import TenantForest.Store.Order
import TenantForest.Store.Lineage
import TenantForest.Walk.Descendants
import TenantForest.Walk.Ancestry
import TenantForest.Dependents
import TenantForest.Forest.Basic
import TenantForest.Forest.Create
import TenantForest.Forest.Cascade
import TenantForest.Forest.Rename
import TenantForest.Forest.Move
import TenantForest.Forest.Remove
import TenantForest.Forest.Query
import TenantForest.View.Outline
import TenantForest.View.Integrity
import TenantForest.Service.Request
import TenantForest.Service.Run
import TenantForest.Service.Relabel
import TenantForest.Report
import TenantForest.Console
import TenantForest.Main
import TenantForest.Proofs.AllOrNothing
import TenantForest.Proofs.Outcome
import TenantForest.Proofs.Keys
import TenantForest.Proofs.Descendants
import TenantForest.Proofs.Lineage
import TenantForest.Proofs.Cascade
import TenantForest.Proofs.Shape
import TenantForest.Proofs.WellFormed
import TenantForest.Proofs.Names
import TenantForest.Proofs.Projection
import TenantForest.Proofs.ProjectedViews
import TenantForest.Proofs.Renumbering
import TenantForest.Proofs.Isolation
import TenantForest.Proofs.Tombstones
import TenantForest.Proofs.Refusals
import TenantForest.Proofs.Relocation
import TenantForest.Proofs.Segments
import TenantForest.Proofs.Preorder
import TenantForest.Proofs.Listing
import TenantForest.Proofs.PathNames
import TenantForest.Proofs.DescendantOrder
import TenantForest.Proofs.MoveDecision
import TenantForest.Proofs.IntegrityReport
import TenantForest.Proofs.Ancestry
import TenantForest.Proofs.Commit
import TenantForest.Proofs.Retire
import TenantForest.Proofs.Relinking
import TenantForest.Proofs.Detours
import TenantForest.Proofs.Paging
import TenantForest.Proofs.Creation
import TenantForest.Proofs.Derivation
import TenantForest.Proofs.Nesting
import TenantForest.Proofs.NestedView
import TenantForest.Proofs.Rooted
