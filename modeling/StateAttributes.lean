import StateAttributes.Debug
import StateAttributes.Inclusion
import StateAttributes.Scope
import StateAttributes.Script
import StateAttributes.Proofs.Declaration
import StateAttributes.Proofs.Layout
import StateAttributes.Proofs.Acceptance
import StateAttributes.Proofs.Preorder
import StateAttributes.Proofs.Expansion
import StateAttributes.Proofs.Legality
import StateAttributes.Proofs.Course
import StateAttributes.Proofs.Conduct
import StateAttributes.Proofs.ScriptedRun
import StateAttributes.Proofs.Recovery
import StateAttributes.Proofs.Ending
import StateAttributes.Proofs.Concord
import StateAttributes.Proofs.Flattening
import StateAttributes.Proofs.Delivery
import StateAttributes.Proofs.Independence
import StateAttributes.Proofs.DeclarationText
import StateAttributes.Proofs.StoredText
import StateAttributes.Proofs.Ancestry
import StateAttributes.Proofs.Recollection
import StateAttributes.Proofs.Assembly
import StateAttributes.Proofs.NetChange
import StateAttributes.Proofs.WaysOut
import StateAttributes.Proofs.ChangedNames
import StateAttributes.Proofs.Reordering
import StateAttributes.Proofs.Rounds
import StateAttributes.Proofs.Validation
import StateAttributes.Proofs.Selection
import StateAttributes.Proofs.Standstill
import StateAttributes.Proofs.TreeText
import StateAttributes.Proofs.Nesting
import StateAttributes.Proofs.Traversal
