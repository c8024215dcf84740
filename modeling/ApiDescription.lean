import ApiDescription.Main
import ApiDescription.Workbench.Script
import ApiDescription.Proofs.Allocation
import ApiDescription.Proofs.ClassAgreement
import ApiDescription.Proofs.ClassHistory
import ApiDescription.Proofs.Constructors
import ApiDescription.Proofs.Dispatch
import ApiDescription.Proofs.Endpoints
import ApiDescription.Proofs.Expansions
import ApiDescription.Proofs.Indentation
import ApiDescription.Proofs.InlineTypes
import ApiDescription.Proofs.MatchedValues
import ApiDescription.Proofs.MatchingLaws
import ApiDescription.Proofs.PageNames
import ApiDescription.Proofs.Places
import ApiDescription.Proofs.PlainClients
import ApiDescription.Proofs.Randomizing
import ApiDescription.Proofs.References
import ApiDescription.Proofs.Reordering
import ApiDescription.Proofs.ResourcePages
import ApiDescription.Proofs.Signatures
import ApiDescription.Proofs.Subject
import ApiDescription.Proofs.Templates
import ApiDescription.Proofs.Variants
import ApiDescription.Proofs.Workbench
