import TypedMvc.Main
import TypedMvc.Session
import TypedMvc.Template
import TypedMvc.Proofs.Ascending
import TypedMvc.Proofs.Textual
import TypedMvc.Proofs.Uniqueness
import TypedMvc.Proofs.Grouping
import TypedMvc.Proofs.Writing
import TypedMvc.Proofs.Placeholders
import TypedMvc.Proofs.Navigation
import TypedMvc.Proofs.Plan
import TypedMvc.Proofs.Outcome
import TypedMvc.Proofs.Grammar
import TypedMvc.Proofs.Collision
import TypedMvc.Proofs.Coverage
import TypedMvc.Proofs.Success
import TypedMvc.Proofs.Reachability
import TypedMvc.Proofs.DiscoveryOrder
import TypedMvc.Proofs.Independence
import TypedMvc.Proofs.Frame
import TypedMvc.Proofs.Locality
import TypedMvc.Proofs.References
import TypedMvc.Proofs.Vocabulary
import TypedMvc.Proofs.RootArea
import TypedMvc.Proofs.Rows
import TypedMvc.Proofs.Brackets
import TypedMvc.Proofs.Nesting
import TypedMvc.Proofs.Legibility
import TypedMvc.Proofs.Readback
import TypedMvc.Proofs.Hidden
import TypedMvc.Proofs.Misfit
import TypedMvc.Proofs.Spelling
import TypedMvc.Proofs.Files
import TypedMvc.Proofs.Loading
import TypedMvc.Proofs.Metadata
import TypedMvc.Proofs.SettingsFile
import TypedMvc.Proofs.Validation
import TypedMvc.Proofs.Layers
import TypedMvc.Proofs.MetadataFile
import TypedMvc.Proofs.Delivery
import TypedMvc.Proofs.Unambiguous
import TypedMvc.Proofs.Margins
import TypedMvc.Proofs.Quotation
import TypedMvc.Proofs.Stages
import TypedMvc.Proofs.Lookup
import TypedMvc.Proofs.Chronicle
import TypedMvc.Proofs.Fallback
import TypedMvc.Proofs.Indentation
import TypedMvc.Proofs.Escapes
