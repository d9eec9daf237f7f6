import Polarity.Text.Order
import Polarity.Diagnostic.Ledger
import Polarity.Command
import Polarity.Version
import Polarity.Main
import Polarity.Proofs.Schedule
import Polarity.Proofs.Safety
import Polarity.Proofs.Viability
import Polarity.Proofs.Printing
import Polarity.Proofs.Ranges
import Polarity.Proofs.NormalForms
import Polarity.Proofs.Closure
import Polarity.Proofs.Relayout
import Polarity.Proofs.Reordering
import Polarity.Proofs.Comparison
import Polarity.Proofs.Monotonicity
import Polarity.Proofs.Concatenation
import Polarity.Proofs.Modularity
import Polarity.Proofs.Redeclaration
import Polarity.Proofs.Offences
import Polarity.Proofs.Policies
import Polarity.Proofs.Interleaving
import Polarity.Proofs.Layering
import Polarity.Proofs.Convergence
import Polarity.Proofs.Dependence
import Polarity.Proofs.Undeclared
import Polarity.Proofs.Partition
import Polarity.Proofs.Rendering
import Polarity.Proofs.Sharing
import Polarity.Proofs.Sameness
import Polarity.Proofs.Locations
import Polarity.Proofs.Sections
