import Lineage.CommandLine.Surroundings
import Lineage.Main
import Lineage.Proofs.Acceptance
import Lineage.Proofs.Accounting
import Lineage.Proofs.Acyclicity
import Lineage.Proofs.Appending
import Lineage.Proofs.Association
import Lineage.Proofs.Attribution
import Lineage.Proofs.Balance
import Lineage.Proofs.Blankness
import Lineage.Proofs.Canonical
import Lineage.Proofs.Completion
import Lineage.Proofs.Correlation
import Lineage.Proofs.Derivation
import Lineage.Proofs.Detachment
import Lineage.Proofs.Fetching
import Lineage.Proofs.Interleaving
import Lineage.Proofs.Isolation
import Lineage.Proofs.Keeping
import Lineage.Proofs.Listing
import Lineage.Proofs.Overriding
import Lineage.Proofs.Payloads
import Lineage.Proofs.Refusal
import Lineage.Proofs.Resumption
import Lineage.Proofs.Retention
import Lineage.Proofs.Storage
import Lineage.Proofs.Streams
import Lineage.Proofs.Tracking
import Lineage.Proofs.Transmission
import Lineage.Proofs.Wire
import Lineage.Telemetry.Line
