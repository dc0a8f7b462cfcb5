import KernelDepot.Compilation
import KernelDepot.Depot.Inspect
import KernelDepot.Depot.Loader
import KernelDepot.Depot.Machine
import KernelDepot.Depot.Together
import KernelDepot.Depot.Traffic
import KernelDepot.Fingerprint.Preimage
import KernelDepot.Number.Binary64
import KernelDepot.Provider.Embedded
import KernelDepot.Provider.Table
import KernelDepot.Settings.Draft
import KernelDepot.Toolchain.Simulated
import KernelDepot.Proofs.Artifact.Apart
import KernelDepot.Proofs.Artifact.Committed
import KernelDepot.Proofs.Artifact.Damaged
import KernelDepot.Proofs.Artifact.Kept
import KernelDepot.Proofs.Artifact.Keyed
import KernelDepot.Proofs.Artifact.WriteOnce
import KernelDepot.Proofs.Depot.Accounting
import KernelDepot.Proofs.Depot.Arena
import KernelDepot.Proofs.Depot.Steps
import KernelDepot.Proofs.Depot.Traffic
import KernelDepot.Proofs.Depot.Turns
import KernelDepot.Proofs.Depot.Alone
import KernelDepot.Proofs.Depot.Prepare
import KernelDepot.Proofs.Depot.Outlook
import KernelDepot.Proofs.Depot.Recovery
import KernelDepot.Proofs.Depot.Coverage
import KernelDepot.Proofs.Depot.Persistence
import KernelDepot.Proofs.Depot.Fleet
import KernelDepot.Proofs.Depot.Custody
import KernelDepot.Proofs.Depot.Traceless
import KernelDepot.Proofs.Depot.Refusal
import KernelDepot.Proofs.Depot.Rejected
import KernelDepot.Proofs.Depot.Storeless
import KernelDepot.Proofs.Device.Listed
import KernelDepot.Proofs.Device.Working
import KernelDepot.Proofs.Diagnostic.Displayed
import KernelDepot.Proofs.Diagnostic.Missing
import KernelDepot.Proofs.Diagnostic.Written
import KernelDepot.Proofs.Fingerprint.Faithful
import KernelDepot.Proofs.Fingerprint.Inputs
import KernelDepot.Proofs.Fingerprint.Jobs
import KernelDepot.Proofs.Include.Closure
import KernelDepot.Proofs.Include.Contested
import KernelDepot.Proofs.Include.Literal
import KernelDepot.Proofs.Provider.Contained
import KernelDepot.Proofs.SearchPath.Configured
import KernelDepot.Proofs.SearchPath.History
import KernelDepot.Proofs.SearchPath.Roots
import KernelDepot.Proofs.Toolchain.Nested
import KernelDepot.Proofs.Toolchain.Opened
import KernelDepot.Proofs.Digest.Spelled
import KernelDepot.Proofs.Device.Launch
import KernelDepot.Proofs.Device.Placed
import KernelDepot.Proofs.Arch.Spelled
import KernelDepot.Proofs.Device.Holdings
