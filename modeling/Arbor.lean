import Arbor.Build.Invariants
import Arbor.Main
import Arbor.Pipeline.Screen
import Arbor.Proofs.Arithmetic
import Arbor.Proofs.Breakage
import Arbor.Proofs.Calls
import Arbor.Proofs.Compiling
import Arbor.Proofs.Declarations
import Arbor.Proofs.Events
import Arbor.Proofs.Findings
import Arbor.Proofs.Formats
import Arbor.Proofs.Freed
import Arbor.Proofs.Inheritance
import Arbor.Proofs.Latest
import Arbor.Proofs.Parents
import Arbor.Proofs.Paths
import Arbor.Proofs.Presence
import Arbor.Proofs.RoundTrip
import Arbor.Proofs.Using
import Arbor.Tree.Construct
import Arbor.Tree.Readable
import Arbor.Proofs.Restoring
