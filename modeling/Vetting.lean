import Vetting.Bookshelf
import Vetting.Pattern.Reader
import Vetting.Proofs.Batch
import Vetting.Proofs.Chains
import Vetting.Proofs.Deferred
import Vetting.Proofs.Duplicates
import Vetting.Proofs.Groups
import Vetting.Proofs.Insistence
import Vetting.Proofs.Isolation
import Vetting.Proofs.Nullable
import Vetting.Proofs.Order
import Vetting.Proofs.Paths
import Vetting.Proofs.Pending
import Vetting.Proofs.Prefixing
import Vetting.Proofs.Rendering
import Vetting.Proofs.Repetition
import Vetting.Proofs.Run.Authorship
import Vetting.Proofs.Run.Locality
import Vetting.Proofs.Run.Retention
import Vetting.Proofs.Sealing
import Vetting.Proofs.StraightLine
import Vetting.Proofs.Suspending
import Vetting.Proofs.Together
import Vetting.Proofs.Verdict
import Vetting.Session
