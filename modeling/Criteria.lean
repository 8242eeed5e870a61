import Criteria.Condition
import Criteria.Proofs.Boundness
import Criteria.Proofs.Progress
import Criteria.Proofs.Acceptance
import Criteria.Proofs.Culprit
import Criteria.Proofs.Formula
import Criteria.Proofs.Consultation
import Criteria.Proofs.EqualValues
import Criteria.Proofs.Respelling
import Criteria.Proofs.Provenance
import Criteria.Proofs.SetOperators
import Criteria.Proofs.Depth
import Criteria.Proofs.Calls
import Criteria.Proofs.Unambiguous
import Criteria.Proofs.LosslessDump
import Criteria.Proofs.Traversal
import Criteria.Proofs.Mirror
import Criteria.Proofs.FirstViolation
import Criteria.Proofs.EarlyCheck
import Criteria.Proofs.WrittenNames
import Criteria.Proofs.ObtainedPaths
import Criteria.Proofs.FirstOccurrences
import Criteria.Proofs.DefaultArguments
import Criteria.Proofs.FirstPlaceholder
