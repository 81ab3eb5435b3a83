import Unwind.Json.Writer
import Unwind.Listing.Codec
import Unwind.Machine.Entry
import Unwind.Main
import Unwind.Proofs.NearestHandler
import Unwind.Proofs.InnermostHandler
import Unwind.Proofs.EnsureCode
import Unwind.Proofs.Pending
import Unwind.Proofs.Transparency
import Unwind.Proofs.BreakLanding
import Unwind.Proofs.ReturnLanding
import Unwind.Proofs.Origin
import Unwind.Proofs.Hearing
import Unwind.Proofs.LambdaBoundary
import Unwind.Proofs.Validation
import Unwind.Proofs.RegisterFile
import Unwind.Proofs.FailingInstruction
import Unwind.Proofs.Tracing
import Unwind.Proofs.StackMirror
import Unwind.Proofs.Brackets
import Unwind.Proofs.Counting
import Unwind.Proofs.NamedCalls
import Unwind.Proofs.Observation
import Unwind.Proofs.DepthLimit
import Unwind.Proofs.Termination
import Unwind.Proofs.Location
import Unwind.Proofs.Loading
import Unwind.Proofs.Raising
import Unwind.Proofs.Dump
import Unwind.Proofs.FreshLabels
import Unwind.Proofs.RoundTrip
import Unwind.Proofs.RenamedPrograms
import Unwind.Proofs.FreshLabels
