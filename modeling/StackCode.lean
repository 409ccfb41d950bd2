import StackCode.Closure
import StackCode.Dump.Program
import StackCode.Dump.Settings
import StackCode.Image.Decode
import StackCode.Image.Encode
import StackCode.Inspect.Run
import StackCode.Listing
import StackCode.Main
import StackCode.Names.Pool
import StackCode.RecordHeap
import StackCode.Session
import StackCode.Verification
import StackCode.Proofs.Bytes.Requests
import StackCode.Proofs.Bytes.Utf8
import StackCode.Proofs.Frame.Capture
import StackCode.Proofs.Frame.Containment
import StackCode.Proofs.Frame.Layers
import StackCode.Proofs.Frame.Misuse
import StackCode.Proofs.Image.Descent
import StackCode.Proofs.Image.Extension
import StackCode.Proofs.Image.Limits
import StackCode.Proofs.Image.Nesting
import StackCode.Proofs.Image.Report
import StackCode.Proofs.Image.RoundTrip
import StackCode.Proofs.Image.Sending
import StackCode.Proofs.Listing.Lines
import StackCode.Proofs.Names.History
import StackCode.Proofs.Program.Arena
import StackCode.Proofs.Program.Provenance
import StackCode.Proofs.Session
import StackCode.Proofs.Verification.Bounds
import StackCode.Proofs.Verification.First
import StackCode.Proofs.Verification.Lines
import StackCode.Proofs.Verification.Storing
