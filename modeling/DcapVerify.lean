import DcapVerify.Lib.Checks
import DcapVerify.Lib.Octets
import DcapVerify.Lib.Path
import DcapVerify.Lib.Window
import DcapVerify.Lib.Wire
import DcapVerify.Lib.Selection
import DcapVerify.Lib.Dotted
import DcapVerify.Lib.Fields
import DcapVerify.Lib.Trim
import DcapVerify.Lib.Total
import DcapVerify.Lib.Nesting
import DcapVerify.Lib.Radix
import DcapVerify.Verify
import DcapVerify.Synthetic
import DcapVerify.Differ.Run
import DcapVerify.Differ.Sweep
import DcapVerify.Differ.Command
import DcapVerify.Proof.QuoteGrammar
import DcapVerify.Proof.Authentication
import DcapVerify.Proof.Standing
import DcapVerify.Proof.CrlAuthority
import DcapVerify.Proof.Coverage
import DcapVerify.Proof.Revocation
import DcapVerify.Proof.Time
import DcapVerify.Proof.PolicyOrder
import DcapVerify.Proof.Blame
import DcapVerify.Proof.Peek
import DcapVerify.Proof.PathLength
import DcapVerify.Proof.Padding
import DcapVerify.Proof.QeLevels
import DcapVerify.Proof.TcbLevels
import DcapVerify.Proof.Platform
import DcapVerify.Proof.Binding
import DcapVerify.Proof.Envelope
import DcapVerify.Proof.Differ
import DcapVerify.Proof.InBounds
import DcapVerify.Proof.Trailers
import DcapVerify.Proof.Mutate
import DcapVerify.Proof.Replay
import DcapVerify.Proof.Tamper
import DcapVerify.Proof.Fixtures
import DcapVerify.Proof.Parameters
import DcapVerify.Proof.Rearrange
import DcapVerify.Proof.Recombine
import DcapVerify.Proof.Split
import DcapVerify.Proof.Harness
import DcapVerify.Proof.Interchange
import DcapVerify.Proof.Corpus
import DcapVerify.Proof.Slot
