import RegisterLink.Device
import RegisterLink.Link.Bench
import RegisterLink.Program.Text
import RegisterLink.Proofs.AbortedWaits
import RegisterLink.Proofs.Alignment
import RegisterLink.Proofs.Bits
import RegisterLink.Proofs.Blocks
import RegisterLink.Proofs.Budget
import RegisterLink.Proofs.Bursts
import RegisterLink.Proofs.Cheapest
import RegisterLink.Proofs.Chunks
import RegisterLink.Proofs.Clock
import RegisterLink.Proofs.Codec
import RegisterLink.Proofs.Compilation
import RegisterLink.Proofs.Conversation
import RegisterLink.Proofs.Entries
import RegisterLink.Proofs.Parity
import RegisterLink.Proofs.Pieces
import RegisterLink.Proofs.Realignment
import RegisterLink.Proofs.Recording
import RegisterLink.Proofs.Recovery
import RegisterLink.Proofs.Refinement
import RegisterLink.Proofs.Remainder
import RegisterLink.Proofs.Rendering
import RegisterLink.Proofs.Retries
import RegisterLink.Proofs.ScatterGather
import RegisterLink.Proofs.StaleInput
import RegisterLink.Proofs.Transparency
import RegisterLink.Proofs.Trust
import RegisterLink.Proofs.Waits
import RegisterLink.Proofs.WellFormed
import RegisterLink.Register
import RegisterLink.Session.Command
import RegisterLink.Stream
import RegisterLink.Proofs.Polling
