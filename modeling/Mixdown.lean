import Mixdown.Arena
import Mixdown.Config.Text
import Mixdown.Decimal
import Mixdown.Effect.Rack
import Mixdown.Fft
import Mixdown.Load
import Mixdown.Loudness
import Mixdown.Main
import Mixdown.Memory
import Mixdown.Proofs.Renderer.Session
import Mixdown.Renderer
import Mixdown.Request.Run
import Mixdown.Revision
import Mixdown.Signal.Fixed
import Mixdown.Signal.Level
import Mixdown.Spectrum
import Mixdown.Splitter
import Mixdown.Splitter.Graph
import Mixdown.Wave
import Mixdown.Proofs.Footprint
import Mixdown.Proofs.Verification
import Mixdown.Proofs.Overflow
import Mixdown.Proofs.Desk
import Mixdown.Proofs.Locality
import Mixdown.Proofs.Commutation
import Mixdown.Proofs.Fft.Passes
import Mixdown.Proofs.Fft.Plan
import Mixdown.Proofs.Fft.Fourier
import Mixdown.Proofs.Fft.Inversion
import Mixdown.Proofs.Loudness.History
import Mixdown.Proofs.Loudness.Session
import Mixdown.Proofs.Loudness.InPlace
import Mixdown.Proofs.Loudness.Unheard
import Mixdown.Proofs.Effect.Bay
import Mixdown.Proofs.Effect.Lifecycle
import Mixdown.Proofs.Effect.Publication
import Mixdown.Proofs.Config.Records
import Mixdown.Proofs.Effect.Bypass
import Mixdown.Proofs.Load
import Mixdown.Proofs.Splitter.Resend
import Mixdown.Proofs.Splitter.Taken
import Mixdown.Proofs.Recurrence
import Mixdown.Proofs.Blocks
import Mixdown.Proofs.Routing
import Mixdown.Proofs.Splitter.Overrun
import Mixdown.Proofs.Effect.Window
import Mixdown.Proofs.Effect.Generation
import Mixdown.Proofs.Splitter.Starts
import Mixdown.Proofs.Splitter.Volumes
import Mixdown.Proofs.Splitter.Unread
import Mixdown.Proofs.Fft.Calls
import Mixdown.Proofs.Effect.Validation
import Mixdown.Proofs.Memory
import Mixdown.Proofs.Arena
import Mixdown.Proofs.Fixed
import Mixdown.Proofs.Spectrum
import Mixdown.Proofs.Wave.Sound
