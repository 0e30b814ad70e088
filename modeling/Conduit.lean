import Conduit.Config.Settings
import Conduit.Frame.Session
import Conduit.Lease.Session
import Conduit.Observe.Session
import Conduit.Pool.Session
import Conduit.Ring.Session
import Conduit.Signal.Session
import Conduit.Proofs.Signal.Counter
import Conduit.Proofs.Signal.Word
import Conduit.Proofs.Signal.Tracked
import Conduit.Proofs.Signal.Slim
import Conduit.Proofs.Signal.Line
import Conduit.Proofs.Signal.Queue
import Conduit.Proofs.Signal.Spin
import Conduit.Proofs.Named
import Conduit.Proofs.Signal.Seat
import Conduit.Proofs.Signal.Roster
import Conduit.Proofs.Signal.Answers
import Conduit.Proofs.Signal.Runs
import Conduit.Proofs.Signal.Wakeups
import Conduit.Proofs.Ring.Store
import Conduit.Proofs.Ring.Stream
import Conduit.Proofs.Ring.Ledger
import Conduit.Proofs.Ring.Gate
import Conduit.Proofs.Ring.Sides
import Conduit.Proofs.Ring.Guard
import Conduit.Proofs.Ring.Ends
import Conduit.Proofs.Ring.Wakeups
import Conduit.Proofs.Lease.Word
import Conduit.Proofs.Lease.Phase
import Conduit.Proofs.Lease.Tenancy
import Conduit.Proofs.Lease.Course
import Conduit.Proofs.Lease.Conduct
import Conduit.Proofs.Lease.Accounts
import Conduit.Proofs.Lease.Resolution
import Conduit.Proofs.Lease.Isolation
import Conduit.Proofs.Lease.Abandonment
import Conduit.Proofs.Lease.Awaiting
import Conduit.Proofs.Pool.Row
import Conduit.Proofs.Lease.Stock
import Conduit.Proofs.Pool.Custody
import Conduit.Proofs.Pool.Conservation
import Conduit.Proofs.Pool.Calm
import Conduit.Proofs.Pool.Counting
import Conduit.Proofs.Pool.Likeness
import Conduit.Proofs.Pool.Meters
import Conduit.Proofs.Pool.Hooks
import Conduit.Proofs.Ring.Closing
import Conduit.Proofs.Ring.Fifo
import Conduit.Proofs.Ring.Views
import Conduit.Proofs.Ring.PushPull
import Conduit.Proofs.Ring.Ways
import Conduit.Proofs.Ring.Writing
import Conduit.Proofs.Ring.Reading
import Conduit.Proofs.Ring.Stalls
import Conduit.Proofs.Ring.Suspensions
import Conduit.Proofs.Ring.Registrations
import Conduit.Proofs.Signal.Missed
import Conduit.Proofs.Signal.Sweep
import Conduit.Proofs.Signal.Dated
import Conduit.Proofs.Signal.Cancelling
import Conduit.Proofs.Signal.Arrival
import Conduit.Proofs.Signal.Twins
import Conduit.Proofs.Signal.Forsaking
import Conduit.Proofs.Signal.Listing
import Conduit.Proofs.Signal.Exact
import Conduit.Proofs.Signal.Packing
import Conduit.Proofs.Passes
import Conduit.Proofs.Ring.Passes
import Conduit.Proofs.Signal.Relays
import Conduit.Proofs.Ring.Relays
import Conduit.Proofs.Text.Bytes
import Conduit.Proofs.Text.Lossy
import Conduit.Proofs.Frame.Buffer
import Conduit.Proofs.Frame.Stream
import Conduit.Proofs.Frame.Desk
import Conduit.Proofs.Frame.Decoder
import Conduit.Proofs.Frame.Pipeline
import Conduit.Proofs.Frame.RoundTrip
