import Cyclops.Mailbox.Barriers
import Cyclops.Mailbox.Totality
import Cyclops.Mailbox.Follow
import Cyclops.Daemon.WriteBoundary
import Cyclops.Daemon.Observation
import Cyclops.Daemon.Settled
import Cyclops.Daemon.Attention
import Cyclops.Ledger.Crash
import Cyclops.Ledger.Bounded
import Cyclops.Attention.Clearing
import Cyclops.Tmux.Router
import Cyclops.Tmux.Correlation
import Cyclops.Delivery.Limbo
import Cyclops.Delivery.ReceiptTime
import Cyclops.Delivery.Trailer
import Cyclops.Identity.Vendor
import Cyclops.Wire.Frames
import Cyclops.Wire.Reports
import Cyclops.Fusion.Matching
import Cyclops.Fusion.OneAgent
import Cyclops.Fusion.Pins
import Cyclops.Fusion.DedupeKey
import Cyclops.Session.Names
import Cyclops.Session.Identities
import Cyclops.Roster.Loss
import Cyclops.Sizing.OneDriver
import Cyclops.Tmux.Converge
import Cyclops.Tmux.Quote
import Cyclops.Mailbox.LifeCycle
import Cyclops.Wiring.Merge
import Cyclops.Workspace.Naming
import Cyclops.Workspace.FileTree
import Cyclops.Workspace.Selection
import Cyclops.Layout.Restore
import Cyclops.Ui.Follower
import Cyclops.Ui.Intake
import Cyclops.Ui.Queue
import Cyclops.Ui.Wrap
import Cyclops.Update.Pairs
