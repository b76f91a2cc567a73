import Voicers.Lib.SortedMap
import Voicers.Lib.FirstMatch
import Voicers.Lib.Trace
import Voicers.Lib.Base64
import Voicers.Lib.Bytes
import Voicers.Lib.Cursor
import Voicers.Lib.TwoRuns
import Voicers.Lib.Outbox
import Voicers.Lib.Post
import Voicers.Lib.Ranked
import Voicers.Core.Status
import Voicers.Core.Rooms
import Voicers.Media.Jitter
import Voicers.Media.JitterStep
import Voicers.Media.JitterInvariant
import Voicers.Media.JitterTimeline
import Voicers.Media.JitterReplay
import Voicers.Media.JitterAccounting
import Voicers.Media.JitterDepth
import Voicers.Media.JitterDrain
import Voicers.Media.JitterBlind
import Voicers.Media.Engine
import Voicers.Media.EngineStep
import Voicers.Media.Receive
import Voicers.Media.Capture
import Voicers.Media.PeerMute
import Voicers.Network.Address
import Voicers.Network.Session
import Voicers.Network.Dialing
import Voicers.Network.Daemon
import Voicers.Network.DaemonStep
import Voicers.Network.DaemonMove
import Voicers.Network.DaemonFlow
import Voicers.Network.Approval
import Voicers.Network.MediaAdmission
import Voicers.Network.Ticks
import Voicers.Network.Closing
import Voicers.Network.Ledger
import Voicers.Network.Pending
import Voicers.Network.BookEdits
import Voicers.Network.Contacts
import Voicers.Network.PendingDials
import Voicers.Network.Sessions
import Voicers.Network.RelayOffers
import Voicers.Network.DialIdentity
import Voicers.Network.Mesh
import Voicers.Network.Relaying
import Voicers.Persist.Saves
import Voicers.Persist.CorruptFile
import Voicers.App.Rooms
import Voicers.Network.CompactInvite
import Voicers.Network.JoinTarget
import Voicers.Network.Invite
import Voicers.Network.InviteCurrent
import Voicers.Network.InviteOwn
import Voicers.Network.Muting
import Voicers.Network.SelfMute
import Voicers.Network.WebRtcPath
import Voicers.App.Requests
import Voicers.App.RoomStep
import Voicers.App.RoomTable
import Voicers.App.EngagedRoom
import Voicers.App.Admins
import Voicers.App.JoinInvite
import Voicers.App.RendezvousRecords
import Voicers.Network.Publication
import Voicers.Network.Lifetime
import Voicers.Network.RelayAcks
import Voicers.Network.PeerBook
import Voicers.App.PeerRequests
import Voicers.Network.Roster
import Voicers.Network.AddressBook
import Voicers.Network.Placeholders
import Voicers.Network.LastDial
import Voicers.Network.SelfContact
import Voicers.Network.DialRanking
import Voicers.Network.FallbackDials
import Voicers.Network.RouteChoice
import Voicers.Network.Stun
import Voicers.Network.StunResponse
import Voicers.Network.StunPrefix
import Voicers.Network.UserViews
import Voicers.Network.Connectivity
import Voicers.Network.SessionRoutes
import Voicers.Ui.Preview
import Voicers.Ui.VoicePeers
import Voicers.Media.Resampling
import Voicers.Media.JitterPacing
import Voicers.Media.HonestSender
import Voicers.Media.Chunking
import Voicers.Media.OutputQueue
import Voicers.Network.ShareInvite
import Voicers.App.InviteExpiry
import Voicers.Network.ChosenName
import Voicers.Ui.MainScreen
import Voicers.Ui.RoomList
import Voicers.Media.JitterSafety
import Voicers.Lib.Smoothing
import Voicers.Media.NoiseGate
import Voicers.Media.EncoderInput
import Voicers.Ui.Client
import Voicers.Ui.Keys
import Voicers.Ui.ClientMove
import Voicers.Ui.Selections
import Voicers.Ui.Exchanges
import Voicers.App.Cli
import Voicers.Media.Mixer
import Voicers.Media.Preroll
import Voicers.Media.PeerNodes
import Voicers.Network.RelayReservations
import Voicers.Lib.Recent
import Voicers.Lib.Lookup
import Voicers.Network.StunProbes
import Voicers.Network.Reachability
import Voicers.Network.WebRtcRuntime
import Voicers.Lib.Interleave
import Voicers.App.ControlSocket
import Voicers.Network.Signalling
import Voicers.Network.Lookups
import Voicers.Network.Hellos
