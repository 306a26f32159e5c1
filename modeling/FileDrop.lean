import FileDrop.Foundation.Interleaving
import FileDrop.Foundation.Transcript
import FileDrop.Foundation.FileOps
import FileDrop.Core.Error
import FileDrop.Core.Header
import FileDrop.Security.Token
import FileDrop.Pairing.State
import FileDrop.Foundation.Since
import FileDrop.Verif.Handshake
import FileDrop.Core.Path
import FileDrop.Foundation.Exclusive
import FileDrop.Storage.History
import FileDrop.Verif.SharedHistory
import FileDrop.Security.Filename
import FileDrop.Security.SafeJoin
import FileDrop.Security.Checksum
import FileDrop.Transfer.Server
import FileDrop.Verif.Resume
import FileDrop.Transfer.Client
import FileDrop.Foundation.Machine
import FileDrop.Transfer.Outgoing
import FileDrop.Transfer.Exchange
import FileDrop.Verif.Completeness
import FileDrop.Verif.Verified
import FileDrop.Transfer.Queue
import FileDrop.Transfer.Status
import FileDrop.Ffi.Api
import FileDrop.Foundation.Dispatch
import FileDrop.Verif.OwnEntry
import FileDrop.Verif.Completion
import FileDrop.Verif.Isolation
import FileDrop.Verif.Received
import FileDrop.Verif.Independent
import FileDrop.Verif.Retry
import FileDrop.Verif.Containment
import FileDrop.Verif.Status
import FileDrop.Ffi.Device
import FileDrop.Verif.Sending
import FileDrop.Verif.Parallel
import FileDrop.Verif.Controllable
import FileDrop.Verif.Cancel
import FileDrop.Foundation.Erasure
import FileDrop.Verif.Sweep
import FileDrop.Foundation.InsertionMap
import FileDrop.Flutter.ActiveTransfers
import FileDrop.Verif.HomeScreen
import FileDrop.Verif.Nameable
import FileDrop.Verif.EventOrder
import FileDrop.Verif.PauseViews
import FileDrop.Verif.SessionsMap
import FileDrop.Foundation.Beside
import FileDrop.Verif.Recorded
import FileDrop.Core.Ip
import FileDrop.Discovery.Mdns
import FileDrop.Discovery.UdpBroadcast
import FileDrop.Discovery.Service
import FileDrop.Verif.OwnDevice
import FileDrop.Verif.MergedDevices
import FileDrop.Verif.Advertised
import FileDrop.Foundation.Slot
import FileDrop.Ffi.Discovery
import FileDrop.Verif.Stopped
import FileDrop.Verif.LastCommand
import FileDrop.Ffi.Server
import FileDrop.Verif.OneServer
import FileDrop.Flutter.WifiDirect
import FileDrop.Flutter.HomeFlow
import FileDrop.Verif.ReceiveSession
import FileDrop.Verif.WifiGroup
import FileDrop.Verif.AnnouncedSize
import FileDrop.Verif.TruncatedName
import FileDrop.Transfer.Receiving
import FileDrop.Verif.ReceiveStages
import FileDrop.Verif.WithinSize
import FileDrop.Verif.ContentRange
import FileDrop.Verif.CancelReceive
import FileDrop.Verif.SafeName
import FileDrop.Verif.NameDots
import FileDrop.Core.OsPath
import FileDrop.Verif.JoinedPath
import FileDrop.Core.SocketAddr
import FileDrop.Verif.PeerAddress
import FileDrop.Verif.SoloHistory
import FileDrop.Verif.SameCount
import FileDrop.Verif.AllOrNothing
import FileDrop.Ffi.Pairing
import FileDrop.Verif.LivePayload
import FileDrop.Foundation.Tenancy
import FileDrop.Discovery.Host
import FileDrop.Verif.CleanStart
import FileDrop.Foundation.Base64
import FileDrop.Pairing.Token
import FileDrop.Verif.PairingToken
import FileDrop.Foundation.Broadcast
import FileDrop.Ffi.Runtime
import FileDrop.Verif.EventStream
import FileDrop.Ffi.Events
import FileDrop.Flutter.Events
import FileDrop.Flutter.NearbyDevices
import FileDrop.Verif.Nearby
import FileDrop.Verif.Resync
import FileDrop.Foundation.Json
import FileDrop.Foundation.JsonMoves
import FileDrop.Foundation.JsonReader
import FileDrop.Core.UuidText
import FileDrop.Pairing.Qr
import FileDrop.Verif.PairingCode
import FileDrop.Core.Utf8
import FileDrop.Discovery.Announce
import FileDrop.Verif.Announced
import FileDrop.Foundation.JsonPretty
import FileDrop.Storage.HistoryJson
import FileDrop.Verif.HistoryText
import FileDrop.Flutter.SendFlow
import FileDrop.Verif.Searching
import FileDrop.Verif.Selection
import FileDrop.Flutter.PairingPrompt
import FileDrop.Verif.Consent
import FileDrop.Core.CString
import FileDrop.Ffi.EventJson
import FileDrop.Flutter.EventJson
import FileDrop.Ffi.CAbi
import FileDrop.Verif.EventRoutes
import FileDrop.Verif.AbiCalls
