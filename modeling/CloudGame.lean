import CloudGame.Handshake.Answers
import CloudGame.Handshake.Parties
import CloudGame.Handshake.TokenDelivery
import CloudGame.Lib.Base64
import CloudGame.Lib.ExceptState
import CloudGame.Lib.FreshNames
import CloudGame.Lib.HashMap
import CloudGame.Lib.JsJson
import CloudGame.Lib.JsText
import CloudGame.Lib.Json
import CloudGame.Lib.JsonText
import CloudGame.Lib.JsonValue
import CloudGame.Lib.Latin1
import CloudGame.Lib.Ledger
import CloudGame.Lib.Machine
import CloudGame.Lib.Mask
import CloudGame.Lib.Notify
import CloudGame.Lib.Prog
import CloudGame.Lib.Repair
import CloudGame.Lib.Run
import CloudGame.Lib.Since
import CloudGame.Lib.Tally
import CloudGame.Lib.Text
import CloudGame.Lib.Timers
import CloudGame.Lib.UrlEncoded
import CloudGame.Lib.Utf8
import CloudGame.Portal.AudioPath
import CloudGame.Portal.AudioPlayback
import CloudGame.Portal.ControllerPage
import CloudGame.Portal.GameAudioPacket
import CloudGame.Portal.HostPage
import CloudGame.Portal.IceCandidates
import CloudGame.Portal.InputLoop
import CloudGame.Portal.InputPath
import CloudGame.Portal.JsObject
import CloudGame.Portal.KeyboardMapping
import CloudGame.Portal.KeyboardPath
import CloudGame.Portal.KeyboardReload
import CloudGame.Portal.Messages
import CloudGame.Portal.PhonePath
import CloudGame.Portal.SignalConnection
import CloudGame.Portal.StorePage
import CloudGame.Portal.TouchControls
import CloudGame.Portal.TouchMapping
import CloudGame.Signal.Admission
import CloudGame.Signal.Bindings
import CloudGame.Signal.Contacts
import CloudGame.Signal.ControllerHistory
import CloudGame.Signal.ControllerLists
import CloudGame.Signal.Controllers
import CloudGame.Signal.Delivery
import CloudGame.Signal.Descriptions
import CloudGame.Signal.Directory
import CloudGame.Signal.Effects
import CloudGame.Signal.Envelope
import CloudGame.Signal.Forwarding
import CloudGame.Signal.FreshCodes
import CloudGame.Signal.HostRooms
import CloudGame.Signal.JoinCodes
import CloudGame.Signal.Orphans
import CloudGame.Signal.PairingCode
import CloudGame.Signal.Protocol
import CloudGame.Signal.Registry
import CloudGame.Signal.Relay
import CloudGame.Signal.RoomChoice
import CloudGame.Signal.Server
import CloudGame.Signal.Tasks
import CloudGame.Signal.Views
import CloudGame.Worker.AudioSender
import CloudGame.Worker.Calls
import CloudGame.Worker.CoreInput
import CloudGame.Worker.EarlySignals
import CloudGame.Worker.FrameChannel
import CloudGame.Worker.FrameInterval
import CloudGame.Worker.H264
import CloudGame.Worker.InputLedger
import CloudGame.Worker.InputOrder
import CloudGame.Worker.Keyframes
import CloudGame.Worker.LastInput
import CloudGame.Worker.Libretro
import CloudGame.Worker.NalUnits
import CloudGame.Worker.Pacing
import CloudGame.Worker.PendingSignals
import CloudGame.Worker.PixelRows
import CloudGame.Worker.Pixels
import CloudGame.Worker.PlayerCount
import CloudGame.Worker.Ports
import CloudGame.Worker.Room
import CloudGame.Worker.RoomState
import CloudGame.Worker.Scaling
import CloudGame.Worker.SessionCount
import CloudGame.Worker.SessionVideo
import CloudGame.Worker.Sessions
import CloudGame.Worker.SlotHistory
import CloudGame.Worker.Tasks
import CloudGame.Worker.Teardown
import CloudGame.Worker.Terminate
import CloudGame.Worker.UrlUtils
import CloudGame.Worker.VideoControl
import CloudGame.Worker.VideoFifo
import CloudGame.Worker.VideoQueue
import CloudGame.Worker.VideoSender
