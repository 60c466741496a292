import Wavry.Lib.BigEndian
import Wavry.Lib.XorPad
import Wavry.Lib.AssocMap
import Wavry.Lib.ExtFloat
import Wavry.Lib.Positions
import Wavry.Lib.CircularWindow
import Wavry.RiftCore.Packet
import Wavry.RiftCore.Fec
import Wavry.Client.FecCache
import Wavry.RiftCrypto.SeqWindow
import Wavry.Sender.PacketIds
import Wavry.Lib.Chunks
import Wavry.RiftCore.Video
import Wavry.Client.FrameAssembler
import Wavry.Client.NackWindow
import Wavry.Lib.Wire
import Wavry.RiftCore.Relay
import Wavry.RiftCore.Stun
import Wavry.Gateway.Relay
import Wavry.Gateway.Signal
import Wavry.Gateway.Auth
import Wavry.Gateway.RateLimit
import Wavry.Relay.Session
import Wavry.Relay.Server
import Wavry.Common.FileTransfer
import Wavry.Common.Transfer
import Wavry.Client.FileOffer
import Wavry.Master.Selection
import Wavry.Master.Registry
import Wavry.Media.ReorderBuffer
import Wavry.Media.EncoderPool
import Wavry.Lib.MapOps
import Wavry.Server.SendHistory
import Wavry.Lib.LittleEndian
import Wavry.Web.InputDatagram
import Wavry.RiftCore.DeltaCC
import Wavry.RiftCore.DeltaStates
import Wavry.Lib.Aead
import Wavry.Lib.Trace
import Wavry.RiftCrypto.Noise
import Wavry.RiftCrypto.Connection
import Wavry.RiftCrypto.ConnectionRuns
import Wavry.Server.CryptoHandshake
import Wavry.RiftCore.Handshake
import Wavry.Server.Sessions
