import KRCore.Base.Run
import KRCore.Base.Ring
import KRCore.Base.Word
import KRCore.Qp.RecvHelper
import KRCore.Verbs.Types
import KRCore.VirtualQueue.Connect
import KRCore.VirtualQueue.ConnectTarget
import KRCore.Base.WorkQueue
import KRCore.Node.Model
import KRCore.Node.RecvOwnership
import KRCore.Base.MemRange
import KRCore.Node.RecvLayout
import KRCore.Node.RecvPosting
import KRCore.Node.Isolation
import KRCore.VirtualQueue.Migration
import KRCore.VirtualQueue.MigrationTarget
import KRCore.Base.Memory
import KRCore.Rpc.RecvRing
import KRCore.Rpc.Poll
import KRCore.Rpc.Server
import KRCore.Rpc.Call
import KRCore.Rpc.History
import KRCore.Rpc.MetaImage
import KRCore.Qp.Handshake
import KRCore.Qp.Registry
import KRCore.VirtualQueue.Ioctl
import KRCore.VirtualQueue.NoPanic
import KRCore.VirtualQueue.Controller
import KRCore.VirtualQueue.FailedConnect
import KRCore.Base.SendQueue
import KRCore.Node.SendQueues
import KRCore.Node.SendDrain
import KRCore.Cm.Sidr
import KRCore.Rpc.Framing
import KRCore.Qp.Construct
import KRCore.Base.Tally
import KRCore.VirtualQueue.PushBatch
import KRCore.VirtualQueue.PushOrder
import KRCore.VirtualQueue.PushWait
import KRCore.VirtualQueue.BindAccounting
import KRCore.VirtualQueue.PushStatus
import KRCore.VirtualQueue.BindRouting
import KRCore.VirtualQueue.PopMsgs
import KRCore.VirtualQueue.UserReply
import KRCore.Qp.CqCapacity
import KRCore.Base.Overwrite
import KRCore.Rpc.ConcurrentQuery
import KRCore.Rpc.MetaReach
import KRCore.Rpc.MetaBounds
import KRCore.VirtualQueue.MetaRead
import KRCore.VirtualQueue.MetaRoundTrip
import KRCore.VirtualQueue.FastPath
import KRCore.VirtualQueue.UserBounds
import KRCore.VirtualQueue.LocalMr
import KRCore.Base.Memo
import KRCore.VirtualQueue.PathCache
import KRCore.Base.Ownership
import KRCore.VirtualQueue.PagePins
import KRCore.VirtualQueue.PopStatus
import KRCore.VirtualQueue.ServicePorts
import KRCore.Qp.Doorbell
import KRCore.Verbs.HandleOwnership
import KRCore.Base.PollWait
import KRCore.Rpc.SendBuffer
import KRCore.VirtualQueue.PathResolve
import KRCore.Base.BlockRing
import KRCore.Driver.SendRing
import KRCore.Driver.WqeSize
import KRCore.Base.OwnerRing
import KRCore.Driver.CqRing
import KRCore.Driver.WorkQueue
import KRCore.Driver.Hca
import KRCore.Driver.QpHistory
import KRCore.Driver.HcaRuns
import KRCore.Base.PageVector
import KRCore.Driver.MrPages
import KRCore.Base.FragRing
import KRCore.Driver.WqeFormat
import KRCore.Driver.WqeWriter
import KRCore.Driver.SendMemory
import KRCore.Base.Rendezvous
import KRCore.Cm.Agreement
