import XFast.Base.Machine
import XFast.Framework.Slice
import XFast.Net.Buffer
import XFast.Framework.Refinement
import XFast.Net.BufferRefinement
import XFast.Framework.Program
import XFast.Base.XLoop
import XFast.Net.Connection
import XFast.Net.ConnectionRules
import XFast.Net.SendStream
import XFast.Net.WriteInterest
import XFast.Net.ScatterRead
import XFast.Framework.Trace
import XFast.Net.AfterClose
import XFast.Framework.Framing
import XFast.Net.Framing
import XFast.Base.Mailbox
import XFast.Base.TimerQueue
import XFast.Framework.BigEndian
import XFast.Net.WireFormat
import XFast.Net.TypedAccess
import XFast.Net.BufferSpace
import XFast.Net.Server
import XFast.Net.Responses
import XFast.Net.Accept
import XFast.Base.InterestList
import XFast.Base.Channel
import XFast.Base.EventDispatch
import XFast.Net.MessagePath
import XFast.Net.Lifecycle
import XFast.Net.ServerTable
import XFast.Net.Client
import XFast.Net.ClientMachine
import XFast.Net.ClientRefinement
import XFast.Net.ClientClose
import XFast.Net.ClientLock
import XFast.Net.ClientDestroy
import XFast.Net.ClientStop
import XFast.Framework.BitSet
import XFast.Base.EventMasks
import XFast.Framework.Loop
import XFast.Net.ParseLoop
import XFast.Base.TimerCancel
import XFast.Base.TimerLoop
import XFast.Base.TimerCounts
import XFast.Base.TimerIds
import XFast.Base.ChannelThreads
import XFast.Base.ChannelClear
import XFast.Base.ChannelWait
import XFast.Net.HandlerThreads
import XFast.Framework.Descriptors
import XFast.Net.SockApi
import XFast.Base.Option
import XFast.Base.Util
import XFast.Base.TimerRunAt
import XFast.Net.SendLength
import XFast.Net.ReceiveLength
import XFast.Net.Connector
import XFast.Net.ConnectAttempts
import XFast.Net.Transport
import XFast.Net.Rollback
import XFast.Base.Wakeup
import XFast.Net.ConnectionLifetime
import XFast.Framework.References
import XFast.Net.ServerOwnership
import XFast.Net.RollbackClient
import XFast.Net.RollbackRing
import XFast.Net.Socket
import XFast.Net.DescriptorKeys
import XFast.Framework.Numeral
import XFast.Base.Convert
import XFast.Net.IpAddr
import XFast.Net.RollbackMain
