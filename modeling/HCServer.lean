import HCServer.ByteArray.RoundTrip
import HCServer.IOManager.Idle
import HCServer.Scheduler.Exclusive
import HCServer.Hook.Timeout
import HCServer.Http.Segmentation
import HCServer.Http.KeepAlive
import HCServer.Http.Chunked
import HCServer.Http.Framing
import HCServer.Http.Method
import HCServer.Http.Dump
import HCServer.Http.BodyLimit
import HCServer.Http.RoundTrip
import HCServer.ByteArray.Strings
import HCServer.ByteArray.Reads
import HCServer.Timer.Deadline
import HCServer.IOManager.Registry
import HCServer.Hook.Descriptors
import HCServer.Scheduler.Switch
import HCServer.Scheduler.Affinity
import HCServer.Scheduler.Shutdown
import HCServer.Hook.Nonblock
import HCServer.Http.PoolLimits
import HCServer.Config.Load
import HCServer.Config.Listeners
import HCServer.Log.Reload
import HCServer.Log.Codec
import HCServer.ByteArray.Positional
import HCServer.ByteArray.File
import HCServer.ByteArray.Stream
import HCServer.Timer.Expiry
import HCServer.IOManager.CancelAll
import HCServer.IOManager.PollTimeout
import HCServer.Uri.Print
import HCServer.Address.Ipv4
import HCServer.Address.Ipv6
import HCServer.Address.Port
import HCServer.Address.Lookup
import HCServer.Tcp.Bind
import HCServer.Hook.Sleep
import HCServer.Hook.Sleepers
import HCServer.ByteArray.FixSize
import HCServer.Log.Attached
import HCServer.Log.Pattern
import HCServer.Http.Memory
import HCServer.Http.Servlet
import HCServer.Http.ResponseHead
import HCServer.Http.ResponseRoundTrip
import HCServer.Http.Server
import HCServer.Http.Answers
import HCServer.Http.Conversation
import HCServer.Http.Client
import HCServer.Scheduler.Order
import HCServer.Timer.Punctual
import HCServer.Tcp.Accept
import HCServer.Tcp.Socket
import HCServer.Log.Delivery
import HCServer.Config.Lexical
import HCServer.Hook.Calls
import HCServer.Tcp.Echo
import HCServer.Scheduler.Threads
import HCServer.Scheduler.Start
import HCServer.Lib.Population
import HCServer.Lib.Multimap
import HCServer.Address.Interfaces
