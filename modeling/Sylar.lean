import Sylar.Address.Lookup
import Sylar.Address.Text
import Sylar.ByteArray.File
import Sylar.ByteArray.Frame
import Sylar.ByteArray.Positioned
import Sylar.ByteArray.Truncated
import Sylar.ByteArray.Zigzag
import Sylar.Config.Load
import Sylar.Config.Var
import Sylar.FSUtil.Rm
import Sylar.FdManager.Get
import Sylar.FdManager.Growth
import Sylar.Fiber.Context
import Sylar.Hook.Fcntl
import Sylar.Hook.Recycle
import Sylar.Hook.Sleep
import Sylar.Hook.Timeout
import Sylar.Http.Body
import Sylar.Http.ChunkFields
import Sylar.Http.ChunkLengths
import Sylar.Http.Chunks
import Sylar.Http.Dump
import Sylar.Http.Faults
import Sylar.Http.Limits
import Sylar.Http.PoolAge
import Sylar.Http.RequestLine
import Sylar.Http.ResponseDump
import Sylar.Http.Server
import Sylar.Http.Servlet
import Sylar.Http.Unset
import Sylar.IOManager.Idle
import Sylar.IOManager.Table
import Sylar.IOManager.Timeout
import Sylar.Log.Inherit
import Sylar.Log.Listener
import Sylar.Log.Pattern
import Sylar.Scheduler.Finished
import Sylar.Scheduler.Stopping
import Sylar.Socket.Addresses
import Sylar.Stream.FixSize
import Sylar.Stream.Transfer
import Sylar.TcpServer.Bind
import Sylar.Timer.Concurrent
import Sylar.Timer.Wakeup
import Sylar.Uri.Rfc
import Sylar.Uri.RoundTrip
