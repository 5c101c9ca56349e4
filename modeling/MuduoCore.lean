import MuduoCore.Lib.Transition
import MuduoCore.Lib.ElementCopy
import MuduoCore.Buffer.Basic
import MuduoCore.Buffer.Fifo
import MuduoCore.Buffer.ValidBuffer
import MuduoCore.Poller.Basic
import MuduoCore.Poller.Interest
import MuduoCore.Poller.Coherence
import MuduoCore.TcpConnection.Basic
import MuduoCore.TcpConnection.Effects
import MuduoCore.TcpConnection.Runs
import MuduoCore.TcpConnection.Output
import MuduoCore.TcpConnection.Close
import MuduoCore.TcpConnection.SendFile
import MuduoCore.TcpConnection.CrossThreadSend
import MuduoCore.TcpConnection.Registration
import MuduoCore.EventLoop.Basic
import MuduoCore.EventLoop.FunctorQueue
import MuduoCore.EventLoop.Wakeup
import MuduoCore.EventLoopThread.Basic
import MuduoCore.EventLoopThread.Quit
import MuduoCore.TcpServer.Basic
import MuduoCore.TcpServer.Invariant
import MuduoCore.TcpServer.Lifetime
import MuduoCore.TcpConnection.StateOrder
import MuduoCore.TcpConnection.Disconnected
import MuduoCore.TcpConnection.FileShutdown
import MuduoCore.TcpConnection.Events
import MuduoCore.EchoServer
import MuduoCore.EventLoop.QuitDrain
import MuduoCore.EventLoopThread.Join
import MuduoCore.TcpServer.Handshake
import MuduoCore.TcpServer.Quiescent
import MuduoCore.Lib.BatchQueue
import MuduoCore.TcpConnection.Threads
import MuduoCore.TcpConnection.Holders
import MuduoCore.TcpConnection.FinOrder
import MuduoCore.Buffer.Growth
import MuduoCore.Buffer.SizeT
import MuduoCore.Poller.Idle
import MuduoCore.TcpConnection.Notifications
import MuduoCore.TcpConnection.FileChain
import MuduoCore.EventLoopThread.Destructor
import MuduoCore.TcpServer.Names
import MuduoCore.TcpServer.Threads
import MuduoCore.TcpServer.Confinement
import MuduoCore.TcpServer.Destructor
import MuduoCore.EventLoop.Ownership
import MuduoCore.EventLoop.Refinement
import MuduoCore.Lib.RoundRobin
import MuduoCore.Poller.Poll
import MuduoCore.Poller.Starvation
import MuduoCore.TcpServer.Startup
import MuduoCore.InetAddress
import MuduoCore.TcpConnection.Past
import MuduoCore.TcpServer.Projection
import MuduoCore.TcpServer.Streams
import MuduoCore.TcpConnection.Callbacks
import MuduoCore.TcpServer.Callbacks
import MuduoCore.EchoProgram.Basic
import MuduoCore.EchoProgram.Echoing
import MuduoCore.Lib.Descent
import MuduoCore.TcpServer.Settling
