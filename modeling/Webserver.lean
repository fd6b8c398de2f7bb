import Webserver.Lib.Text
import Webserver.Lib.Path
import Webserver.Lib.Message
import Webserver.Lib.Framing
import Webserver.Lib.Lines
import Webserver.Lib.Numeral
import Webserver.Lib.Transition
import Webserver.Lib.Loop
import Webserver.Lib.Fifo
import Webserver.Lib.Batch
import Webserver.Lib.MinQueue
import Webserver.Lib.Lease
import Webserver.Lib.Pointers
import Webserver.Lib.Monitor
import Webserver.Util
import Webserver.Decimal
import Webserver.Timer
import Webserver.Expiry
import Webserver.Transfer
import Webserver.Channel
import Webserver.Poller
import Webserver.Http.Basic
import Webserver.Http.Parse
import Webserver.Http.Grammar
import Webserver.Http.Response
import Webserver.Http.Read
import Webserver.Http.Session
import Webserver.Http.Messages
import Webserver.Http.Events
import Webserver.Http.Resume
import Webserver.Http.Order
import Webserver.Http.History
import Webserver.Http.Root
import Webserver.Http.ContentType
import Webserver.Http.Fragmentation
import Webserver.Http.Pipelining
import Webserver.Http.WriteErrors
import Webserver.Http.Independence
import Webserver.Http.Interest
import Webserver.Http.Termination
import Webserver.Http.Lengths
import Webserver.Http.HalfClose
import Webserver.Http.Client
import Webserver.Http.Alone
import Webserver.Http.Service
import Webserver.Http.Dismissal
import Webserver.Loop.Dispatch
import Webserver.Loop.Registry
import Webserver.Loop.Ownership
import Webserver.Loop.Sweep
import Webserver.Loop.TaskLoop
import Webserver.Loop.Wakeup
import Webserver.Loop.EventLoopThread
import Webserver.Loop.Latch
import Webserver.Loop.Startup
import Webserver.Loop.Rendezvous
import Webserver.Loop.Acceptor
import Webserver.Loop.ThreadPool
import Webserver.Loop.AcceptLoop
import Webserver.Loop.Kernel
import Webserver.Loop.Registration
import Webserver.Loop.Teardown
import Webserver.Loop.Idle
import Webserver.Loop.Backlog
import Webserver.Loop.Isolation
import Webserver.Loop.Server
import Webserver.Loop.Serving
import Webserver.Loop.Limit
import Webserver.Loop.Traffic
import Webserver.Loop.Farewell
import Webserver.Loop.Answering
import Webserver.Log.FixedBuffer
import Webserver.Log.Convert
import Webserver.Log.LogStream
import Webserver.Log.AsyncLogging
import Webserver.Log.Logging
import Webserver.Log.FileUtil
import Webserver.Log.Rotation
import Webserver.Log.Capacity
import Webserver.Log.Overload
import Webserver.Log.Conservation
import Webserver.Log.Durability
import Webserver.Log.Drain
import Webserver.Log.Reading
import Webserver.Log.Start
