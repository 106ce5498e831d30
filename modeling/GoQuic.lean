import GoQuic.Heap.Interface
import GoQuic.Heap.Order
import GoQuic.TaskRunner.AlarmHeap
import GoQuic.TaskRunner.Runner
import GoQuic.TaskRunner.DoTasks
import GoQuic.Trace.Reach
import GoQuic.TaskRunner.Loop
import GoQuic.TaskRunner.Invariant
import GoQuic.TaskRunner.Wakeup
import GoQuic.TaskRunner.Firing
import GoQuic.Io.Bufio
import GoQuic.Http.Header
import GoQuic.Server.Response
import GoQuic.Crypto.Proof
import GoQuic.Server.Dispatcher
import GoQuic.Container.LinkedHashMap
import GoQuic.Server.TimeWait
import GoQuic.Container.Deque
import GoQuic.Client.Stream
import GoQuic.Registry.Ptr
import GoQuic.TaskRunner.AlarmPtr
import GoQuic.Server.Writer
import GoQuic.Client.Conn
import GoQuic.Server.QuicStream
import GoQuic.Crypto.EphemeralKey
import GoQuic.Server.SimpleStream
import GoQuic.Trace.Custody
import GoQuic.Server.Listen
import GoQuic.Server.ListenAndServe
import GoQuic.Crypto.ServerConfig
import GoQuic.Server.Sessions
