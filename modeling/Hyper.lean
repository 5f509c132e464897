import Hyper.Basic
import Hyper.Lib.Numeral
import Hyper.Lib.Buf
import Hyper.Lib.Transducer
import Hyper.Lib.MultiMap
import Hyper.Lib.ExceptFold
import Hyper.Lib.Runs
import Hyper.Http
import Hyper.H1.Decode
import Hyper.H1.DecodeRun
import Hyper.H1.ChunkedGrammar
import Hyper.H1.Encode
import Hyper.H1.RoundTrip
import Hyper.Headers
import Hyper.Proto
import Hyper.H1.Role.ServerParse
import Hyper.H1.Role.ClientParse
import Hyper.H1.Role.ClientEncode
import Hyper.H1.Role.ServerEncode
import Hyper.H1.Role.ServerWrite
import Hyper.H1.Role.ServerWriters
import Hyper.H1.Role.HeaderCase
import Hyper.H1.Io
import Hyper.H1.ReadStrategy
import Hyper.H1.WriteBufRuns
import Hyper.H1.Conn
import Hyper.H1.Lifecycle
import Hyper.H1.Dispatch
import Hyper.H1.WriteOrder
import Hyper.H1.WritePaths
import Hyper.H1.Handover
import Hyper.H1.FlattenOrder
import Hyper.H1.DecodeEnd
import Hyper.H1.Role.KeepAlive
import Hyper.Client.Connect
import Hyper.H2.ConnectionHeaders
import Hyper.H2.Ping
import Hyper.Body.ToBytes
import Hyper.H1.HeaderTimeout
import Hyper.Client.Pool
import Hyper.Client.PoolRuns
import Hyper.Client.Dispatch
import Hyper.Client.DispatchRuns
import Hyper.Lib.Cells
import Hyper.Body.Channel
import Hyper.H1.Dispatcher
import Hyper.H1.ConnSteps
import Hyper.H1.LifecycleRuns
import Hyper.H1.DispatcherRuns
import Hyper.H1.ServerRuns
import Hyper.H1.ReadLoop
import Hyper.H2.KeepAlive
