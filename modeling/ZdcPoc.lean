import ZdcPoc.Lib.Run
import ZdcPoc.Lib.Bytes
import ZdcPoc.Lib.Block
import ZdcPoc.Lib.Part
import ZdcPoc.Lib.LastWrite
import ZdcPoc.Lib.Linear
import ZdcPoc.Lib.Pool
import ZdcPoc.Lib.Heap
import ZdcPoc.Code.Zenoh
import ZdcPoc.Code.Protocol
import ZdcPoc.Code.Lcsf
import ZdcPoc.Code.BridgeA
import ZdcPoc.Code.BridgeB
import ZdcPoc.Code.Net
import ZdcPoc.Code.MainA
import ZdcPoc.Code.MainB
import ZdcPoc.Code.Heap
import ZdcPoc.Code.MainRx
import ZdcPoc.Code.MainTx
import ZdcPoc.Code.System
import ZdcPoc.World
import ZdcPoc.Cell
import ZdcPoc.Exec
import ZdcPoc.Command
import ZdcPoc.Invariant
import ZdcPoc.Setup
import ZdcPoc.Live
import ZdcPoc.States
import ZdcPoc.Channel
import ZdcPoc.Status
import ZdcPoc.Slots
import ZdcPoc.Parser
import ZdcPoc.ListResponse
import ZdcPoc.Decode
import ZdcPoc.Handler
import ZdcPoc.Request
import ZdcPoc.Refinement
import ZdcPoc.Reorder
import ZdcPoc.Publisher
import ZdcPoc.Registrations
import ZdcPoc.Keyexprs
import ZdcPoc.ListBuffer
import ZdcPoc.CommandLine
import ZdcPoc.Queries
import ZdcPoc.Declarations
import ZdcPoc.Convergence
import ZdcPoc.Residue
import ZdcPoc.Race
import ZdcPoc.Report
import ZdcPoc.Dispatch
import ZdcPoc.Ledger
import ZdcPoc.System
import ZdcPoc.Waiting
import ZdcPoc.Fleet
