import Mathlib.Logic.Function.Basic
import ZdcPoc.Code.MainTx
import ZdcPoc.Code.Net

/-!
# Controllers and a node

Every run of `main_tx.c` is a process with a memory of its own, and sends one query at most. Zenoh brings
queries and replies in any order, or loses them. The node handles one query at a time.
-/

namespace ZdcPoc.System

/-- The processes are numbered as they start, and `controllers` are the payloads of their bridges.
Queries and replies are on their way, each with the number of its process. -/
structure system_t where
  node : B.node_t
  controllers : List zdc_cmd_payload_t
  queries : List (Nat × Tx.z_get_t)
  replies : List (Nat × List UInt8)

/-- The message that comes next, or is lost, is picked by its place. -/
inductive event_t where
  | invoke (argv : List Tx.opt_t)
  | arrive (k : Nat) (reply_ok : Bool)
  | lose_query (k : Nat)
  | report (k : Nat)
  | lose_reply (k : Nat)
deriving DecidableEq, Repr

inductive output_t where
  | silent
  | invoked (n : Nat) (argv : List Tx.opt_t)
  | printed (n : Nat) (shown : A.printed_t)
deriving DecidableEq, Repr

def step (net : Net) (s : LcsfStack) (event : event_t) (sys : system_t) : Result (output_t × system_t) :=
  match event with
  | .invoke argv => do
    let n := sys.controllers.length
    let (_, sent) ← Tx.main s argv
    let sys := { sys with controllers := sys.controllers ++ [.zero] }
    match sent with
    | some get => return (.invoked n argv, { sys with queries := sys.queries ++ [(n, get)] })
    | none => return (.silent, sys)
  | .arrive k reply_ok =>
    match sys.queries[k]? with
    | some (n, get) => do
      let (replies, node) ← B.dispatch net s get.keyexpr ⟨get.payload, reply_ok⟩ sys.node
      let sent := (replies.filter (·.delivered)).map fun reply => (n, reply.bytes)
      return (.silent, { sys with node, queries := sys.queries.eraseIdx k, replies := sys.replies ++ sent })
    | none => return (.silent, sys)
  | .lose_query k => return (.silent, { sys with queries := sys.queries.eraseIdx k })
  | .report k =>
    match sys.replies[k]? with
    | some (n, value) => do
      let (shown, CmdPayload) ← Tx.reply_handler s (some value) (sys.controllers.getD n .zero)
      return (.printed n shown,
        { sys with controllers := sys.controllers.set n CmdPayload, replies := sys.replies.eraseIdx k })
    | none => return (.silent, sys)
  | .lose_reply k => return (.silent, { sys with replies := sys.replies.eraseIdx k })

/-- A node that was set up, and no controller yet. -/
def start (info : B.zdc_info_t) : system_t := ⟨⟨info, .zero⟩, [], [], []⟩

end ZdcPoc.System

/-! ## Several nodes -/

namespace ZdcPoc.Fleet

/-- Each node gets a copy of every query. A copy and a reply have the node and the number of the process. -/
structure fleet_t (N : Nat) where
  nodes : Fin N → B.node_t
  controllers : List zdc_cmd_payload_t
  queries : List (Fin N × Nat × Tx.z_get_t)
  replies : List (Fin N × Nat × List UInt8)

inductive output_t (N : Nat) where
  | silent
  | invoked (n : Nat) (argv : List Tx.opt_t)
  | printed (i : Fin N) (n : Nat) (shown : A.printed_t)
deriving DecidableEq, Repr

/-- A controller handles the replies of several nodes one after the other, with one payload. -/
def step {N : Nat} (net : Net) (s : LcsfStack) (event : System.event_t) (fleet : fleet_t N) :
    Result (output_t N × fleet_t N) :=
  match event with
  | .invoke argv => do
    let n := fleet.controllers.length
    let (_, sent) ← Tx.main s argv
    let fleet := { fleet with controllers := fleet.controllers ++ [.zero] }
    match sent with
    | some get =>
      let copies := (List.finRange N).map fun i => (i, n, get)
      return (.invoked n argv, { fleet with queries := fleet.queries ++ copies })
    | none => return (.silent, fleet)
  | .arrive k reply_ok =>
    match fleet.queries[k]? with
    | some (i, n, get) => do
      let (replies, node) ← B.dispatch net s get.keyexpr ⟨get.payload, reply_ok⟩ (fleet.nodes i)
      let sent := (replies.filter (·.delivered)).map fun reply => (n, reply.bytes)
      return (.silent, { fleet with
        nodes := Function.update fleet.nodes i node
        queries := fleet.queries.eraseIdx k
        replies := fleet.replies ++ sent.map (Prod.mk i) })
    | none => return (.silent, fleet)
  | .lose_query k => return (.silent, { fleet with queries := fleet.queries.eraseIdx k })
  | .report k =>
    match fleet.replies[k]? with
    | some (i, n, value) => do
      let (shown, CmdPayload) ← Tx.reply_handler s (some value) (fleet.controllers.getD n .zero)
      return (.printed i n shown,
        { fleet with controllers := fleet.controllers.set n CmdPayload, replies := fleet.replies.eraseIdx k })
    | none => return (.silent, fleet)
  | .lose_reply k => return (.silent, { fleet with replies := fleet.replies.eraseIdx k })

def start {N : Nat} (info : Fin N → B.zdc_info_t) : fleet_t N := ⟨fun i => ⟨info i, .zero⟩, [], [], []⟩

end ZdcPoc.Fleet
