import ZdcPoc.Code.BridgeB
import ZdcPoc.Code.Zenoh

/-!
# `zdc_Main_b.c`: the node

`zdcInfo` is passed from function to function. `Result` is the fault that a run of the C code
meets, or what it returns.
-/

namespace ZdcPoc.B

/-! ## Types -/

/-- Enumerators are compared after the usual promotion to `int`. -/
def ZDC_STATE_OFF : Int := 0
def ZDC_STATE_ON : Int := 1
def ZDC_STATE_INVALID : Int := 2

inductive zdc_type_e where
  | ZDC_TYPE_PUB
  | ZDC_TYPE_SUB
  | ZDC_TYPE_QUERY
  | ZDC_TYPE_QUERYABLE
deriving DecidableEq, Repr

def zdc_type_e.toUInt8 : zdc_type_e → UInt8
  | .ZDC_TYPE_PUB => 0
  | .ZDC_TYPE_SUB => 1
  | .ZDC_TYPE_QUERY => 2
  | .ZDC_TYPE_QUERYABLE => 3

def ZDC_STATUS_OK : UInt8 := 0
def ZDC_STATUS_ERR : UInt8 := 1

/-- The union `body` is flattened: `cb_ptr`, `config` and `data` are the members of `sub` and
`queryable`, and `config` also that of `pub` and `query`. `data` is the handle of the declaration. -/
structure zdc_entity_t where
  ke_suffix : Block
  cb_ptr : Option Callback
  config : Option Nat
  data : handle_t
  type : zdc_type_e
  ke_size : Nat
  state : Int8
deriving DecidableEq, Repr

/-- A slot of `entity_list` is `none` until it is registered. `session` is the state of the
session that the C pointer leads to. -/
structure zdc_info_t where
  pSendBuffer : Block
  buff_size : UInt16
  curr_msg_size : UInt16
  el_size : UInt16
  SendCmdPayload : zdc_cmd_payload_t
  el_idx : UInt8
  entity_list : List (Option zdc_entity_t)
  session : Session

def zdc_info_t.entity (zdcInfo : zdc_info_t) (i : Nat) : Result zdc_entity_t :=
  match zdcInfo.entity_list[i]? with
  | none => .error (.outOfBounds i)
  | some none => .error (.uninitialised i)
  | some (some e) => .ok e

def zdc_info_t.store (zdcInfo : zdc_info_t) (i : Nat) (e : zdc_entity_t) : zdc_info_t :=
  { zdcInfo with entity_list := zdcInfo.entity_list.set i (some e) }

/-! ## Entities -/

/-- The `switch` of the ON branch. Zenoh's return code is dropped. -/
def declare_entity (z : Zenoh) (e_id : Nat) (entity : zdc_entity_t) (session : Session) :
    Result (zdc_entity_t × Session) :=
  match entity.type with
  | .ZDC_TYPE_PUB => pure (entity, session)
  | .ZDC_TYPE_SUB => do
    let ke ← orFault entity.ke_suffix.str .badRead
    let (_, data, session) :=
      z_declare z ⟨e_id, .subscriber, ke, entity.cb_ptr, entity.config⟩ session
    return ({ entity with data }, session)
  | .ZDC_TYPE_QUERY => pure (entity, session)
  | .ZDC_TYPE_QUERYABLE => do
    let ke ← orFault entity.ke_suffix.str .badRead
    let (_, data, session) :=
      z_declare z ⟨e_id, .queryable, ke, entity.cb_ptr, entity.config⟩ session
    return ({ entity with data }, session)

def undeclare_entity (entity : zdc_entity_t) (session : Session) : Result (zdc_entity_t × Session) :=
  match entity.type with
  | .ZDC_TYPE_PUB => pure (entity, session)
  | .ZDC_TYPE_SUB => do
    let session ← orFault (z_undeclare entity.data session) .badHandle
    return ({ entity with data := .null }, session)
  | .ZDC_TYPE_QUERY => pure (entity, session)
  | .ZDC_TYPE_QUERYABLE => do
    let session ← orFault (z_undeclare entity.data session) .badHandle
    return ({ entity with data := .null }, session)

/-- The `default: return false` of both switches is for a type that no registered slot has. A state
that is neither ON nor OFF passes between them. -/
def zdc_update_entity_state (z : Zenoh) (e_id : Nat) (state : UInt8) (zdcInfo : zdc_info_t) :
    Result (Bool × zdc_info_t) := do
  let entity ← zdcInfo.entity e_id
  if entity.state.toInt = state.toNat then
    return (true, zdcInfo)
  if entity.state.toInt = ZDC_STATE_INVALID ∧ state.toNat = ZDC_STATE_OFF then
    return (true, zdcInfo.store e_id { entity with state := state.toInt8 })
  let entity := { entity with state := 2 }
  let (entity, session) ←
    if state.toNat = ZDC_STATE_ON then declare_entity z e_id entity zdcInfo.session
    else if state.toNat = ZDC_STATE_OFF then undeclare_entity entity zdcInfo.session
    else pure (entity, zdcInfo.session)
  return (true, { zdcInfo.store e_id { entity with state := state.toInt8 } with session })

/-! ## Commands -/

def zdcSendCommand (s : LcsfStack) (cmdName : zdc_cmd_names) (hasPayload : Bool)
    (zdcInfo : zdc_info_t) : Bool × zdc_info_t :=
  let pCmdPayload := if hasPayload then some zdcInfo.SendCmdPayload else none
  let (msgSize, pSendBuffer) :=
    LCSF_Bridge_zdcEncode s cmdName pCmdPayload zdcInfo.pSendBuffer zdcInfo.buff_size.toNat
  let zdcInfo := { zdcInfo with pSendBuffer }
  if msgSize ≤ 0 then (false, zdcInfo)
  else (true, { zdcInfo with curr_msg_size := UInt16.ofNat msgSize.toNat })

/-- Writes of `bs` at `tmp_idx`: `tmp` are the bytes of `tmp_buff` up to there, `size` is its
allocation. -/
def put (size : Nat) (tmp bs : List UInt8) : Result (List UInt8) :=
  if tmp.length + bs.length ≤ size then .ok (tmp ++ bs) else .error .overflow

def serialise (size : Nat) (curr_ent : zdc_entity_t) (tmp : List UInt8) : Result (List UInt8) := do
  let tmp ← put size tmp [curr_ent.type.toUInt8]
  let tmp ← put size tmp [curr_ent.state.toUInt8]
  let tmp ← put size tmp [UInt8.ofNat curr_ent.ke_size]
  let ke ← orFault (curr_ent.ke_suffix.read curr_ent.ke_size) .badRead
  put size tmp ke

def serialise_loop (zdcInfo : zdc_info_t) : List Nat → List UInt8 → Result (List UInt8)
  | [], tmp => pure tmp
  | i :: is, tmp => do
    let curr_ent ← zdcInfo.entity i
    let tmp ← serialise (64 * zdcInfo.el_size.toNat) curr_ent tmp
    serialise_loop zdcInfo is tmp

def zdcExecutelist_entities_req (s : LcsfStack) (zdcInfo : zdc_info_t) :
    Result (Bool × zdc_info_t) := do
  let tmp_buff ← serialise_loop zdcInfo (List.range zdcInfo.el_size.toNat) []
  let p := zdcInfo.SendCmdPayload.set_ptr tmp_buff
  let p := p.set_entity_listSize (UInt32.ofNat tmp_buff.length)
  let p := p.set_entity_nb zdcInfo.el_size
  return zdcSendCommand s .LIST_ENTITIES_RESP true { zdcInfo with SendCmdPayload := p }

/-- Fills the status in and sends it, as all three `set_*` commands end. -/
def send_status (s : LcsfStack) (status : UInt8) (zdcInfo : zdc_info_t) : Bool × zdc_info_t :=
  zdcSendCommand s .CMD_STATUS true
    { zdcInfo with SendCmdPayload := zdcInfo.SendCmdPayload.set_status_value status }

def zdcExecuteset_entity_state (z : Zenoh) (s : LcsfStack) (pCmdPayload : Option zdc_cmd_payload_t)
    (zdcInfo : zdc_info_t) : Result (Bool × zdc_info_t) := do
  let some p := pCmdPayload | return (false, zdcInfo)
  let e_id := p.entity_id
  let state := UInt8.ofNat p.state
  if e_id ≥ zdcInfo.el_size.toNat then
    return (false, zdcInfo)
  if e_id = 0 then
    return send_status s ZDC_STATUS_ERR zdcInfo
  let (status, zdcInfo) ← zdc_update_entity_state z e_id state zdcInfo
  return send_status s (if status then ZDC_STATUS_OK else ZDC_STATUS_ERR) zdcInfo

def p_keyexpr (p : zdc_cmd_payload_t) : Result CString := do
  let data ← orFault p.ptr .badRead
  orFault (Block.ofBytes data).str .badRead

/-- The `realloc`, if it is needed, and the `strcpy`. -/
def replace_keyexpr (e_id : Nat) (ke : CString) (zdcInfo : zdc_info_t) : Result zdc_info_t := do
  let new_size := ke.size
  let entity ← zdcInfo.entity e_id
  let entity :=
    if new_size > entity.ke_size then
      { entity with ke_suffix := entity.ke_suffix.realloc new_size, ke_size := new_size }
    else entity
  let ke_suffix ← orFault (entity.ke_suffix.strcpy ke) .overflow
  return zdcInfo.store e_id { entity with ke_suffix }

def zdcExecuteset_entity_keyexpr (z : Zenoh) (s : LcsfStack)
    (pCmdPayload : Option zdc_cmd_payload_t) (zdcInfo : zdc_info_t) :
    Result (Bool × zdc_info_t) := do
  let some p := pCmdPayload | return (false, zdcInfo)
  let e_id := p.entity_id
  if e_id ≥ zdcInfo.el_size.toNat then
    return (false, zdcInfo)
  let ke ← p_keyexpr p
  let entity ← zdcInfo.entity e_id
  let restart := decide (entity.state.toInt = ZDC_STATE_ON)
  -- Both updates drop their status.
  let (_, zdcInfo) ← if restart then zdc_update_entity_state z e_id 0 zdcInfo else pure (true, zdcInfo)
  let zdcInfo ← replace_keyexpr e_id ke zdcInfo
  let (_, zdcInfo) ← if restart then zdc_update_entity_state z e_id 1 zdcInfo else pure (true, zdcInfo)
  return send_status s ZDC_STATUS_OK zdcInfo

/-- The update itself is still to do in the source. -/
def zdcExecuteset_entity_config (s : LcsfStack) (pCmdPayload : Option zdc_cmd_payload_t)
    (zdcInfo : zdc_info_t) : Result (Bool × zdc_info_t) := do
  let some p := pCmdPayload | return (false, zdcInfo)
  let e_id := p.entity_id
  if e_id ≥ zdcInfo.el_size.toNat then
    return (false, zdcInfo)
  return send_status s ZDC_STATUS_OK zdcInfo

def zdc_MainExecute (z : Zenoh) (s : LcsfStack) (cmdName : zdc_cmd_names)
    (pCmdPayload : Option zdc_cmd_payload_t) (zdcInfo : zdc_info_t) :
    Result (Bool × zdc_info_t) :=
  match cmdName with
  | .LIST_ENTITIES_REQ => zdcExecutelist_entities_req s zdcInfo
  | .SET_ENTITY_STATE => zdcExecuteset_entity_state z s pCmdPayload zdcInfo
  | .SET_ENTITY_KEYEXPR => zdcExecuteset_entity_keyexpr z s pCmdPayload zdcInfo
  | .SET_ENTITY_CONFIG => zdcExecuteset_entity_config s pCmdPayload zdcInfo
  | _ => pure (false, zdcInfo)

/-! ## Set up, close and queries of the application -/

/-- A slot of fresh memory. All fields but `cb_ptr` and `data` are written before they are read. -/
def fresh_slot : zdc_entity_t := ⟨[], none, none, .unwritten, .ZDC_TYPE_PUB, 0, 0⟩

/-- The writes to `entity_list[el_idx]` of the set up functions. A slot that was registered before
keeps the rest of its `body`. -/
def fill_slot (type : zdc_type_e) (state : Int8) (ke : CString) (config : Option Nat)
    (cb_ptr : Option Callback) (zdcInfo : zdc_info_t) : Result zdc_info_t := do
  let i := zdcInfo.el_idx.toNat
  if i ≥ zdcInfo.entity_list.length then
    throw (.outOfBounds i)
  let old := (zdcInfo.entity_list.getD i none).getD fresh_slot
  let ke_suffix ← orFault ((Block.malloc ke.size).strcpy ke) .overflow
  return zdcInfo.store i
    { old with type, state, ke_size := ke.size, ke_suffix, config, cb_ptr := cb_ptr <|> old.cb_ptr }

def zdc_MainInit (z : Zenoh) (zs : Session) (entity_nb buff_size : Nat) (zdc_suffix : CString) :
    Result zdc_info_t := do
  let el_size := UInt16.ofNat (entity_nb + 1)
  let buff_size := UInt16.ofNat buff_size
  let zdcInfo : zdc_info_t :=
    { pSendBuffer := Block.malloc buff_size.toNat, buff_size, curr_msg_size := 0, el_size
      SendCmdPayload := .zero, el_idx := 0, entity_list := List.replicate el_size.toNat none
      session := zs }
  let zdcInfo ← fill_slot .ZDC_TYPE_QUERYABLE 0 zdc_suffix none (some .zdc_cmd_handler) zdcInfo
  let (_, zdcInfo) ← zdc_update_entity_state z zdcInfo.el_idx.toNat 1 zdcInfo
  return { zdcInfo with el_idx := zdcInfo.el_idx + 1 }

def zdc_add_pub_entity (z : Zenoh) (start_on : Bool) (ke_suffix : CString) (config : Option Nat)
    (zdcInfo : zdc_info_t) : Result zdc_info_t := do
  let zdcInfo ← fill_slot .ZDC_TYPE_PUB 2 ke_suffix config none zdcInfo
  let (_, zdcInfo) ←
    zdc_update_entity_state z zdcInfo.el_idx.toNat (if start_on then 1 else 0) zdcInfo
  return { zdcInfo with el_idx := zdcInfo.el_idx + 1 }

def zdc_add_sub_entity (z : Zenoh) (start_on : Bool) (ke_suffix : CString) (config : Option Nat)
    (cb_ptr : Callback) (zdcInfo : zdc_info_t) : Result zdc_info_t := do
  let zdcInfo ← fill_slot .ZDC_TYPE_SUB 2 ke_suffix config (some cb_ptr) zdcInfo
  let (_, zdcInfo) ←
    zdc_update_entity_state z zdcInfo.el_idx.toNat (if start_on then 1 else 0) zdcInfo
  return { zdcInfo with el_idx := zdcInfo.el_idx + 1 }

def close_loop (z : Zenoh) : List Nat → zdc_info_t → Result zdc_info_t
  | [], zdcInfo => pure zdcInfo
  | i :: is, zdcInfo => do
    let entity ← zdcInfo.entity i
    let (_, zdcInfo) ←
      if entity.state.toInt = ZDC_STATE_ON then zdc_update_entity_state z i 0 zdcInfo
      else pure (true, zdcInfo)
    let entity ← zdcInfo.entity i
    -- `free` leaves no block behind.
    close_loop z is (zdcInfo.store i { entity with ke_suffix := [] })

def zdc_close (z : Zenoh) (zdcInfo : zdc_info_t) : Result zdc_info_t :=
  close_loop z (List.range zdcInfo.el_size.toNat) zdcInfo

def zdc_entity_state (eid : UInt8) (zdcInfo : zdc_info_t) : Result Int := do
  if eid.toNat ≥ zdcInfo.el_size.toNat then
    return -1
  let entity ← zdcInfo.entity eid.toNat
  return entity.state.toInt

/-- Where `ke_suffix` of a slot points to. `realloc` moves the block when it grows it and at no other
time, so that the size tells the blocks of one slot apart. -/
structure ke_ptr_t where
  slot : Nat
  size : Nat
deriving DecidableEq, Repr

/-- `none` is the null pointer. -/
def zdc_entity_ke_suffix (eid : UInt8) (zdcInfo : zdc_info_t) : Result (Option ke_ptr_t) := do
  if eid.toNat ≥ zdcInfo.el_size.toNat then
    return none
  let entity ← zdcInfo.entity eid.toNat
  return some ⟨eid.toNat, entity.ke_suffix.length⟩

/-- The block at a pointer. The one that it was taken from may have been freed since. -/
def ke_ptr_t.block (ptr : ke_ptr_t) (zdcInfo : zdc_info_t) : Result Block := do
  let entity ← zdcInfo.entity ptr.slot
  if entity.ke_suffix.length ≠ ptr.size then
    throw .badRead
  return entity.ke_suffix

def ke_ptr_t.str (ptr : ke_ptr_t) (zdcInfo : zdc_info_t) : Result CString := do
  let block ← ptr.block zdcInfo
  orFault block.str .badRead

/-! ## From a query to its reply -/

structure node_t where
  zdcInfo : zdc_info_t
  CmdPayload : zdc_cmd_payload_t

def LCSF_Bridge_zdcReceive (z : Zenoh) (s : LcsfStack) (cmd : lcsf_valid_cmd_t) (node : node_t) :
    Result (Bool × node_t) := do
  let cmdName := LCSF_Bridge_zdc_CMDID2CMDNAME cmd.CmdId
  let CmdPayload ← LCSF_Bridge_zdcGetCmdData cmdName cmd.pAttArray node.CmdPayload
  let (status, zdcInfo) ← zdc_MainExecute z s cmdName (some CmdPayload) node.zdcInfo
  return (status, ⟨zdcInfo, CmdPayload⟩)

/-- The stack calls the bridge at most once, with the command that it finds in the message. -/
def LCSF_TranscoderReceive (z : Zenoh) (s : LcsfStack) (msg : List UInt8) (node : node_t) :
    Result (Bool × node_t) :=
  match s.receive msg with
  | some cmd => LCSF_Bridge_zdcReceive z s cmd node
  | none => pure (false, node)

structure query_t where
  payload : List UInt8
  reply_ok : Bool
deriving DecidableEq, Repr

structure reply_t where
  bytes : List UInt8
  delivered : Bool
deriving DecidableEq, Repr

def zdc_cmd_handler (z : Zenoh) (s : LcsfStack) (query : query_t) (node : node_t) :
    Result (Option reply_t × node_t) := do
  if query.payload.length = 0 then
    return (none, node)
  let (_, node) ← LCSF_TranscoderReceive z s query.payload node
  if node.zdcInfo.curr_msg_size.toNat ≠ 0 then
    let bytes ←
      orFault (node.zdcInfo.pSendBuffer.read node.zdcInfo.curr_msg_size.toNat) .badRead
    return (some ⟨bytes, query.reply_ok⟩,
      { node with zdcInfo := { node.zdcInfo with curr_msg_size := 0 } })
  return (none, node)

end ZdcPoc.B
