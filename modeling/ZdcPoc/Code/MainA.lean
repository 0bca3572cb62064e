import ZdcPoc.Code.BridgeA

/-!
# `zdc_Main_a.c`: the controller
-/

namespace ZdcPoc.A

def ZDC_SEND_BUFF_SIZE : Nat := 128

structure zdc_info_t where
  SendCmdPayload : zdc_cmd_payload_t
  curr_size : UInt16
  SendBuffer : Block

def zdc_info_t.zero : zdc_info_t :=
  ⟨.zero, 0, Block.ofBytes (List.replicate ZDC_SEND_BUFF_SIZE 0)⟩

def ZDC_STATE_TO_STR : List String := ["off", "on", "invalid"]
def ZDC_TYPE_TO_STR : List String := ["pub", "sub", "querier", "queryable"]

/-! ## Requests -/

def zdcSendCommand (s : LcsfStack) (cmdName : zdc_cmd_names) (hasPayload : Bool)
    (zdcInfo : zdc_info_t) : Bool × zdc_info_t :=
  let pCmdPayload := if hasPayload then some zdcInfo.SendCmdPayload else none
  let (msgSize, SendBuffer) :=
    LCSF_Bridge_zdcEncode s cmdName pCmdPayload zdcInfo.SendBuffer ZDC_SEND_BUFF_SIZE
  let zdcInfo := { zdcInfo with SendBuffer }
  if msgSize ≤ 0 then (false, zdcInfo)
  else (true, { zdcInfo with curr_size := UInt16.ofNat msgSize.toNat })

/-- The message at `*pBuffer`, of `*buffSize` bytes, that a successful encoding gives out. -/
def out (sent : Bool × zdc_info_t) : Result (Option (List UInt8) × zdc_info_t) :=
  if sent.1 then do
    let msg ← orFault (sent.2.SendBuffer.read sent.2.curr_size.toNat) .badRead
    return (some msg, sent.2)
  else
    return (none, sent.2)

def zdc_encode_keyexpr (s : LcsfStack) (eid : UInt8) (suffix : CString) (zdcInfo : zdc_info_t) :
    Result (Option (List UInt8) × zdc_info_t) :=
  let p := (zdcInfo.SendCmdPayload.set_entity_id eid.toUInt16).set_ptr suffix.bytes
  out (zdcSendCommand s .SET_ENTITY_KEYEXPR true { zdcInfo with SendCmdPayload := p })

def zdc_encode_state (s : LcsfStack) (eid : UInt8) (state : UInt8) (zdcInfo : zdc_info_t) :
    Result (Option (List UInt8) × zdc_info_t) :=
  let p := (zdcInfo.SendCmdPayload.set_entity_id eid.toUInt16).set_state state
  out (zdcSendCommand s .SET_ENTITY_STATE true { zdcInfo with SendCmdPayload := p })

def zdc_encode_list_entity (s : LcsfStack) (zdcInfo : zdc_info_t) :
    Result (Option (List UInt8) × zdc_info_t) :=
  out (zdcSendCommand s .LIST_ENTITIES_REQ false zdcInfo)

/-! ## Responses -/

/-- What the loop prints of one record: where it starts, the type, the state, and the string that
`%.*s` shows. -/
structure entity_line where
  curr_idx : Nat
  type : UInt8
  state : UInt8
  ke_suffix : List UInt8
deriving DecidableEq, Repr

def byte (m_entity_list : List UInt8) (curr_idx : Nat) : Result UInt8 :=
  orFault m_entity_list[curr_idx]? .badRead

/-- `%.*s`: up to `ke_size` bytes, up to the first NUL. The end of the list has to come after. -/
def shown (m_entity_list : List UInt8) (curr_idx ke_size : Nat) : Result (List UInt8) :=
  let field := (m_entity_list.drop curr_idx).take ke_size
  if field.length = ke_size ∨ 0 ∈ field then pure (field.takeWhile (· ≠ 0)) else throw .badRead

def entity_step (m_entity_list : List UInt8) (curr_idx : Nat) : Result (entity_line × Nat) := do
  let type ← byte m_entity_list curr_idx
  let state ← byte m_entity_list (curr_idx + 1)
  let ke_size ← byte m_entity_list (curr_idx + 2)
  let _ ← orFault ZDC_TYPE_TO_STR[type.toNat]? .badIndex
  let _ ← orFault ZDC_STATE_TO_STR[state.toNat]? .badIndex
  let ke_suffix ← shown m_entity_list (curr_idx + 3) ke_size.toNat
  return (⟨curr_idx, type, state, ke_suffix⟩, curr_idx + 3 + ke_size.toNat)

def entity_loop (m_entity_list : List UInt8) : Nat → Nat → Result (List entity_line × Nat)
  | 0, curr_idx => pure ([], curr_idx)
  | n + 1, curr_idx => do
    let (line, curr_idx) ← entity_step m_entity_list curr_idx
    let (lines, curr_idx) ← entity_loop m_entity_list n curr_idx
    return (line :: lines, curr_idx)

/-- The lines printed, and where the cursor stops. `none` is the refusal of a null payload. -/
def zdcExecutelist_entities_resp (pCmdPayload : Option zdc_cmd_payload_t) :
    Result (Option (List entity_line × Nat)) := do
  let some p := pCmdPayload | return none
  let m_entity_nb := p.entity_nb
  if m_entity_nb = 0 then
    return some ([], 0)
  let m_entity_list ← orFault p.ptr .badRead
  let r ← entity_loop m_entity_list m_entity_nb 0
  return some r

def zdcExecutecmd_status (pCmdPayload : Option zdc_cmd_payload_t) : Option Bool := do
  let p ← pCmdPayload
  return p.status_value = 0

def zdc_MainExecute (cmdName : zdc_cmd_names) (pCmdPayload : Option zdc_cmd_payload_t) : Result Bool :=
  match cmdName with
  | .LIST_ENTITIES_RESP => do
    let lines ← zdcExecutelist_entities_resp pCmdPayload
    return lines.isSome
  | .CMD_STATUS => pure (zdcExecutecmd_status pCmdPayload).isSome
  | _ => pure false

/-- `Entity %d: type: %s, state: %s, ke: %.*s`, without the number. -/
structure entity_text where
  type : String
  state : String
  ke_suffix : List UInt8
deriving DecidableEq, Repr

/-- The loop has looked both strings up in their tables. -/
def entity_line.text (line : entity_line) : entity_text :=
  ⟨ZDC_TYPE_TO_STR.getD line.type.toNat "", ZDC_STATE_TO_STR.getD line.state.toNat "", line.ke_suffix⟩

inductive printed_t where
  | entities (m_entity_nb : Nat) (lines : List entity_text)
  | cmd_status (ok : Bool)
  /-- `Failed to process reply` -/
  | failed
  /-- `>> Received an error` -/
  | error
deriving DecidableEq, Repr

/-- What `zdc_MainExecute` prints. It returns false exactly when it prints nothing. -/
def zdc_MainExecute_prints (cmdName : zdc_cmd_names) (pCmdPayload : Option zdc_cmd_payload_t) :
    Result (Option printed_t) :=
  match cmdName with
  | .LIST_ENTITIES_RESP => do
    let out ← zdcExecutelist_entities_resp pCmdPayload
    return do
      let p ← pCmdPayload
      let (lines, _) ← out
      some (.entities p.entity_nb (lines.map entity_line.text))
  | .CMD_STATUS => pure ((zdcExecutecmd_status pCmdPayload).map .cmd_status)
  | _ => pure none

theorem zdc_MainExecute_eq (cmdName : zdc_cmd_names) (p : zdc_cmd_payload_t) :
    zdc_MainExecute cmdName (some p) = (zdc_MainExecute_prints cmdName (some p)).map Option.isSome := by
  cases cmdName with
  | LIST_ENTITIES_RESP =>
    unfold zdc_MainExecute zdc_MainExecute_prints
    cases zdcExecutelist_entities_resp (some p) with
    | error e => rfl
    | ok out => cases out <;> rfl
  | _ => rfl

def LCSF_Bridge_zdcReceive (cmd : lcsf_valid_cmd_t) (CmdPayload : zdc_cmd_payload_t) :
    Result (Bool × zdc_cmd_payload_t) := do
  let cmdName := LCSF_Bridge_zdc_CMDID2CMDNAME cmd.CmdId
  let CmdPayload ← LCSF_Bridge_zdcGetCmdData cmdName cmd.pAttArray CmdPayload
  let status ← zdc_MainExecute cmdName (some CmdPayload)
  return (status, CmdPayload)

end ZdcPoc.A
