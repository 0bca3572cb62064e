import ZdcPoc.Code.Lcsf

/-!
# `LCSF_Bridge_zdc_b.c`
-/

namespace ZdcPoc.B

open Bytes

def LCSF_Bridge_zdcset_entity_stateGetData (pAttArray : List lcsf_valid_att_t)
    (p : zdc_cmd_payload_t) : Result zdc_cmd_payload_t := do
  let entity_id ← att pAttArray 0
  let p := copyAtt entity_id 0 p
  let state ← att pAttArray 1
  return copyAtt state 2 p

def LCSF_Bridge_zdcset_entity_keyexprGetData (pAttArray : List lcsf_valid_att_t)
    (p : zdc_cmd_payload_t) : Result zdc_cmd_payload_t := do
  let entity_id ← att pAttArray 0
  let p := copyAtt entity_id 0 p
  let keyexpr ← att pAttArray 1
  return p.set_ptr keyexpr.pData

def LCSF_Bridge_zdcset_entity_configGetData (pAttArray : List lcsf_valid_att_t)
    (p : zdc_cmd_payload_t) : Result zdc_cmd_payload_t := do
  let entity_id ← att pAttArray 0
  let p := copyAtt entity_id 0 p
  let entitiy_config ← att pAttArray 1
  return p.set_ptr entitiy_config.pData

def LCSF_Bridge_zdcGetCmdData (cmdName : zdc_cmd_names)
    (pAttArray : Option (List lcsf_valid_att_t)) (p : zdc_cmd_payload_t) :
    Result zdc_cmd_payload_t :=
  match pAttArray with
  | none => pure p
  | some atts =>
    match cmdName with
    | .SET_ENTITY_STATE => LCSF_Bridge_zdcset_entity_stateGetData atts p
    | .SET_ENTITY_KEYEXPR => LCSF_Bridge_zdcset_entity_keyexprGetData atts p
    | .SET_ENTITY_CONFIG => LCSF_Bridge_zdcset_entity_configGetData atts p
    | _ => pure p

def LCSF_Bridge_zdclist_entities_respFillAtt (s : LcsfStack) (pCmdPayload : Option zdc_cmd_payload_t) :
    Option (List lcsf_valid_att_t) := do
  let p ← pCmdPayload
  guard (s.FiloGet LCSF_BRIDGE_ZDC_FILO_SIZE 2)
  return [⟨some p.entity_listSize, p.ptr.getD []⟩, ⟨some (s.GetVLESize p.entity_nb), p.bytes.read 16 2⟩]

def LCSF_Bridge_zdccmd_statusFillAtt (s : LcsfStack) (pCmdPayload : Option zdc_cmd_payload_t) :
    Option (List lcsf_valid_att_t) := do
  let p ← pCmdPayload
  guard (s.FiloGet LCSF_BRIDGE_ZDC_FILO_SIZE 1)
  return [⟨some (s.GetVLESize p.status_value), p.bytes.read 0 1⟩]

/-- `none` is the failure of the C function, `some none` a null attribute array. -/
def LCSF_Bridge_zdcFillCmdAtt (s : LcsfStack) (cmdName : zdc_cmd_names)
    (pCmdPayload : Option zdc_cmd_payload_t) : Option (Option (List lcsf_valid_att_t)) :=
  match cmdName with
  | .LIST_ENTITIES_RESP => (LCSF_Bridge_zdclist_entities_respFillAtt s pCmdPayload).map some
  | .CMD_STATUS => (LCSF_Bridge_zdccmd_statusFillAtt s pCmdPayload).map some
  | _ => some none

/-- The FILO has room for the attributes of every command. -/
theorem LCSF_Bridge_zdcFillCmdAtt_some (s : LcsfStack) (cmdName : zdc_cmd_names) (p : zdc_cmd_payload_t) :
    LCSF_Bridge_zdcFillCmdAtt s cmdName (some p) = some (match cmdName with
      | .LIST_ENTITIES_RESP =>
        some [⟨some p.entity_listSize, p.ptr.getD []⟩, ⟨some (minWidth p.entity_nb), p.bytes.read 16 2⟩]
      | .CMD_STATUS => some [⟨some (minWidth p.status_value), p.bytes.read 0 1⟩]
      | _ => none) := by
  cases cmdName <;>
    simp [LCSF_Bridge_zdcFillCmdAtt, LCSF_Bridge_zdclist_entities_respFillAtt,
      LCSF_Bridge_zdccmd_statusFillAtt, s.FiloGet_eq, s.GetVLESize_eq, LCSF_BRIDGE_ZDC_FILO_SIZE]

def LCSF_Bridge_zdcEncode (s : LcsfStack) (cmdName : zdc_cmd_names)
    (pCmdPayload : Option zdc_cmd_payload_t) (pBuffer : Block) (buffSize : Nat) : Int × Block :=
  match LCSF_Bridge_zdcFillCmdAtt s cmdName pCmdPayload with
  | none => (-1, pBuffer)
  | some atts =>
    s.LCSF_ValidatorEncode ⟨LCSF_Bridge_zdc_CMDNAME2CMDID cmdName, atts⟩ pBuffer buffSize

end ZdcPoc.B
