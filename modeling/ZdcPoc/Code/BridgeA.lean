import ZdcPoc.Code.Lcsf

/-!
# `LCSF_Bridge_zdc_a.c`
-/

namespace ZdcPoc.A

open Bytes

def LCSF_Bridge_zdclist_entities_respGetData (pAttArray : List lcsf_valid_att_t)
    (p : zdc_cmd_payload_t) : Result zdc_cmd_payload_t := do
  let entity_list ← att pAttArray 0
  let p := p.set_ptr entity_list.pData
  let entity_nb ← att pAttArray 1
  return copyAtt entity_nb 16 p

def LCSF_Bridge_zdccmd_statusGetData (pAttArray : List lcsf_valid_att_t)
    (p : zdc_cmd_payload_t) : Result zdc_cmd_payload_t := do
  let status_value ← att pAttArray 0
  return copyAtt status_value 0 p

def LCSF_Bridge_zdcGetCmdData (cmdName : zdc_cmd_names)
    (pAttArray : Option (List lcsf_valid_att_t)) (p : zdc_cmd_payload_t) :
    Result zdc_cmd_payload_t :=
  match pAttArray with
  | none => pure p
  | some atts =>
    match cmdName with
    | .LIST_ENTITIES_RESP => LCSF_Bridge_zdclist_entities_respGetData atts p
    | .CMD_STATUS => LCSF_Bridge_zdccmd_statusGetData atts p
    | _ => pure p

def LCSF_Bridge_zdcset_entity_stateFillAtt (s : LcsfStack) (pCmdPayload : Option zdc_cmd_payload_t) :
    Option (List lcsf_valid_att_t) := do
  let p ← pCmdPayload
  guard (s.FiloGet LCSF_BRIDGE_ZDC_FILO_SIZE 2)
  return [⟨some (s.GetVLESize p.entity_id), p.bytes.read 0 2⟩,
    ⟨some (s.GetVLESize p.state), p.bytes.read 2 1⟩]

/-- The size of a string is left to the stack. -/
def LCSF_Bridge_zdcset_entity_keyexprFillAtt (s : LcsfStack) (pCmdPayload : Option zdc_cmd_payload_t) :
    Option (List lcsf_valid_att_t) := do
  let p ← pCmdPayload
  guard (s.FiloGet LCSF_BRIDGE_ZDC_FILO_SIZE 2)
  return [⟨some (s.GetVLESize p.entity_id), p.bytes.read 0 2⟩, ⟨none, p.ptr.getD []⟩]

def LCSF_Bridge_zdcset_entity_configFillAtt (s : LcsfStack) (pCmdPayload : Option zdc_cmd_payload_t) :
    Option (List lcsf_valid_att_t) := do
  let p ← pCmdPayload
  guard (s.FiloGet LCSF_BRIDGE_ZDC_FILO_SIZE 2)
  return [⟨some (s.GetVLESize p.entity_id), p.bytes.read 0 2⟩, ⟨some p.entitiy_configSize, p.ptr.getD []⟩]

/-- `none` is the failure of the C function, `some none` a null attribute array. -/
def LCSF_Bridge_zdcFillCmdAtt (s : LcsfStack) (cmdName : zdc_cmd_names)
    (pCmdPayload : Option zdc_cmd_payload_t) : Option (Option (List lcsf_valid_att_t)) :=
  match cmdName with
  | .SET_ENTITY_STATE => (LCSF_Bridge_zdcset_entity_stateFillAtt s pCmdPayload).map some
  | .SET_ENTITY_KEYEXPR => (LCSF_Bridge_zdcset_entity_keyexprFillAtt s pCmdPayload).map some
  | .SET_ENTITY_CONFIG => (LCSF_Bridge_zdcset_entity_configFillAtt s pCmdPayload).map some
  | _ => some none

/-- The FILO has room for the attributes of every command. -/
theorem LCSF_Bridge_zdcFillCmdAtt_some (s : LcsfStack) (cmdName : zdc_cmd_names) (p : zdc_cmd_payload_t) :
    LCSF_Bridge_zdcFillCmdAtt s cmdName (some p) = some (match cmdName with
      | .SET_ENTITY_STATE =>
        some [⟨some (minWidth p.entity_id), p.bytes.read 0 2⟩, ⟨some (minWidth p.state), p.bytes.read 2 1⟩]
      | .SET_ENTITY_KEYEXPR =>
        some [⟨some (minWidth p.entity_id), p.bytes.read 0 2⟩, ⟨none, p.ptr.getD []⟩]
      | .SET_ENTITY_CONFIG =>
        some [⟨some (minWidth p.entity_id), p.bytes.read 0 2⟩,
          ⟨some p.entitiy_configSize, p.ptr.getD []⟩]
      | _ => none) := by
  cases cmdName <;>
    simp [LCSF_Bridge_zdcFillCmdAtt, LCSF_Bridge_zdcset_entity_stateFillAtt,
      LCSF_Bridge_zdcset_entity_keyexprFillAtt, LCSF_Bridge_zdcset_entity_configFillAtt, s.FiloGet_eq,
      s.GetVLESize_eq, LCSF_BRIDGE_ZDC_FILO_SIZE]

def LCSF_Bridge_zdcEncode (s : LcsfStack) (cmdName : zdc_cmd_names)
    (pCmdPayload : Option zdc_cmd_payload_t) (pBuffer : Block) (buffSize : Nat) : Int × Block :=
  match LCSF_Bridge_zdcFillCmdAtt s cmdName pCmdPayload with
  | none => (-1, pBuffer)
  | some atts =>
    s.LCSF_ValidatorEncode ⟨LCSF_Bridge_zdc_CMDNAME2CMDID cmdName, atts⟩ pBuffer buffSize

end ZdcPoc.A
