import ZdcPoc.Lib.Block
import ZdcPoc.Lib.Bytes

/-!
# The zdc protocol

What `zdc_Main_a.h`, `zdc_Main_b.h`, the two `LCSF_Bridge_zdc_*.h` and `LCSF_Desc_zdc.c` share.
-/

namespace ZdcPoc

open Bytes

/-! ## Commands -/

inductive zdc_cmd_names where
  | LIST_ENTITIES_REQ
  | LIST_ENTITIES_RESP
  | SET_ENTITY_STATE
  | SET_ENTITY_KEYEXPR
  | SET_ENTITY_CONFIG
  | CMD_STATUS
deriving DecidableEq, Repr

def LCSF_ZDC_PROTOCOL_ID : UInt8 := 0x2e

def LCSF_Bridge_zdc_CMDNAME2CMDID : zdc_cmd_names → Nat
  | .LIST_ENTITIES_REQ => 0x0
  | .LIST_ENTITIES_RESP => 0x1
  | .SET_ENTITY_STATE => 0x2
  | .SET_ENTITY_KEYEXPR => 0x3
  | .SET_ENTITY_CONFIG => 0x4
  | .CMD_STATUS => 0x5

/-- An id that is no command falls to the `default:` in front of the first case. -/
def LCSF_Bridge_zdc_CMDID2CMDNAME (cmdId : Nat) : zdc_cmd_names :=
  match cmdId with
  | 0x1 => .LIST_ENTITIES_RESP
  | 0x2 => .SET_ENTITY_STATE
  | 0x3 => .SET_ENTITY_KEYEXPR
  | 0x4 => .SET_ENTITY_CONFIG
  | 0x5 => .CMD_STATUS
  | _ => .LIST_ENTITIES_REQ

@[simp] theorem cmdname_of_cmdid (name : zdc_cmd_names) :
    LCSF_Bridge_zdc_CMDID2CMDNAME (LCSF_Bridge_zdc_CMDNAME2CMDID name) = name := by
  cases name <;> rfl

inductive lcsf_data_type where
  | LCSF_UINT8
  | LCSF_UINT16
  | LCSF_BYTE_ARRAY
  | LCSF_STRING
deriving DecidableEq, Repr

/-- The attributes of each command, in the order of their ids. None is optional. -/
def LCSF_zdc_ProtDesc (cmdId : Nat) : Option (List lcsf_data_type) :=
  match cmdId with
  | 0x0 => some []
  | 0x1 => some [.LCSF_BYTE_ARRAY, .LCSF_UINT16]
  | 0x2 => some [.LCSF_UINT16, .LCSF_UINT8]
  | 0x3 => some [.LCSF_UINT16, .LCSF_STRING]
  | 0x4 => some [.LCSF_UINT16, .LCSF_BYTE_ARRAY]
  | 0x5 => some [.LCSF_UINT8]
  | _ => none

/-! ## The payload union

Its members overlap. On a little-endian target with 8-byte pointers they lie at these offsets:

| offset | `list_entities_resp` | `set_entity_state` | `set_entity_keyexpr` | `set_entity_config` | `cmd_status` |
|--------|----------------------|--------------------|----------------------|---------------------|--------------|
| 0      | `entity_listSize` (4) | `entity_id` (2)   | `entity_id` (2)      | `entity_id` (2)     | `status_value` (1) |
| 2      |                      | `state` (1)        |                      |                     |              |
| 4      |                      |                    |                      | `entitiy_configSize` (4) |         |
| 8      | `p_entity_list`      |                    | `p_keyexpr`          | `p_entitiy_config`  |              |
| 16     | `entity_nb` (2)      |                    |                      |                     |              |
-/

/-- `bytes` is the memory of the union around its one pointer cell, `ptr` is what that pointer
points at, `none` for a null pointer. -/
structure zdc_cmd_payload_t where
  bytes : Mem
  ptr : Option (List UInt8)

namespace zdc_cmd_payload_t

def zero : zdc_cmd_payload_t := ⟨fun _ => 0, none⟩

variable (p : zdc_cmd_payload_t)

def entity_id : Nat := p.bytes.num 0 2
def state : Nat := p.bytes.num 2 1
def status_value : Nat := p.bytes.num 0 1
def entity_listSize : Nat := p.bytes.num 0 4
def entitiy_configSize : Nat := p.bytes.num 4 4
def entity_nb : Nat := p.bytes.num 16 2

def set_entity_id (v : UInt16) : zdc_cmd_payload_t := { p with bytes := p.bytes.setNum 0 2 v.toNat }
def set_state (v : UInt8) : zdc_cmd_payload_t := { p with bytes := p.bytes.setNum 2 1 v.toNat }
def set_status_value (v : UInt8) : zdc_cmd_payload_t :=
  { p with bytes := p.bytes.setNum 0 1 v.toNat }
def set_entity_listSize (v : UInt32) : zdc_cmd_payload_t :=
  { p with bytes := p.bytes.setNum 0 4 v.toNat }

def set_entity_nb (v : UInt16) : zdc_cmd_payload_t := { p with bytes := p.bytes.setNum 16 2 v.toNat }
def set_ptr (data : List UInt8) : zdc_cmd_payload_t := { p with ptr := some data }

end zdc_cmd_payload_t

end ZdcPoc
