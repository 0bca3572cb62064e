import ZdcPoc.Code.MainB

/-!
# `main_rx.c`: the application of the node
-/

namespace ZdcPoc.Rx

open B

def ZDC_DEF_CMD_KEYEXPR : CString :=
  .lit ['s', 'e', 'n', 's', 'o', 'r', '/', '1', '/', 'z', 'd', 'c', 'p']

def ZDC_DEF_PUB_KEYEXPR : CString :=
  .lit ['s', 'e', 'n', 's', 'o', 'r', '/', '1', '/', 't', 'e', 'm', 'p']

def ZDC_DEF_SUB_KEYEXPR : CString :=
  .lit ['s', 'e', 'n', 's', 'o', 'r', '/', '1', '/', 'd', 'a', 't', 'a']

def ZDC_BUFFER_SIZE : Nat := 128
def ZDC_ENTITY_NB : Nat := 2

def app_data_handler : Callback := .application 0

def set_up (z : Zenoh) : Result zdc_info_t := do
  let zdcInfo ← zdc_MainInit z 0 ZDC_ENTITY_NB ZDC_BUFFER_SIZE ZDC_DEF_CMD_KEYEXPR
  let zdcInfo ← zdc_add_pub_entity z true ZDC_DEF_PUB_KEYEXPR none zdcInfo
  zdc_add_sub_entity z false ZDC_DEF_SUB_KEYEXPR none app_data_handler zdcInfo

/-! ## The publisher loop -/

/-- What is printed into `buf`. -/
structure buf_t where
  idx : Nat
  value : UInt8
deriving DecidableEq, Repr

/-- A view of the keyexpr: where it points to, and the string that it was made of. -/
structure view_t where
  ke_suffix : ke_ptr_t
  made : CString
deriving DecidableEq, Repr

/-- The next thing that the loop does. -/
inductive loop_t where
  | check_state
  | retrieve_keyexpr (buf : buf_t)
  | put (buf : buf_t) (ke : view_t)
deriving DecidableEq, Repr

structure main_t where
  node : node_t
  loop : loop_t
  idx : Nat

inductive output_t where
  | silent
  | z_put (ke : List UInt8) (buf : buf_t)
  | reply (reply : Option reply_t)
deriving DecidableEq, Repr

/-- `random` is what `z_random_u8` returns if it is called. The view is made right after `ke_suffix` was
read, and the put reads the block through it. -/
def publisher_step (z : Zenoh) (random : UInt8) (m : main_t) : Result (output_t × main_t) :=
  match m.loop with
  | .check_state => do
    let state ← zdc_entity_state 1 m.node.zdcInfo
    if state ≠ 1 then
      return (.silent, { m with idx := 0 })
    return (.silent, { m with loop := .retrieve_keyexpr ⟨m.idx, random &&& 0x3f⟩ })
  | .retrieve_keyexpr buf => do
    let ke_suffix ← orFault (← zdc_entity_ke_suffix 1 m.node.zdcInfo) .badRead
    let made ← ke_suffix.str m.node.zdcInfo
    return (.silent, { m with loop := .put buf ⟨ke_suffix, made⟩ })
  | .put buf ke => do
    let block ← ke.ke_suffix.block m.node.zdcInfo
    return (.z_put (z.viewed ke.made block) buf, { m with loop := .check_state, idx := m.idx + 1 })

/-- The application's thread and Zenoh's read task take turns in any order. -/
inductive turn_t where
  | publisher (random : UInt8)
  | handler (query : query_t)
deriving DecidableEq, Repr

def step (z : Zenoh) (s : LcsfStack) (turn : turn_t) (m : main_t) : Result (output_t × main_t) :=
  match turn with
  | .publisher random => publisher_step z random m
  | .handler query => do
    let (reply, node) ← zdc_cmd_handler z s query m.node
    return (.reply reply, { m with node })

end ZdcPoc.Rx
