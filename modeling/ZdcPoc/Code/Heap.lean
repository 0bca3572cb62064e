import Mathlib.Logic.Function.Basic
import ZdcPoc.Code.MainB
import ZdcPoc.Lib.Heap

/-!
# The allocations of `zdc_Main_b.c`

The calls of `malloc`, `realloc` and `free`, beside what the functions do to `zdcInfo`. Each takes `zdcInfo`
as it is when the function is called.
-/

namespace ZdcPoc.B

/-- The pointers into the heap. `ke_suffix` is by slot, and `none` in a slot that was not registered.
`tmp_buff` is kept in the payload that is to be sent, until the next one. -/
structure heap_t where
  heap : Heap
  entity_list : Nat
  pSendBuffer : Nat
  ke_suffix : Nat → Option Nat
  tmp_buff : Option Nat

/-- The size of `zdc_entity_t` depends on Zenoh's types. -/
def zdc_MainInit_heap (sizeof_entity entity_nb buff_size : Nat) (zdc_suffix : CString) : heap_t :=
  let (entity_list, heap) := Heap.empty.malloc (sizeof_entity * (UInt16.ofNat (entity_nb + 1)).toNat)
  let (pSendBuffer, heap) := heap.malloc (UInt16.ofNat buff_size).toNat
  let (ke_suffix, heap) := heap.malloc zdc_suffix.size
  { heap, entity_list, pSendBuffer, ke_suffix := Function.update (fun _ => none) 0 (some ke_suffix)
    tmp_buff := none }

/-- `zdc_add_pub_entity` and `zdc_add_sub_entity` allocate alike. -/
def zdc_add_entity_heap (ke_suffix : CString) (zdcInfo : zdc_info_t) (m : heap_t) : heap_t :=
  let (p, heap) := m.heap.malloc ke_suffix.size
  { m with heap, ke_suffix := Function.update m.ke_suffix zdcInfo.el_idx.toNat (some p) }

def zdcExecutelist_entities_req_heap (zdcInfo : zdc_info_t) (m : heap_t) : heap_t :=
  let (tmp_buff, heap) := m.heap.malloc (64 * zdcInfo.el_size.toNat)
  { m with heap, tmp_buff := some tmp_buff }

def zdcExecuteset_entity_keyexpr_heap (e_id : Nat) (ke : CString) (zdcInfo : zdc_info_t) (m : heap_t) :
    Option heap_t :=
  if e_id ≥ zdcInfo.el_size.toNat then some m
  else
    match zdcInfo.entity e_id with
    | .ok entity =>
      if ke.size > entity.ke_size then do
        let (p, heap) ← m.heap.realloc (← m.ke_suffix e_id) ke.size
        return { m with heap, ke_suffix := Function.update m.ke_suffix e_id (some p) }
      else some m
    | .error _ => some m

/-- The array of the slots and the send buffer are not freed, nor are the buffers of lists. -/
def zdc_close_heap (zdcInfo : zdc_info_t) (m : heap_t) : Option heap_t := do
  let heap ← (List.range zdcInfo.el_size.toNat).foldlM (fun heap i => do heap.free (← m.ke_suffix i)) m.heap
  return { m with heap }

end ZdcPoc.B
