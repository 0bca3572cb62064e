import ZdcPoc.Setup
import ZdcPoc.World

/-!
# Registrations, one by one

The index of the next slot is one byte, the size of the table two bytes, and the number of entities
that the application asks for is neither.
-/

namespace ZdcPoc.B

open zdc_info_t

variable {z : Zenoh} {info info' : zdc_info_t} {entity_nb buff_size : Nat} {zdc_suffix : CString}
  {rs : List Registration} {rg : Registration}

/-- A call writes slot `k`, of a table in which all slots before it are registered and stay as they
are. -/
structure FillsSlot (k : Nat) (rg : Registration) (info info' : zdc_info_t) : Prop where
  inside : k < info.entity_list.length
  filled : ∃ c, info'.cell k = some c ∧ c.entity.type = rg.type ∧
    c.entity.ke_suffix.str = some rg.ke_suffix ∧ c.entity.state = rg.start_on.toInt8
  kept : ∀ j, j < k → ∃ c, info.cell j = some c ∧ info'.cell j = some c

def FillsInOrder (z : Zenoh) (entity_nb buff_size : Nat) (zdc_suffix : CString)
    (rs : List Registration) : Prop :=
  ∃ first, zdc_MainInit z 0 entity_nb buff_size zdc_suffix = .ok first ∧
    first.el_size.toNat = entity_nb + 1 ∧
    ∀ done rg rest, rs = done ++ rg :: rest → ∃ info info',
      Registration.add_all z done first = .ok info ∧ rg.add z info = .ok info' ∧
      FillsSlot (done.length + 1) rg info info' ∧ info'.el_size.toNat = entity_nb + 1

/-! ## One call -/

theorem Filled.fills_slot {n : Nat} (hf : Filled z n info) (hn : n < 256)
    (h : rg.add z info = .ok info') : FillsSlot n rg info info' := by
  have hidx : info.el_idx.toNat = n := by
    rw [hf.el_idx, UInt8.toNat_ofNat']
    omega
  have hcell := Registration.add_cell hf.wf h
  rw [hidx] at hcell
  refine ⟨hidx ▸ (Registration.add_cases hf.wf h).1, ?_, fun j hj => ?_⟩
  · refine ⟨_, by rw [hcell, if_pos rfl], Registration.cell_type info n rg, ?_,
      Registration.cell_state info n rg⟩
    rw [Registration.cell_ke_suffix, Block.str_all]
  · obtain ⟨c, hc⟩ := (hf.filled j).mpr hj
    exact ⟨c, hc, by rw [hcell, if_neg (by omega), hc]⟩

theorem not_fills_slot_256 (hw : info.WF) (hlow : ∀ i c, info.cell i = some c → i < 256)
    (h : rg.add z info = .ok info') : ¬ FillsSlot 256 rg info info' := by
  rintro ⟨-, ⟨c, hc, -⟩, -⟩
  rw [Registration.add_cell hw h] at hc
  split at hc
  · rename_i hidx
    have := info.el_idx.toNat_lt
    omega
  · exact absurd (hlow 256 c hc) (by omega)

/-- When `el_idx` has wrapped, the slot of the command channel is filled again. -/
theorem Filled.wraps (hf : Filled z 256 info) (h : rg.add z info = .ok info') :
    ∃ c, info'.cell 0 = some c ∧ c.entity.type = rg.type := by
  have hidx : info.el_idx.toNat = 0 := by
    rw [hf.el_idx]
    rfl
  exact ⟨_, by rw [Registration.add_cell hf.wf h, if_pos hidx.symm], Registration.cell_type _ _ rg⟩

/-! ## All calls -/

theorem MainInit_low (h : zdc_MainInit z 0 entity_nb buff_size zdc_suffix = .ok info) (i : Nat)
    (c : Cell) (hc : info.cell i = some c) : i < 256 := by
  have := ((MainInit_filled h).1.filled i).mp ⟨c, hc⟩
  omega

theorem fills_in_order (hnb : entity_nb < 65535) (hlen : rs.length ≤ entity_nb)
    (h255 : rs.length ≤ 255) : FillsInOrder z entity_nb buff_size zdc_suffix rs := by
  have hsize : (UInt16.ofNat (entity_nb + 1)).toNat = entity_nb + 1 := by
    rw [UInt16.toNat_ofNat']
    omega
  obtain ⟨first, hinit⟩ : ∃ first, zdc_MainInit z 0 entity_nb buff_size zdc_suffix = .ok first :=
    ⟨_, MainInit_spec (by omega)⟩
  obtain ⟨hf, hel⟩ := MainInit_filled hinit
  rw [← hel] at hsize
  refine ⟨first, hinit, hsize, ?_⟩
  rintro done rg rest rfl
  rw [List.length_append, List.length_cons] at hlen h255
  obtain ⟨info, hdone⟩ := hf.add_all_completes done (by omega) (by omega) (by omega)
  have hmid := hf.add_all (by omega) (by omega) hdone
  have hmidsize := (add_all_el_size hf.wf hdone).2.1
  obtain ⟨info', hadd⟩ := hmid.add_completes rg (by rw [hmidsize]; omega)
  refine ⟨info, info', hdone, hadd, ?_, ?_⟩
  · rw [Nat.add_comm]
    exact hmid.fills_slot (by omega) hadd
  · rw [Registration.add_el_size hmid.wf hadd, hmidsize, hsize]

theorem not_fills_in_order (h256 : 256 ≤ rs.length) :
    ¬ FillsInOrder z entity_nb buff_size zdc_suffix rs := by
  rintro ⟨first, hinit, -, hcalls⟩
  have hw := (MainInit_filled hinit).1.wf
  have hsplit : rs = rs.take 255 ++ rs[255] :: rs.drop 256 := by
    rw [List.cons_getElem_drop_succ, List.take_append_drop]
  have hlen : (rs.take 255).length = 255 := by
    rw [List.length_take]
    omega
  obtain ⟨info, info', hdone, hadd, hfills, -⟩ := hcalls _ _ _ hsplit
  obtain ⟨hwf, -, hlow⟩ := add_all_el_size hw hdone
  rw [hlen] at hfills
  exact not_fills_slot_256 hwf (hlow (MainInit_low hinit)) hadd hfills

/-- Registration goes in order, and `el_size` is what was asked for, up to 255 calls and a size that
fits two bytes. -/
theorem fills_in_order_iff (h : rs.length ≤ entity_nb) :
    FillsInOrder z entity_nb buff_size zdc_suffix rs ↔ entity_nb < 65535 ∧ rs.length ≤ 255 := by
  constructor
  · intro hfills
    constructor
    · obtain ⟨first, hinit, hsize, -⟩ := hfills
      have := first.el_size.toNat_lt
      omega
    · by_contra hmore
      exact not_fills_in_order (by omega) hfills
  · rintro ⟨hnb, h255⟩
    exact fills_in_order hnb h h255

theorem fills_in_order_two : FillsInOrder World.acceptAll 2 64 (World.str [0x7a])
    [.pub true (World.str [0x61]) none, .sub false (World.str [0x62]) none (.application 0)] :=
  (fills_in_order_iff (by decide)).mpr (by decide)

theorem command_channel_overwritten : ∃ info info',
    setup World.acceptAll 256 64 (World.str [0x7a])
      (List.replicate 255 (.pub true (World.str [0x61]) none)) = .ok info ∧
    Registration.add World.acceptAll (.pub true (World.str [0x61]) none) info = .ok info' ∧
    (∃ c, info.cell 0 = some c ∧ IsChannel c) ∧
    (∃ c, info'.cell 0 = some c ∧ c.entity.type = .ZDC_TYPE_PUB) ∧
    ¬ FillsInOrder World.acceptAll 256 64 (World.str [0x7a])
      (List.replicate 256 (.pub true (World.str [0x61]) none)) := by
  obtain ⟨first, hinit⟩ :
      ∃ first, zdc_MainInit World.acceptAll 0 256 64 (World.str [0x7a]) = .ok first :=
    ⟨_, MainInit_spec (by decide)⟩
  obtain ⟨hf, hel⟩ := MainInit_filled hinit
  have hsize : first.el_size.toNat = 257 := congrArg UInt16.toNat hel
  obtain ⟨info, hinfo⟩ := hf.add_all_completes
    (List.replicate 255 (.pub true (World.str [0x61]) none))
    (by omega) (by rw [List.length_replicate]) (by rw [List.length_replicate]; omega)
  have hfull : Filled World.acceptAll 256 info := by
    have := hf.add_all (by omega) (by rw [List.length_replicate]) hinfo
    rwa [List.length_replicate] at this
  obtain ⟨info', hadd⟩ := hfull.add_completes (.pub true (World.str [0x61]) none)
    (by rw [(add_all_el_size hf.wf hinfo).2.1, hsize]; decide)
  obtain ⟨c, hc⟩ := (hfull.filled 0).mpr (by omega)
  refine ⟨info, info', by rw [setup, hinit, ok_bind, hinfo], hadd, ⟨c, hc, hfull.channel c hc⟩,
    hfull.wraps hadd, not_fills_in_order (by rw [List.length_replicate])⟩

end ZdcPoc.B
