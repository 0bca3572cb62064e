import ZdcPoc.Keyexprs

/-!
# The temporary buffer of a list

It has 64 bytes for each slot, whatever the keyexprs are. A slot takes three bytes and the block of
its keyexpr, which a rename makes longer and never shorter.
-/

namespace ZdcPoc.B

open zdc_info_t

variable {z : Zenoh} {s : LcsfStack} {info t : zdc_info_t} {zdc_suffix : CString} {events : List Event}
  {rs : List Registration} {cmds : List Command}

def rename_command (rename : UInt16 × CString) : Command := .set_entity_keyexpr rename.1 rename.2

/-- The events of a node that registers `rs`, and is then sent these commands. -/
def history (rs : List Registration) (cmds : List Command) : List Event :=
  rs.map .add ++ cmds.map .exec

def list_size (zdc_suffix : CString) (rs : List Registration) (cmds : List Command) : Nat :=
  ((List.range (rs.length + 1)).map fun i =>
    3 + (1 + longest (assigned zdc_suffix (history rs cmds) i))).sum

/-- A list that comes after the commands writes no byte outside of its temporary buffer. -/
def ListsInside (z : Zenoh) (s : LcsfStack) (cmds : List Command) (info : zdc_info_t) : Prop :=
  ∃ t r t' tmp_buff, Run.run (execute z s) cmds info = .ok t ∧
    execute z s .list_entities_req t = .ok (r, t') ∧ t'.SendCmdPayload.ptr = some tmp_buff ∧
    tmp_buff.length ≤ 64 * t.el_size.toNat

/-! ## The history of a node -/

theorem Traced.add_all (h : Traced zdc_suffix events info)
    (hroom : (registered zdc_suffix events).length + rs.length ≤ 256)
    (hadd : Registration.add_all z rs info = .ok t) :
    Traced zdc_suffix (events ++ rs.map .add) t := by
  induction rs generalizing info events with
  | nil =>
    cases hadd
    rwa [List.map_nil, List.append_nil]
  | cons rg rs ih =>
    rw [List.length_cons] at hroom
    obtain ⟨mid, ha, hadd⟩ := Result.bind_ok hadd
    have hidx : info.el_idx.toNat = (registered zdc_suffix events).length := by
      rw [h.el_idx, UInt8.toNat_ofNat']
      omega
    have hfresh : AddsFresh (.add rg) info := by
      intro _ _
      refine ⟨h.wf.length ▸ (Registration.add_cases h.wf ha).1, ?_⟩
      rw [hidx]
      cases hc : info.cell (registered zdc_suffix events).length with
      | none => rfl
      | some c => exact absurd ((h.filled _).mp ⟨c, hc⟩) (by omega)
    have hroom' : (registered zdc_suffix (events ++ [.add rg])).length + rs.length ≤ 256 := by
      rw [registered_add, List.length_append, List.length_singleton]
      omega
    have := ih (h.add hfresh ha) hroom' hadd
    rwa [List.append_assoc, List.singleton_append, ← List.map_cons] at this

theorem Traced.run (h : Traced zdc_suffix events info) (hrun : Run.run (execute z s) cmds info = .ok t) :
    Traced zdc_suffix (events ++ cmds.map .exec) t := by
  induction cmds generalizing info events with
  | nil =>
    cases hrun
    rwa [List.map_nil, List.append_nil]
  | cons cmd cmds ih =>
    obtain ⟨r, mid, hexec, hrun⟩ := Run.run_cons_ok hrun
    have := ih (h.exec hexec) hrun
    rwa [List.append_assoc, List.singleton_append, ← List.map_cons] at this

theorem traced_history {entity_nb buff_size : Nat}
    (hsetup : setup z entity_nb buff_size zdc_suffix rs = .ok info) (hlen : rs.length ≤ 255)
    (hrun : Run.run (execute z s) cmds info = .ok t) : Traced zdc_suffix (history rs cmds) t := by
  obtain ⟨first, hinit, hadd⟩ := Result.bind_ok hsetup
  have hroom : (registered zdc_suffix []).length + rs.length ≤ 256 := by
    rw [registered, List.filterMap_nil, List.length_singleton]
    omega
  exact ((Traced.init hinit).add_all hroom hadd).run hrun

/-! ## The size of a list -/

theorem records_length (hf : info.Full) (size : Nat → Nat)
    (hsize : ∀ i c, info.cell i = some c → c.entity.ke_size = size i) :
    info.records.length = ((List.range info.el_size.toNat).map fun i => 3 + size i).sum := by
  have hrecords : info.entities.map (fun e => e.record.length) =
      (List.range info.el_size.toNat).map fun i => 3 + size i := by
    apply List.ext_getElem
    · rw [List.length_map, List.length_map, List.length_range, hf.entities_length]
    · intro i hi _
      rw [List.length_map] at hi
      obtain ⟨c, hc, he⟩ := hf.cell_of_lt hi
      rw [List.getElem_map, List.getElem_map, List.getElem_range, ← he,
        (hf.sound i c hc).entity.record_length, hsize i c hc]
  rw [zdc_info_t.records, List.length_flatMap, hrecords]

theorem renames_complete (hf : info.Full) (renames : List (UInt16 × CString)) :
    ∃ t, Run.run (execute z s) (renames.map rename_command) info = .ok t ∧ t.Full ∧
      t.el_size = info.el_size := by
  induction renames generalizing info with
  | nil => exact ⟨info, rfl, hf, rfl⟩
  | cons rename renames ih =>
    obtain ⟨r, mid, hexec⟩ : ∃ r mid, execute z s (rename_command rename) info = .ok (r, mid) := by
      have hid : (rename_command rename).entity_id = some rename.1 := rfl
      rcases execute_set (z := z) (s := s) hf hid not_false with
        ⟨-, h⟩ | ⟨-, mid, h, -⟩
      · exact ⟨_, _, h⟩
      · exact ⟨_, _, h⟩
    have hd := execute_stepped hf.toWF hexec
    obtain ⟨t, hrun, hfull, hsize⟩ := ih (hd.full hf)
    refine ⟨t, ?_, hfull, hsize.trans hd.el_size⟩
    rw [List.map_cons]
    unfold Run.run
    rw [hexec]
    exact hrun

/-- A list that comes after any renames stays inside of its buffer exactly when the longest keyexprs
that the slots have had fit, with their NULs and three more bytes each. -/
theorem lists_inside_iff {entity_nb buff_size : Nat}
    (hsetup : setup z entity_nb buff_size zdc_suffix rs = .ok info)
    (hlen : rs.length + 1 = info.el_size.toNat) (hreg : info.Registered)
    (renames : List (UInt16 × CString)) :
    ListsInside z s (renames.map rename_command) info ↔
      list_size zdc_suffix rs (renames.map rename_command) ≤ 64 * (rs.length + 1) := by
  have hstart : Started z info := ⟨⟨_, _, _, _, hsetup, hlen⟩, hreg⟩
  obtain ⟨t, hrun, hf, hsize⟩ := renames_complete (z := z) (s := s) hstart.full renames
  have hsmall := hstart.el_size_le
  have htraced := traced_history hsetup (by omega) hrun
  have hrecords := records_length hf _ fun i c hc => (htraced.held i c hc).size
  rw [hsize, ← hlen, ← list_size] at hrecords
  constructor
  · rintro ⟨t', r, t'', -, hrun', hexec, -⟩
    rw [hrun] at hrun'
    cases hrun'
    have hfit := (execute_list_full hf.toWF hexec).2
    rwa [hrecords, hsize, ← hlen] at hfit
  · intro hfit
    rw [← hrecords, hlen, ← hsize] at hfit
    obtain ⟨r, t', hexec, -, hptr, -⟩ := list_reply (s := s) z hf hfit
    exact ⟨t, r, t', _, hrun, hexec, hptr, hfit⟩

theorem lists_inside_renamed : ∃ info,
    setup World.acceptAll 1 256 (World.str [0x7a]) [.pub true (World.str [0x61]) none] = .ok info ∧
    ListsInside World.acceptAll World.stack
      ([(1, World.str [0x62, 0x63]), (0, World.str [0x79])].map rename_command) info := by
  obtain ⟨info, hsetup, h⟩ := setup_started World.acceptAll 256 (World.str [0x7a])
    [.pub true (World.str [0x61]) none] (by decide)
  have hsize := Result.of_map (f := zdc_info_t.el_size) (b := 2) hsetup rfl
  exact ⟨info, hsetup, (lists_inside_iff hsetup (by rw [hsize]; decide) h.registered _).mpr (by decide)⟩

/-- Two renames to keyexprs of 70 characters, as the controller sends them, and the list that follows
overflows its 128 bytes. -/
theorem list_overflows : ∃ info msg₀ a₀ msg₁ a₁ msg₂ a₂ reply₀ node₀ reply₁ node₁,
    setup World.acceptAll 1 256 (World.str [0x7a]) [.pub true (World.str [0x61]) none] = .ok info ∧
    A.zdc_encode_keyexpr World.stack 0 (World.str (List.replicate 70 0x61)) .zero = .ok (some msg₀, a₀) ∧
    A.zdc_encode_keyexpr World.stack 1 (World.str (List.replicate 70 0x61)) a₀ = .ok (some msg₁, a₁) ∧
    A.zdc_encode_list_entity World.stack a₁ = .ok (some msg₂, a₂) ∧
    zdc_cmd_handler World.acceptAll World.stack ⟨msg₀, true⟩ ⟨info, .zero⟩ = .ok (reply₀, node₀) ∧
    zdc_cmd_handler World.acceptAll World.stack ⟨msg₁, true⟩ node₀ = .ok (reply₁, node₁) ∧
    zdc_cmd_handler World.acceptAll World.stack ⟨msg₂, true⟩ node₁ = .error .overflow ∧
    ¬ ListsInside World.acceptAll World.stack
      ([(0, World.str (List.replicate 70 0x61)), (1, World.str (List.replicate 70 0x61))].map
        rename_command) info := by
  refine ⟨_, _, _, _, _, _, _, _, _, _, _, rfl, rfl, rfl, rfl, rfl, rfl, rfl, ?_⟩
  rintro ⟨t, r, t', -, hrun, hexec, -⟩
  cases hrun
  cases hexec

end ZdcPoc.B
