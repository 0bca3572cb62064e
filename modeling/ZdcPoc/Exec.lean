import ZdcPoc.Cell

/-!
# The node computes its cells

One spec per function of `zdc_Main_b.c` that works on the entity list. Each says that the function
replaces one cell, and by what.
-/

namespace ZdcPoc.B

/-! ## The cell of a slot -/

namespace zdc_info_t

def cell (info : zdc_info_t) (i : Nat) : Option Cell :=
  match info.entity_list[i]? with
  | some (some e) => some ⟨e, part Decl.entity i info.session⟩
  | _ => none

def putCell (info : zdc_info_t) (i : Nat) (c : Cell) : zdc_info_t :=
  { info with
    entity_list := info.entity_list.set i (some c.entity)
    session := setPart Decl.entity i c.live info.session }

variable {info : zdc_info_t} {i j : Nat} {c : Cell}

theorem cell_eq_some : info.cell i = some c ↔
    info.entity_list[i]? = some (some c.entity) ∧ c.live = part Decl.entity i info.session := by
  unfold cell
  constructor
  · intro h
    split at h
    · rename_i e he
      cases h
      exact ⟨he, rfl⟩
    · cases h
  · rintro ⟨he, hl⟩
    rw [he]
    simp only [Option.some.injEq]
    rw [← hl]

theorem lt_of_cell (h : info.cell i = some c) : i < info.entity_list.length :=
  (List.getElem?_eq_some_iff.mp (cell_eq_some.mp h).1).1

theorem entity_of_cell (h : info.cell i = some c) : info.entity i = .ok c.entity := by
  rw [zdc_info_t.entity, (cell_eq_some.mp h).1]

theorem putCell_cell (h : info.cell i = some c) : info.putCell i c = info := by
  obtain ⟨he, hl⟩ := cell_eq_some.mp h
  obtain ⟨hi, hget⟩ := List.getElem?_eq_some_iff.mp he
  rw [putCell, hl, setPart_part, ← hget, List.set_getElem_self]

theorem cell_putCell (hi : i < info.entity_list.length) (h : ∀ d ∈ c.live, d.entity = i) :
    (info.putCell i c).cell i = some c := by
  rw [cell_eq_some]
  exact ⟨by simp [putCell, List.getElem?_set_self hi], (part_setPart h).symm⟩

theorem cell_putCell_ne (h : ∀ d ∈ c.live, d.entity = i) (hij : j ≠ i) :
    (info.putCell i c).cell j = info.cell j := by
  unfold cell putCell
  simp only [List.getElem?_set_ne (Ne.symm hij), part_setPart_ne h hij]

theorem putCell_putCell (c' : Cell) (h : ∀ d ∈ c.live, d.entity = i) :
    (info.putCell i c).putCell i c' = info.putCell i c' := by
  unfold putCell
  simp only [List.set_set, setPart_setPart h]

@[simp] theorem putCell_length : (info.putCell i c).entity_list.length = info.entity_list.length := by
  simp [putCell]

end zdc_info_t

open zdc_info_t

/-! ## `zdc_update_entity_state` -/

variable {z : Zenoh} {s : LcsfStack} {info : zdc_info_t} {i : Nat} {c : Cell}

theorem declare_entity_spec (hc : info.cell i = some c) (hs : c.Sound i) (st : Int8) :
    declare_entity z i { c.entity with state := st } info.session =
      .ok ({ (c.declare z i).entity with state := st },
        setPart Decl.entity i (c.declare z i).live info.session) := by
  obtain ⟨he, hl⟩ := cell_eq_some.mp hc
  have hkeep : setPart Decl.entity i c.live info.session = info.session := by rw [hl, setPart_part]
  have hdecl : ∀ k, z_declare z (c.entity.decl i k) info.session =
      ((z_declare z (c.entity.decl i k) c.live).1, (z_declare z (c.entity.decl i k) c.live).2.1,
        setPart Decl.entity i (z_declare z (c.entity.decl i k) c.live).2.2 info.session) := by
    intro k
    cases hz : z.accepts (c.entity.decl i k).keyexpr with
    | true => rw [z_declare_accepted hz, z_declare_accepted hz, hl, ← cons_part]
    | false => rw [z_declare_refused hz, z_declare_refused hz, hkeep]
  unfold declare_entity Cell.declare
  cases ht : c.entity.type <;>
    simp only [zdc_type_e.kind, hs.entity.string, orFault_some, ok_bind, hkeep]
  · rfl
  · have hsub := hdecl .subscriber
    simp only [zdc_entity_t.decl] at hsub ⊢
    rw [hsub, ht]; rfl
  · rfl
  · have hqueryable := hdecl .queryable
    simp only [zdc_entity_t.decl] at hqueryable ⊢
    rw [hqueryable, ht]; rfl

theorem undeclare_entity_spec (hc : info.cell i = some c) (hs : c.Sound i) (st : Int8)
    (hwritten : c.entity.type.kind ≠ none → c.entity.data ≠ .unwritten) :
    undeclare_entity { c.entity with state := st } info.session =
      .ok ({ c.undeclare.entity with state := st },
        setPart Decl.entity i c.undeclare.live info.session) := by
  obtain ⟨he, hl⟩ := cell_eq_some.mp hc
  have hkeep : setPart Decl.entity i c.live info.session = info.session := by rw [hl, setPart_part]
  have hundecl : c.entity.data ≠ .unwritten → z_undeclare c.entity.data info.session =
      some (setPart Decl.entity i ((z_undeclare c.entity.data c.live).getD c.live) info.session) := by
    intro hne
    cases hd : c.entity.data with
    | unwritten => exact absurd hd hne
    | null => exact congrArg some hkeep.symm
    | declared d =>
      simp only [z_undeclare, Option.getD_some]
      rw [hl]
      exact congrArg some (erase_part (hs.entity.own d (by rw [hd]; rfl)))
  unfold undeclare_entity Cell.undeclare
  cases ht : c.entity.type <;> simp only [zdc_type_e.kind, hkeep, ht]
  · rfl
  · rw [hundecl (hwritten (by simp [ht, zdc_type_e.kind]))]; rfl
  · rfl
  · rw [hundecl (hwritten (by simp [ht, zdc_type_e.kind]))]; rfl

theorem undeclare_entity_bad {e : zdc_entity_t} (hk : e.type.kind ≠ none) (hd : e.data = .unwritten)
    (session : Session) : undeclare_entity e session = .error .badHandle := by
  unfold undeclare_entity
  cases ht : e.type <;> simp only [hd, z_undeclare]
  · exact absurd (by rw [ht]; rfl) hk
  · rfl
  · exact absurd (by rw [ht]; rfl) hk
  · rfl

theorem zdc_update_entity_state_spec (hc : info.cell i = some c) (hs : c.Sound i) (b : UInt8) :
    zdc_update_entity_state z i b info =
      if c.BadHandle b then .error .badHandle else .ok (true, info.putCell i (c.turn z i b)) := by
  obtain ⟨he, hl⟩ := cell_eq_some.mp hc
  have hkeep : setPart Decl.entity i c.live info.session = info.session := by rw [hl, setPart_part]
  have hon : (b.toNat : Int) = ZDC_STATE_ON ↔ b = 1 := by
    rw [ZDC_STATE_ON, ← UInt8.toNat_inj, UInt8.toNat_one]; omega
  have hoff : (b.toNat : Int) = ZDC_STATE_OFF ↔ b = 0 := by
    rw [ZDC_STATE_OFF, ← UInt8.toNat_inj, UInt8.toNat_zero]; omega
  unfold zdc_update_entity_state Cell.turn
  simp only [entity_of_cell hc, ok_bind, hon, hoff]
  by_cases hsame : c.entity.state.toInt = b.toNat
  · have hgood : ¬ c.BadHandle b := fun hbad => hbad.2.2.2.1 (hsame.trans (hoff.mpr hbad.2.2.1))
    rw [if_pos hsame, if_neg hgood, if_pos hsame, putCell_cell hc]; rfl
  rw [if_neg hsame, if_neg hsame]
  by_cases hinv : c.entity.state.toInt = ZDC_STATE_INVALID ∧ b = 0
  · have hgood : ¬ c.BadHandle b := fun hbad => hbad.2.2.2.2 hinv.1
    rw [if_pos hinv, if_neg hgood, if_pos hinv]
    simp only [putCell, store, Cell.withState, hkeep]; rfl
  rw [if_neg hinv, if_neg hinv]
  by_cases h1 : b = 1
  · have hgood : ¬ c.BadHandle b := h1 ▸ Cell.not_badHandle_on
    rw [if_pos h1, if_neg hgood, if_pos h1, declare_entity_spec hc hs]; rfl
  rw [if_neg h1, if_neg h1]
  by_cases h0 : b = 0
  · have hstate : c.entity.state.toInt ≠ ZDC_STATE_OFF := fun h => hsame (h.trans (hoff.mpr h0).symm)
    rw [if_pos h0, if_pos h0]
    by_cases hbad : c.BadHandle b
    · have hundecl := undeclare_entity_bad (e := { c.entity with state := 2 }) hbad.1 hbad.2.1 info.session
      rw [if_pos hbad, hundecl]; rfl
    · rw [if_neg hbad, undeclare_entity_spec hc hs _ fun hk hd =>
        hbad ⟨hk, hd, h0, hstate, fun h => hinv ⟨h, h0⟩⟩]
      rfl
  · have hgood : ¬ c.BadHandle b := fun hbad => h0 hbad.2.2.1
    rw [if_neg h0, if_neg hgood, if_neg h0]
    simp only [putCell, store, Cell.withState, hkeep]; rfl

theorem zdc_update_entity_state_ok (hc : info.cell i = some c) (hs : c.Sound i) {b : UInt8}
    (hgood : ¬ c.BadHandle b) :
    zdc_update_entity_state z i b info = .ok (true, info.putCell i (c.turn z i b)) := by
  rw [zdc_update_entity_state_spec hc hs, if_neg hgood]

theorem replace_keyexpr_spec (hc : info.cell i = some c) (hs : c.Sound i) (ke : CString) :
    replace_keyexpr i ke info = .ok (info.putCell i (c.rewrite ke)) := by
  obtain ⟨he, hl⟩ := cell_eq_some.mp hc
  have hkeep : setPart Decl.entity i c.live info.session = info.session := by rw [hl, setPart_part]
  have hcopy := Block.grow_strcpy c.entity.ke_suffix ke
  rw [← hs.entity.size] at hcopy
  have hblock : (if ke.size > c.entity.ke_size then
      { c.entity with ke_suffix := c.entity.ke_suffix.realloc ke.size, ke_size := ke.size }
      else c.entity) =
      { c.entity with
        ke_suffix := if ke.size > c.entity.ke_size then c.entity.ke_suffix.realloc ke.size
          else c.entity.ke_suffix
        ke_size := max ke.size c.entity.ke_size } := by
    split
    · rename_i h
      rw [max_eq_left (by omega)]
    · rename_i h
      rw [max_eq_right (by omega)]
  unfold replace_keyexpr
  simp only [entity_of_cell hc, ok_bind, hblock, hcopy, orFault_some]
  simp only [putCell, store, Cell.rewrite, hkeep]
  rfl

/-! ## What the application asks -/

section Queries

variable (eid : UInt8)

theorem zdc_entity_state_spec (h : eid.toNat < info.el_size.toNat) (hc : info.cell eid.toNat = some c) :
    zdc_entity_state eid info = .ok c.entity.state.toInt := by
  unfold zdc_entity_state
  rw [if_neg (by omega), entity_of_cell hc, ok_bind]
  rfl

theorem zdc_entity_ke_suffix_spec (h : eid.toNat < info.el_size.toNat)
    (hc : info.cell eid.toNat = some c) :
    zdc_entity_ke_suffix eid info = .ok (some ⟨eid.toNat, c.entity.ke_suffix.length⟩) := by
  unfold zdc_entity_ke_suffix
  rw [if_neg (by omega), entity_of_cell hc, ok_bind]
  rfl

theorem ke_ptr_block_spec {ptr : ke_ptr_t} (hc : info.cell ptr.slot = some c) :
    ptr.block info =
      if c.entity.ke_suffix.length = ptr.size then .ok c.entity.ke_suffix else .error .badRead := by
  unfold ke_ptr_t.block
  rw [entity_of_cell hc, ok_bind]
  by_cases h : c.entity.ke_suffix.length = ptr.size
  · rw [if_neg (not_not.mpr h), if_pos h]
    rfl
  · rw [if_pos h, if_neg h]
    rfl

theorem ke_ptr_str_spec {ptr : ke_ptr_t} (hc : info.cell ptr.slot = some c) (hs : c.Sound ptr.slot)
    (hsize : c.entity.ke_suffix.length = ptr.size) : ptr.str info = .ok c.entity.keyexpr := by
  rw [ke_ptr_t.str, ke_ptr_block_spec hc, if_pos hsize, ok_bind, hs.entity.string]
  rfl

end Queries

/-! ## Sending -/

def statusCmd (status : UInt8) : lcsf_valid_cmd_t := ⟨0x5, some [⟨some 1, [status]⟩]⟩

def listCmd (entity_list : List UInt8) (entity_nb : Nat) : lcsf_valid_cmd_t :=
  ⟨0x1, some [⟨some (entity_list.length % 2 ^ 32), entity_list⟩,
    ⟨some (Bytes.minWidth entity_nb), Bytes.leBytes 2 entity_nb⟩]⟩

def send (s : LcsfStack) (cmd : lcsf_valid_cmd_t) (info : zdc_info_t) : Bool × zdc_info_t :=
  let r := s.LCSF_ValidatorEncode cmd info.pSendBuffer info.buff_size.toNat
  if r.1 ≤ 0 then (false, { info with pSendBuffer := r.2 })
  else (true, { info with pSendBuffer := r.2, curr_msg_size := UInt16.ofNat r.1.toNat })

/-- The bytes that wait in the send buffer, if any. -/
def zdc_info_t.reply (info : zdc_info_t) : Option (List UInt8) :=
  if info.curr_msg_size.toNat = 0 then none else info.pSendBuffer.read info.curr_msg_size.toNat

/-- The fields that sending leaves alone. -/
structure SameTable (a b : zdc_info_t) : Prop where
  entity_list : b.entity_list = a.entity_list
  session : b.session = a.session
  el_size : b.el_size = a.el_size
  buff_size : b.buff_size = a.buff_size
  el_idx : b.el_idx = a.el_idx

theorem SameTable.cell {a b : zdc_info_t} (h : SameTable a b) (i : Nat) : b.cell i = a.cell i := by
  unfold zdc_info_t.cell
  rw [h.entity_list, h.session]

theorem SameTable.trans {a b c : zdc_info_t} (h : SameTable a b) (h' : SameTable b c) : SameTable a c :=
  ⟨h'.entity_list.trans h.entity_list, h'.session.trans h.session, h'.el_size.trans h.el_size,
    h'.buff_size.trans h.buff_size, h'.el_idx.trans h.el_idx⟩

theorem SameTable.refl (info : zdc_info_t) : SameTable info info := ⟨rfl, rfl, rfl, rfl, rfl⟩

theorem SameTable.payload (info : zdc_info_t) (p : zdc_cmd_payload_t) :
    SameTable info { info with SendCmdPayload := p } := ⟨rfl, rfl, rfl, rfl, rfl⟩

section Sending

variable (s info)

theorem send_same (cmd : lcsf_valid_cmd_t) : SameTable info (send s cmd info).2 := by
  simp only [send]
  split <;> exact ⟨rfl, rfl, rfl, rfl, rfl⟩

variable {s}

theorem send_fits {cmd : lcsf_valid_cmd_t} (h : s.Fits cmd info.buff_size.toNat) :
    (send s cmd info).1 = true ∧ ∃ msg, s.wire cmd = some msg ∧ msg ≠ [] ∧
      (send s cmd info).2.curr_msg_size.toNat = msg.length ∧
      (send s cmd info).2.reply = some msg := by
  obtain ⟨msg, hw, hne, hlen⟩ := h
  have hpos : 0 < msg.length := List.length_pos_of_ne_nil hne
  have henc : s.LCSF_ValidatorEncode cmd info.pSendBuffer info.buff_size.toNat =
      ((msg.length : Int), Block.ofBytes msg ++ info.pSendBuffer.drop msg.length) := by
    simp only [LcsfStack.LCSF_ValidatorEncode, hw, if_pos hlen]
  have hsize : (UInt16.ofNat msg.length).toNat = msg.length := by
    have := info.buff_size.toNat_lt
    rw [UInt16.toNat_ofNat']
    omega
  have hsend : send s cmd info = (true, { info with
      pSendBuffer := Block.ofBytes msg ++ info.pSendBuffer.drop msg.length
      curr_msg_size := UInt16.ofNat msg.length }) := by
    simp only [send, henc]
    rw [if_neg (by omega), Int.toNat_natCast]
  rw [hsend]
  refine ⟨rfl, msg, hw, hne, hsize, ?_⟩
  simp only [zdc_info_t.reply, hsize]
  rw [if_neg (by omega), Block.read_ofBytes]

theorem send_not_fits {cmd : lcsf_valid_cmd_t} (h : ¬ s.Fits cmd info.buff_size.toNat) :
    (send s cmd info).1 = false ∧ (send s cmd info).2.curr_msg_size = info.curr_msg_size := by
  unfold send LcsfStack.LCSF_ValidatorEncode
  cases hw : s.wire cmd with
  | none => exact ⟨rfl, rfl⟩
  | some msg =>
    simp only
    split
    · rename_i hlen
      have hnil : msg = [] := by
        by_contra hne
        exact h ⟨msg, hw, hne, hlen⟩
      subst hnil
      exact ⟨rfl, rfl⟩
    · exact ⟨rfl, rfl⟩

theorem send_ok_iff (cmd : lcsf_valid_cmd_t) :
    (send s cmd info).1 = true ↔ s.Fits cmd info.buff_size.toNat := by
  refine ⟨fun h => ?_, fun hfit => (send_fits info hfit).1⟩
  by_contra hfit
  rw [(send_not_fits info hfit).1] at h
  cases h

variable (s)

@[simp] theorem send_payload (cmd : lcsf_valid_cmd_t) :
    (send s cmd info).2.SendCmdPayload = info.SendCmdPayload := by
  simp only [send]
  split <;> rfl

theorem send_status_eq (status : UInt8) : ∃ p,
    send_status s status info = send s (statusCmd status) { info with SendCmdPayload := p } := by
  let p := info.SendCmdPayload.set_status_value status
  have hval : p.status_value = status.toNat := by
    have h := Bytes.num_setNum info.SendCmdPayload.bytes 0 1 status.toNat
    rw [pow_one, Nat.mod_eq_of_lt status.toNat_lt] at h
    exact h
  have hread : p.bytes.read 0 1 = [status] := by
    have h := Bytes.read_setNum info.SendCmdPayload.bytes 0 1 status.toNat
    rw [Bytes.leBytes, Bytes.leBytes, UInt8.ofNat_toNat] at h
    exact h
  have hfill : LCSF_Bridge_zdcFillCmdAtt s .CMD_STATUS (some p) = some (some [⟨some 1, [status]⟩]) := by
    simp only [LCSF_Bridge_zdcFillCmdAtt_some, hval, hread, Bytes.minWidth_of_lt status.toNat_lt]
  refine ⟨p, ?_⟩
  simp only [send_status, zdcSendCommand, if_true, LCSF_Bridge_zdcEncode]
  rw [show info.SendCmdPayload.set_status_value status = p from rfl, hfill]
  rfl

theorem send_status_same (status : UInt8) : SameTable info (send_status s status info).2 := by
  obtain ⟨p, h⟩ := send_status_eq s info status
  rw [h]
  exact (SameTable.payload info p).trans (send_same s _ (statusCmd status))

end Sending

end ZdcPoc.B
