import Mathlib.Data.List.ReduceOption
import ZdcPoc.Exec
import ZdcPoc.Lib.Run

/-!
# Commands

`execute` is `zdc_MainExecute` on the values of a command. What it does to the node is one case
analysis per command, and what it does to a cell is `Command.act`.
-/

namespace ZdcPoc.B

open zdc_info_t

inductive Command where
  | list_entities_req
  | set_entity_state (entity_id : UInt16) (state : UInt8)
  | set_entity_keyexpr (entity_id : UInt16) (keyexpr : CString)
  | set_entity_config (entity_id : UInt16) (entitiy_config : List UInt8)
deriving DecidableEq, Repr

namespace Command

def name : Command → zdc_cmd_names
  | list_entities_req => .LIST_ENTITIES_REQ
  | set_entity_state .. => .SET_ENTITY_STATE
  | set_entity_keyexpr .. => .SET_ENTITY_KEYEXPR
  | set_entity_config .. => .SET_ENTITY_CONFIG

def payload : Command → zdc_cmd_payload_t
  | list_entities_req => .zero
  | set_entity_state id state => (zdc_cmd_payload_t.zero.set_entity_id id).set_state state
  | set_entity_keyexpr id ke => (zdc_cmd_payload_t.zero.set_entity_id id).set_ptr ke.bytes
  | set_entity_config id config => (zdc_cmd_payload_t.zero.set_entity_id id).set_ptr config

/-- The entity that a `set_*` command names. -/
def entity_id : Command → Option UInt16
  | list_entities_req => none
  | set_entity_state id _ => some id
  | set_entity_keyexpr id _ => some id
  | set_entity_config id _ => some id

/-- The status that a `set_*` command for an entity of the table is answered with. -/
def status : Command → UInt8
  | set_entity_state id _ => if id.toNat = 0 then ZDC_STATUS_ERR else ZDC_STATUS_OK
  | _ => ZDC_STATUS_OK

/-- The values that `zdc_MainExecute` reads of a payload, whatever else it holds. -/
def CarriedBy (p : zdc_cmd_payload_t) : Command → Prop
  | list_entities_req => True
  | set_entity_state id state => p.entity_id = id.toNat ∧ p.state = state.toNat
  | set_entity_keyexpr id ke => p.entity_id = id.toNat ∧ p_keyexpr p = .ok ke
  | set_entity_config id _ => p.entity_id = id.toNat

end Command

def execute (z : Zenoh) (s : LcsfStack) (cmd : Command) (info : zdc_info_t) :
    Result (Bool × zdc_info_t) :=
  zdc_MainExecute z s cmd.name (some cmd.payload) info

variable {z : Zenoh} {s : LcsfStack} {info info' : zdc_info_t} {r : Bool}

/-! ## The values of a payload -/

theorem set_entity_id_entity_id (p : zdc_cmd_payload_t) (v : UInt16) :
    (p.set_entity_id v).entity_id = v.toNat := by
  have h := Bytes.num_setNum p.bytes 0 2 v.toNat
  rw [Nat.mod_eq_of_lt (by simpa using v.toNat_lt)] at h
  exact h

theorem set_state_state (p : zdc_cmd_payload_t) (v : UInt8) : (p.set_state v).state = v.toNat := by
  have h := Bytes.num_setNum p.bytes 2 1 v.toNat
  rw [Nat.mod_eq_of_lt (by simpa using v.toNat_lt)] at h
  exact h

theorem set_state_entity_id (p : zdc_cmd_payload_t) (v : UInt8) :
    (p.set_state v).entity_id = p.entity_id :=
  Bytes.num_setNum_disjoint p.bytes 2 1 v.toNat 0 2 (Or.inl (le_refl _))

theorem p_keyexpr_set_ptr (p : zdc_cmd_payload_t) (ke : CString) (bs : List UInt8) :
    p_keyexpr (p.set_ptr (ke.bytes ++ bs)) = .ok ke := by
  simp only [p_keyexpr, zdc_cmd_payload_t.set_ptr, orFault_some, ok_bind, Block.ofBytes_append,
    Block.str_bytes]

theorem Command.payload_carries (cmd : Command) : cmd.CarriedBy cmd.payload := by
  cases cmd with
  | list_entities_req => trivial
  | set_entity_state id st =>
    exact ⟨(set_state_entity_id _ _).trans (set_entity_id_entity_id _ _), set_state_state _ _⟩
  | set_entity_keyexpr id ke =>
    have h := p_keyexpr_set_ptr (zdc_cmd_payload_t.zero.set_entity_id id) ke []
    rw [List.append_nil] at h
    exact ⟨set_entity_id_entity_id _ _, h⟩
  | set_entity_config id config => exact set_entity_id_entity_id _ _

theorem MainExecute_congr {cmd : Command} {p q : zdc_cmd_payload_t} (hp : cmd.CarriedBy p)
    (hq : cmd.CarriedBy q) :
    zdc_MainExecute z s cmd.name (some p) info = zdc_MainExecute z s cmd.name (some q) info := by
  cases cmd with
  | list_entities_req => rfl
  | set_entity_state id st =>
    simp only [Command.CarriedBy] at hp hq
    simp only [zdc_MainExecute, Command.name, zdcExecuteset_entity_state, hp, hq]
  | set_entity_keyexpr id ke =>
    simp only [Command.CarriedBy] at hp hq
    simp only [zdc_MainExecute, Command.name, zdcExecuteset_entity_keyexpr, hp, hq]
  | set_entity_config id config =>
    simp only [Command.CarriedBy] at hp hq
    simp only [zdc_MainExecute, Command.name, zdcExecuteset_entity_config, hp, hq]

theorem execute_of_carried {cmd : Command} {p : zdc_cmd_payload_t} (h : cmd.CarriedBy p) :
    zdc_MainExecute z s cmd.name (some p) info = execute z s cmd info :=
  MainExecute_congr h cmd.payload_carries

/-! ## The three `set_*` commands -/

variable {id : UInt16} {b : UInt8} {ke : CString} {config : List UInt8} {c : Cell}

theorem execute_state_eq : execute z s (.set_entity_state id b) info =
    if id.toNat ≥ info.el_size.toNat then .ok (false, info)
    else if id.toNat = 0 then .ok (send_status s ZDC_STATUS_ERR info)
    else do
      let (status, info) ← zdc_update_entity_state z id.toNat b info
      return send_status s (if status then ZDC_STATUS_OK else ZDC_STATUS_ERR) info := by
  obtain ⟨hid, hst⟩ := Command.payload_carries (.set_entity_state id b)
  simp only [execute, zdc_MainExecute, Command.name, zdcExecuteset_entity_state, hid, hst,
    UInt8.ofNat_toNat]
  rfl

theorem execute_config_eq : execute z s (.set_entity_config id config) info =
    if id.toNat ≥ info.el_size.toNat then .ok (false, info)
    else .ok (send_status s ZDC_STATUS_OK info) := by
  have hid := Command.payload_carries (.set_entity_config id config)
  simp only [Command.CarriedBy] at hid
  simp only [execute, zdc_MainExecute, Command.name, zdcExecuteset_entity_config, hid]
  rfl

theorem execute_state_forbidden (h : 0 < info.el_size.toNat) (hid : id.toNat = 0) :
    execute z s (.set_entity_state id b) info = .ok (send_status s ZDC_STATUS_ERR info) := by
  rw [execute_state_eq, if_neg (by omega), if_pos hid]

theorem execute_state_spec (h : id.toNat < info.el_size.toNat) (hid : id.toNat ≠ 0)
    (hc : info.cell id.toNat = some c) (hs : c.Sound id.toNat) :
    execute z s (.set_entity_state id b) info =
      if c.BadHandle b then .error .badHandle
      else .ok (send_status s ZDC_STATUS_OK (info.putCell id.toNat (c.turn z id.toNat b))) := by
  rw [execute_state_eq, if_neg (by omega), if_neg hid, zdc_update_entity_state_spec hc hs]
  split <;> rfl

theorem execute_keyexpr_spec (h : id.toNat < info.el_size.toNat)
    (hc : info.cell id.toNat = some c) (hs : c.Sound id.toNat) :
    execute z s (.set_entity_keyexpr id ke) info =
      .ok (send_status s ZDC_STATUS_OK (info.putCell id.toNat (c.rename z id.toNat ke))) := by
  obtain ⟨hid, hke⟩ := Command.payload_carries (.set_entity_keyexpr id ke)
  have hlt := lt_of_cell hc
  simp only [execute, zdc_MainExecute, Command.name, zdcExecuteset_entity_keyexpr, hid, hke,
    ok_bind, entity_of_cell hc, decide_eq_true_eq]
  rw [if_neg (by omega)]
  by_cases hon : c.entity.isOn
  · -- Off, the new string, on again: three writes of one cell.
    have h1 : (c.turn z id.toNat 0).Sound id.toNat := hs.turn
    have h2 : ((c.turn z id.toNat 0).rewrite ke).Sound id.toNat := h1.rewrite
    have hc1 := cell_putCell hlt h1.own
    have hc2 := cell_putCell hlt h2.own
    simp only [if_pos (show c.entity.state.toInt = ZDC_STATE_ON from hon),
      zdc_update_entity_state_ok hc hs (hs.not_badHandle hon), ok_bind, replace_keyexpr_spec hc1 h1,
      putCell_putCell _ h1.own, zdc_update_entity_state_ok hc2 h2 Cell.not_badHandle_on,
      putCell_putCell _ h2.own, Cell.rename_of_on z id.toNat ke c hon]
    rfl
  · simp only [if_neg (show ¬ c.entity.state.toInt = ZDC_STATE_ON from hon), pure_bind,
      replace_keyexpr_spec hc hs, ok_bind, Cell.rename_of_not_on z id.toNat ke c hon]
    rfl

theorem entity_of_no_cell {i : Nat} (h : info.cell i = none) (hi : i < info.entity_list.length) :
    info.entity i = .error (.uninitialised i) := by
  have hget := List.getElem?_eq_getElem hi
  rw [zdc_info_t.cell, hget] at h
  rw [zdc_info_t.entity, hget]
  cases he : info.entity_list[i] with
  | none => rfl
  | some e => rw [he] at h; cases h

theorem execute_state_unregistered (h : id.toNat < info.el_size.toNat) (hid : id.toNat ≠ 0)
    (hc : info.cell id.toNat = none) (hi : id.toNat < info.entity_list.length) :
    execute z s (.set_entity_state id b) info = .error (.uninitialised id.toNat) := by
  rw [execute_state_eq, if_neg (by omega), if_neg hid, zdc_update_entity_state,
    entity_of_no_cell hc hi]
  rfl

theorem execute_keyexpr_unregistered (h : id.toNat < info.el_size.toNat)
    (hc : info.cell id.toNat = none) (hi : id.toNat < info.entity_list.length) :
    execute z s (.set_entity_keyexpr id ke) info = .error (.uninitialised id.toNat) := by
  obtain ⟨hid, hke⟩ := Command.payload_carries (.set_entity_keyexpr id ke)
  simp only [execute, zdc_MainExecute, Command.name, zdcExecuteset_entity_keyexpr, hid, hke,
    ok_bind, entity_of_no_cell hc hi]
  rw [if_neg (by omega)]
  rfl

theorem execute_keyexpr_refused (h : info.el_size.toNat ≤ id.toNat) :
    execute z s (.set_entity_keyexpr id ke) info = .ok (false, info) := by
  obtain ⟨hid, -⟩ := Command.payload_carries (.set_entity_keyexpr id ke)
  simp only [execute, zdc_MainExecute, Command.name, zdcExecuteset_entity_keyexpr, hid]
  rw [if_pos h]
  rfl

theorem execute_state_refused (h : info.el_size.toNat ≤ id.toNat) :
    execute z s (.set_entity_state id b) info = .ok (false, info) := by
  rw [execute_state_eq, if_pos h]

/-! ## Well-formed nodes -/

/-- The allocation has `el_size` slots, every registered one is sound, and every declaration is for
a registered slot. -/
structure zdc_info_t.WF (info : zdc_info_t) : Prop where
  length : info.entity_list.length = info.el_size.toNat
  sound : ∀ i c, info.cell i = some c → c.Sound i
  stray : ∀ d ∈ info.session, ∃ c, info.cell d.entity = some c

structure zdc_info_t.Full (info : zdc_info_t) : Prop extends info.WF where
  registered : ∀ i, i < info.el_size.toNat → ∃ c, info.cell i = some c

theorem SameTable.wf {a b : zdc_info_t} (h : SameTable a b) (hw : a.WF) : b.WF :=
  ⟨by rw [h.entity_list, h.el_size]; exact hw.length,
    fun i c hc => hw.sound i c (by rw [← h.cell]; exact hc),
    fun d hd => by rw [h.cell]; exact hw.stray d (h.session ▸ hd)⟩

theorem zdc_info_t.WF.putCell {i : Nat} (hw : info.WF) (hs : c.Sound i)
    (hi : i < info.entity_list.length) : (info.putCell i c).WF := by
  refine ⟨by rw [putCell_length]; exact hw.length, fun j c' hc' => ?_, fun d hd => ?_⟩
  · by_cases hj : j = i
    · subst hj
      rw [cell_putCell hi hs.own] at hc'
      exact Option.some.inj hc' ▸ hs
    · rw [cell_putCell_ne hs.own hj] at hc'
      exact hw.sound j c' hc'
  · by_cases hj : d.entity = i
    · exact ⟨c, by rw [hj, cell_putCell hi hs.own]⟩
    · rw [cell_putCell_ne hs.own hj]
      rcases Multiset.mem_add.mp hd with hd | hd
      · exact hw.stray d (Multiset.mem_filter.mp hd).1
      · exact absurd (hs.own d hd) hj

theorem zdc_info_t.WF.lt_of_cell {i : Nat} (hw : info.WF) (h : info.cell i = some c) :
    i < info.el_size.toNat := hw.length ▸ zdc_info_t.lt_of_cell h

theorem zdc_info_t.WF.part_of_no_cell {i : Nat} (hw : info.WF) (h : info.cell i = none) :
    part Decl.entity i info.session = 0 := by
  apply Multiset.filter_eq_nil.mpr
  intro d hd hdi
  obtain ⟨c, hc⟩ := hw.stray d hd
  rw [hdi, h] at hc
  cases hc

/-! ## What an executed command did -/

/-- The node after a command that replaced cell `i` by `c` and sent a status. -/
def Replaced (s : LcsfStack) (i : Nat) (c : Cell) (status : UInt8) (info : zdc_info_t) :
    Bool × zdc_info_t :=
  send_status s status (info.putCell i c)

theorem execute_state_cases (hw : info.WF)
    (h : execute z s (.set_entity_state id b) info = .ok (r, info')) :
    (info.el_size.toNat ≤ id.toNat ∧ r = false ∧ info' = info) ∨
    (id.toNat < info.el_size.toNat ∧ id.toNat = 0 ∧
      (r, info') = send_status s ZDC_STATUS_ERR info) ∨
    (id.toNat < info.el_size.toNat ∧ id.toNat ≠ 0 ∧ ∃ c, info.cell id.toNat = some c ∧
      (r, info') = Replaced s id.toNat (c.turn z id.toNat b) ZDC_STATUS_OK info) := by
  by_cases hlt : id.toNat < info.el_size.toNat
  · by_cases hid : id.toNat = 0
    · rw [execute_state_forbidden (by omega) hid] at h
      exact Or.inr (Or.inl ⟨hlt, hid, (Except.ok.inj h).symm⟩)
    · cases hc : info.cell id.toNat with
      | none => rw [execute_state_unregistered hlt hid hc (hw.length ▸ hlt)] at h; cases h
      | some c =>
        rw [execute_state_spec hlt hid hc (hw.sound _ _ hc)] at h
        split at h
        · cases h
        · exact Or.inr (Or.inr ⟨hlt, hid, c, rfl, (Except.ok.inj h).symm⟩)
  · rw [execute_state_refused (by omega)] at h
    cases h
    exact Or.inl ⟨by omega, rfl, rfl⟩

theorem execute_keyexpr_cases (hw : info.WF)
    (h : execute z s (.set_entity_keyexpr id ke) info = .ok (r, info')) :
    (info.el_size.toNat ≤ id.toNat ∧ r = false ∧ info' = info) ∨
    (id.toNat < info.el_size.toNat ∧ ∃ c, info.cell id.toNat = some c ∧
      (r, info') = Replaced s id.toNat (c.rename z id.toNat ke) ZDC_STATUS_OK info) := by
  by_cases hlt : id.toNat < info.el_size.toNat
  · cases hc : info.cell id.toNat with
    | none => rw [execute_keyexpr_unregistered hlt hc (hw.length ▸ hlt)] at h; cases h
    | some c =>
      rw [execute_keyexpr_spec hlt hc (hw.sound _ _ hc)] at h
      exact Or.inr ⟨hlt, c, rfl, (Except.ok.inj h).symm⟩
  · rw [execute_keyexpr_refused (by omega)] at h
    cases h
    exact Or.inl ⟨by omega, rfl, rfl⟩

theorem execute_config_cases (h : execute z s (.set_entity_config id config) info = .ok (r, info')) :
    (info.el_size.toNat ≤ id.toNat ∧ r = false ∧ info' = info) ∨
    (id.toNat < info.el_size.toNat ∧ (r, info') = send_status s ZDC_STATUS_OK info) := by
  rw [execute_config_eq] at h
  split at h
  · cases h
    exact Or.inl ⟨by omega, rfl, rfl⟩
  · exact Or.inr ⟨by omega, (Except.ok.inj h).symm⟩

/-- The command undeclares a handle that was never written. -/
def Command.BadHandle (info : zdc_info_t) : Command → Prop
  | set_entity_state id b => id.toNat ≠ 0 ∧ ∃ c, info.cell id.toNat = some c ∧ c.BadHandle b
  | _ => False

theorem execute_badHandle (hw : info.WF) {cmd : Command} (h : cmd.BadHandle info) :
    execute z s cmd info = .error .badHandle := by
  cases cmd with
  | set_entity_state id b =>
    obtain ⟨hid, c, hc, hbad⟩ := h
    have hlt : id.toNat < info.el_size.toNat := hw.length ▸ lt_of_cell hc
    rw [execute_state_spec hlt hid hc (hw.sound _ c hc), if_pos hbad]
  | _ => exact h.elim

/-- A `set_*` command is refused, or answered from a node with the same send buffer. Only an OK may
come from another node. -/
theorem execute_set (hf : info.Full) {cmd : Command} (hid : cmd.entity_id = some id)
    (hgood : ¬ cmd.BadHandle info) :
    (info.el_size.toNat ≤ id.toNat ∧ execute z s cmd info = .ok (false, info)) ∨
    (id.toNat < info.el_size.toNat ∧ ∃ mid, execute z s cmd info = .ok (send_status s cmd.status mid) ∧
      mid.buff_size = info.buff_size ∧ mid.curr_msg_size = info.curr_msg_size ∧
      (cmd.status ≠ ZDC_STATUS_OK → mid = info)) := by
  rcases Nat.lt_or_ge id.toNat info.el_size.toNat with hlt | hge
  · refine Or.inr ⟨hlt, ?_⟩
    obtain ⟨c, hc⟩ := hf.registered _ hlt
    cases cmd with
    | list_entities_req => cases hid
    | set_entity_state id b =>
      cases hid
      by_cases h0 : id.toNat = 0
      · refine ⟨info, ?_, rfl, rfl, fun _ => rfl⟩
        rw [Command.status, if_pos h0]
        exact execute_state_forbidden (by omega) h0
      · refine ⟨info.putCell id.toNat (c.turn z id.toNat b), ?_, rfl, rfl, ?_⟩ <;>
          rw [Command.status, if_neg h0]
        · rw [execute_state_spec hlt h0 hc (hf.sound _ c hc), if_neg fun hbad => hgood ⟨h0, c, hc, hbad⟩]
        · exact fun hne => absurd rfl hne
    | set_entity_keyexpr id ke =>
      cases hid
      exact ⟨info.putCell id.toNat (c.rename z id.toNat ke), execute_keyexpr_spec hlt hc (hf.sound _ c hc),
        rfl, rfl, fun hne => absurd rfl hne⟩
    | set_entity_config id config =>
      cases hid
      refine ⟨info, ?_, rfl, rfl, fun _ => rfl⟩
      rw [execute_config_eq, if_neg (by omega)]
      rfl
  · refine Or.inl ⟨hge, ?_⟩
    cases cmd with
    | list_entities_req => cases hid
    | set_entity_state id b => cases hid; exact execute_state_refused hge
    | set_entity_keyexpr id ke => cases hid; exact execute_keyexpr_refused hge
    | set_entity_config id config => cases hid; rw [execute_config_eq, if_pos hge]

/-! ## Lists -/

def zdc_entity_t.bytes (e : zdc_entity_t) : List UInt8 := e.ke_suffix.reduceOption

def zdc_entity_t.record (e : zdc_entity_t) : List UInt8 :=
  [e.type.toUInt8, e.state.toUInt8, UInt8.ofNat e.ke_size] ++ e.bytes

def zdc_info_t.entities (info : zdc_info_t) : List zdc_entity_t := info.entity_list.reduceOption

/-- The whole table, as a list response holds it. -/
def zdc_info_t.records (info : zdc_info_t) : List UInt8 :=
  info.entities.flatMap zdc_entity_t.record

theorem reduceOption_ofBytes (bs : List UInt8) : (Block.ofBytes bs).reduceOption = bs := by
  induction bs with
  | nil => rfl
  | cons b bs ih =>
    rw [Block.ofBytes, List.map_cons, List.reduceOption_cons_of_some, ← Block.ofBytes, ih]

theorem zdc_entity_t.Sound.ofBytes {i : Nat} {e : zdc_entity_t} (h : e.Sound i) :
    e.ke_suffix = Block.ofBytes e.bytes := by
  obtain ⟨bs, hbs⟩ := h.written
  rw [zdc_entity_t.bytes, hbs, reduceOption_ofBytes]

theorem zdc_entity_t.Sound.bytes_length {i : Nat} {e : zdc_entity_t} (h : e.Sound i) :
    e.bytes.length = e.ke_size := by
  rw [h.size, h.ofBytes, Block.ofBytes_length]

theorem put_bind (size : Nat) (tmp bs cs : List UInt8) :
    (do let tmp ← put size tmp bs; put size tmp cs) = put size tmp (bs ++ cs) := by
  unfold put
  by_cases h1 : tmp.length + bs.length ≤ size
  · rw [if_pos h1, ok_bind, List.length_append, List.length_append, List.append_assoc, Nat.add_assoc]
  · rw [if_neg h1, if_neg (by rw [List.length_append]; omega), error_bind]

theorem zdc_entity_t.Sound.read {i : Nat} {e : zdc_entity_t} (h : e.Sound i) :
    e.ke_suffix.read e.ke_size = some e.bytes := by
  have := Block.read_all e.bytes
  rwa [← h.ofBytes, h.bytes_length] at this

theorem serialise_spec {i : Nat} {e : zdc_entity_t} (h : e.Sound i) (size : Nat)
    (tmp : List UInt8) : serialise size e tmp = put size tmp e.record := by
  unfold serialise
  simp only [h.read, orFault_some, ok_bind]
  have hrecord : e.record =
      (([e.type.toUInt8] ++ [e.state.toUInt8]) ++ [UInt8.ofNat e.ke_size]) ++ e.bytes := rfl
  rw [hrecord, ← put_bind, ← put_bind, ← put_bind]
  simp only [bind_assoc]

theorem serialise_loop_spec (f : Nat → zdc_entity_t) (is : List Nat) (tmp : List UInt8)
    (hf : ∀ i ∈ is, info.entity i = .ok (f i) ∧ (f i).Sound i)
    (ht : tmp.length ≤ 64 * info.el_size.toNat) :
    serialise_loop info is tmp =
      put (64 * info.el_size.toNat) tmp (is.flatMap fun i => (f i).record) := by
  induction is generalizing tmp with
  | nil => rw [serialise_loop, List.flatMap_nil, put, if_pos (by simpa using ht), List.append_nil]; rfl
  | cons i is ih =>
    obtain ⟨he, hs⟩ := hf i List.mem_cons_self
    rw [serialise_loop, he, ok_bind, serialise_spec hs, List.flatMap_cons, ← put_bind]
    by_cases hroom : tmp.length + (f i).record.length ≤ 64 * info.el_size.toNat
    · rw [put, if_pos hroom, ok_bind, ok_bind]
      exact ih _ (fun j hj => hf j (List.mem_cons_of_mem _ hj)) (by simpa using hroom)
    · rw [put, if_neg hroom, error_bind, error_bind]

theorem zdc_info_t.Full.entity_list_eq (hf : info.Full) :
    info.entity_list = info.entities.map some := by
  have hall : ∀ o ∈ info.entity_list, ∃ e, o = some e := by
    intro o ho
    obtain ⟨i, hi, rfl⟩ := List.mem_iff_getElem.mp ho
    obtain ⟨c, hc⟩ := hf.registered i (hf.length ▸ hi)
    have hget := (cell_eq_some.mp hc).1
    rw [List.getElem?_eq_getElem hi] at hget
    exact ⟨_, Option.some.inj hget⟩
  unfold zdc_info_t.entities
  generalize info.entity_list = l at hall
  induction l with
  | nil => rfl
  | cons o l ih =>
    obtain ⟨e, rfl⟩ := hall o List.mem_cons_self
    rw [List.reduceOption_cons_of_some, List.map_cons, ← ih fun x hx => hall x (List.mem_cons_of_mem _ hx)]

theorem zdc_info_t.Full.entities_length (hf : info.Full) :
    info.entities.length = info.el_size.toNat := by
  have h := congrArg List.length hf.entity_list_eq
  rw [List.length_map, hf.length] at h
  exact h.symm

theorem zdc_info_t.Full.cell_of_lt (hf : info.Full) {i : Nat} (hi : i < info.entities.length) :
    ∃ c, info.cell i = some c ∧ c.entity = info.entities[i] := by
  obtain ⟨c, hc⟩ := hf.registered i (hf.entities_length ▸ hi)
  refine ⟨c, hc, ?_⟩
  have hget := (cell_eq_some.mp hc).1
  rw [hf.entity_list_eq, List.getElem?_map, List.getElem?_eq_getElem hi] at hget
  exact (Option.some.inj (Option.some.inj hget)).symm

theorem flatMap_range_getD {α β : Type*} (l : List α) (d : α) (f : α → List β) :
    ((List.range l.length).flatMap fun i => f (l.getD i d)) = l.flatMap f := by
  have hl : (List.range l.length).map (fun i => l.getD i d) = l := by
    apply List.ext_getElem
    · simp
    · intro i h1 h2
      simp [List.getD_eq_getElem?_getD, List.getElem?_eq_getElem h2]
  conv_rhs => rw [← hl]
  rw [List.flatMap_map]

theorem serialise_table (hf : info.Full) :
    serialise_loop info (List.range info.el_size.toNat) [] =
      put (64 * info.el_size.toNat) [] info.records := by
  rw [serialise_loop_spec (fun i => info.entities.getD i fresh_slot) _ [] _ (by simp)]
  · rw [← hf.entities_length, flatMap_range_getD, hf.entities_length]; rfl
  · intro i hi
    rw [List.mem_range, ← hf.entities_length] at hi
    obtain ⟨c, hc, he⟩ := hf.cell_of_lt hi
    rw [List.getD_eq_getElem?_getD, List.getElem?_eq_getElem hi, Option.getD_some, ← he]
    exact ⟨entity_of_cell hc, (hf.sound i c hc).entity⟩

theorem execute_list_spec (hf : info.Full) (hfit : info.records.length ≤ 64 * info.el_size.toNat) :
    ∃ p : zdc_cmd_payload_t, p.ptr = some info.records ∧
      p.entity_listSize = info.records.length ∧ p.entity_nb = info.el_size.toNat ∧
      execute z s .list_entities_req info =
        .ok (send s (listCmd info.records info.el_size.toNat) { info with SendCmdPayload := p }) := by
  let p := ((info.SendCmdPayload.set_ptr info.records).set_entity_listSize
    (UInt32.ofNat info.records.length)).set_entity_nb info.el_size
  have hel := info.el_size.toNat_lt
  have hnb : p.entity_nb = info.el_size.toNat := by
    have h := Bytes.num_setNum ((info.SendCmdPayload.set_ptr info.records).set_entity_listSize
      (UInt32.ofNat info.records.length)).bytes 16 2 info.el_size.toNat
    rw [Nat.mod_eq_of_lt (by simpa using hel)] at h
    exact h
  have hsize : p.entity_listSize = info.records.length := by
    have h := Bytes.num_setNum_disjoint ((info.SendCmdPayload.set_ptr info.records).set_entity_listSize
      (UInt32.ofNat info.records.length)).bytes 16 2 info.el_size.toNat 0 4 (Or.inl (by omega))
    have h2 := Bytes.num_setNum info.SendCmdPayload.bytes 0 4 (UInt32.ofNat info.records.length).toNat
    have hn : (UInt32.ofNat info.records.length).toNat % 256 ^ 4 = info.records.length := by
      rw [UInt32.toNat_ofNat', Nat.mod_eq_of_lt (by omega), Nat.mod_eq_of_lt (by omega)]
    exact h.trans (h2.trans hn)
  have hread : p.bytes.read 16 2 = Bytes.leBytes 2 info.el_size.toNat := Bytes.read_setNum _ _ _ _
  refine ⟨p, rfl, hsize, hnb, ?_⟩
  have hfill : LCSF_Bridge_zdcFillCmdAtt s .LIST_ENTITIES_RESP (some p) =
      some (some [⟨some (info.records.length % 2 ^ 32), info.records⟩,
        ⟨some (Bytes.minWidth info.el_size.toNat), Bytes.leBytes 2 info.el_size.toNat⟩]) := by
    simp only [LCSF_Bridge_zdcFillCmdAtt_some, hsize, hnb, hread]
    rw [Nat.mod_eq_of_lt (by omega)]
    rfl
  have htable : serialise_loop info (List.range info.el_size.toNat) [] = .ok info.records := by
    rw [serialise_table hf, put, if_pos (by simpa using hfit), List.nil_append]
  simp only [execute, zdc_MainExecute, Command.name, zdcExecutelist_entities_req, htable, ok_bind,
    zdcSendCommand, if_true, LCSF_Bridge_zdcEncode]
  rw [show ((info.SendCmdPayload.set_ptr info.records).set_entity_listSize
    (UInt32.ofNat info.records.length)).set_entity_nb info.el_size = p from rfl, hfill]
  rfl

theorem execute_list_overflow (hf : info.Full) (h : 64 * info.el_size.toNat < info.records.length) :
    execute z s .list_entities_req info = .error .overflow := by
  have htable : serialise_loop info (List.range info.el_size.toNat) [] = .error .overflow := by
    rw [serialise_table hf, put, if_neg (by simpa using h)]
  simp only [execute, zdc_MainExecute, Command.name, zdcExecutelist_entities_req, htable, error_bind]

theorem serialise_loop_reads {is : List Nat} {tmp out : List UInt8}
    (h : serialise_loop info is tmp = .ok out) : ∀ i ∈ is, ∃ e, info.entity i = .ok e := by
  induction is generalizing tmp with
  | nil => simp
  | cons i is ih =>
    obtain ⟨e, he, h⟩ := Result.bind_ok h
    obtain ⟨tmp', -, h⟩ := Result.bind_ok h
    intro j hj
    rcases List.mem_cons.mp hj with rfl | hj
    · exact ⟨e, he⟩
    · exact ih h j hj

/-- A list that completes has read every slot, so all of them are registered. -/
theorem execute_list_full (hw : info.WF) (h : execute z s .list_entities_req info = .ok (r, info')) :
    info.Full ∧ info.records.length ≤ 64 * info.el_size.toNat := by
  have hfull : info.Full := by
    refine ⟨hw, fun i hi => ?_⟩
    obtain ⟨out, hl, -⟩ := Result.bind_ok h
    obtain ⟨e, he⟩ := serialise_loop_reads hl i (List.mem_range.mpr hi)
    cases hc : info.cell i with
    | some c => exact ⟨c, rfl⟩
    | none =>
      rw [entity_of_no_cell hc (hw.length ▸ hi)] at he
      cases he
  refine ⟨hfull, ?_⟩
  by_contra hlt
  rw [execute_list_overflow hfull (by omega)] at h
  cases h

/-! ## What a command does to each cell -/

/-- `set_entity_state` does not reach entity 0. -/
def Command.act (z : Zenoh) (cmd : Command) (i : Nat) (c : Cell) : Cell :=
  match cmd with
  | .set_entity_state id b => if id.toNat = i ∧ i ≠ 0 then c.turn z i b else c
  | .set_entity_keyexpr id ke => if id.toNat = i then c.rename z i ke else c
  | _ => c

theorem Command.act_sound {cmd : Command} {i : Nat} (h : c.Sound i) : (cmd.act z i c).Sound i := by
  unfold Command.act
  split
  · split
    · exact h.turn
    · exact h
  · split
    · exact h.rename
    · exact h
  · exact h

/-- The node after a completed command: cell by cell, and the sizes as before. -/
structure Stepped (z : Zenoh) (cmd : Command) (info info' : zdc_info_t) : Prop where
  cell : ∀ i, info'.cell i = (info.cell i).map (cmd.act z i)
  wf : info'.WF
  el_size : info'.el_size = info.el_size
  buff_size : info'.buff_size = info.buff_size
  el_idx : info'.el_idx = info.el_idx

theorem Stepped.of_same {cmd : Command} (hw : info.WF) (h : SameTable info info')
    (hact : ∀ i c, info.cell i = some c → cmd.act z i c = c) : Stepped z cmd info info' := by
  refine ⟨fun i => ?_, h.wf hw, h.el_size, h.buff_size, h.el_idx⟩
  rw [h.cell]
  cases hc : info.cell i with
  | none => rfl
  | some c => rw [Option.map_some, hact i c hc]

theorem Stepped.of_replaced {cmd : Command} {i : Nat} {st : UInt8} (hw : info.WF)
    (hc : info.cell i = some c) (h : (r, info') = Replaced s i (cmd.act z i c) st info)
    (hact : ∀ j, j ≠ i → ∀ c, cmd.act z j c = c) : Stepped z cmd info info' := by
  have hs : (cmd.act z i c).Sound i := Command.act_sound (hw.sound i c hc)
  have hi := zdc_info_t.lt_of_cell hc
  have hsame := send_status_same s (info.putCell i (cmd.act z i c)) st
  obtain rfl : info' = (Replaced s i (cmd.act z i c) st info).2 := congrArg Prod.snd h
  refine ⟨fun j => ?_, hsame.wf (hw.putCell hs hi), hsame.el_size, hsame.buff_size, hsame.el_idx⟩
  rw [Replaced, hsame.cell]
  by_cases hj : j = i
  · subst hj
    rw [cell_putCell hi hs.own, hc, Option.map_some]
  · rw [cell_putCell_ne hs.own hj]
    cases hcj : info.cell j with
    | none => rfl
    | some cj => rw [Option.map_some, hact j hj]

theorem execute_stepped {cmd : Command} (hw : info.WF) (h : execute z s cmd info = .ok (r, info')) :
    Stepped z cmd info info' := by
  cases cmd with
  | list_entities_req =>
    obtain ⟨hf, hfit⟩ := execute_list_full hw h
    obtain ⟨p, -, -, -, he⟩ := execute_list_spec (z := z) (s := s) hf hfit
    rw [he] at h
    obtain rfl := congrArg Prod.snd (Except.ok.inj h)
    exact .of_same hw ((SameTable.payload info p).trans (send_same ..)) fun _ _ _ => rfl
  | set_entity_state id b =>
    rcases execute_state_cases hw h with ⟨hid, -, rfl⟩ | ⟨-, hid, hs⟩ | ⟨-, hid, c, hc, hs⟩
    · apply Stepped.of_same hw (.refl _)
      intro i c hc
      apply if_neg
      rintro ⟨rfl, -⟩
      exact absurd (hw.lt_of_cell hc) (by omega)
    · obtain rfl := congrArg Prod.snd hs
      exact .of_same hw (send_status_same ..) fun i c hc => if_neg (by omega)
    · have hact : (Command.set_entity_state id b).act z id.toNat c = c.turn z id.toNat b :=
        if_pos ⟨rfl, hid⟩
      rw [← hact] at hs
      exact .of_replaced hw hc hs fun j hj c => if_neg (by omega)
  | set_entity_keyexpr id ke =>
    rcases execute_keyexpr_cases hw h with ⟨hid, -, rfl⟩ | ⟨-, c, hc, hs⟩
    · apply Stepped.of_same hw (.refl _)
      intro i c hc
      apply if_neg
      rintro rfl
      exact absurd (hw.lt_of_cell hc) (by omega)
    · have hact : (Command.set_entity_keyexpr id ke).act z id.toNat c = c.rename z id.toNat ke :=
        if_pos rfl
      rw [← hact] at hs
      exact .of_replaced hw hc hs fun j hj c => if_neg (by omega)
  | set_entity_config id config =>
    rcases execute_config_cases h with ⟨-, -, rfl⟩ | ⟨-, hs⟩
    · exact .of_same hw (.refl _) fun _ _ _ => rfl
    · obtain rfl := congrArg Prod.snd hs
      exact .of_same hw (send_status_same ..) fun _ _ _ => rfl

end ZdcPoc.B
