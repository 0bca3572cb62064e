import ZdcPoc.Invariant

/-!
# How a node starts

`zdc_MainInit`, then one registration per slot. A started node is full and tidy.
-/

namespace ZdcPoc.B

open zdc_info_t

inductive Registration where
  | pub (start_on : Bool) (ke_suffix : CString) (config : Option Nat)
  | sub (start_on : Bool) (ke_suffix : CString) (config : Option Nat) (cb_ptr : Callback)
deriving DecidableEq, Repr

namespace Registration

def add (z : Zenoh) : Registration → zdc_info_t → Result zdc_info_t
  | pub start_on ke_suffix config => zdc_add_pub_entity z start_on ke_suffix config
  | sub start_on ke_suffix config cb_ptr => zdc_add_sub_entity z start_on ke_suffix config cb_ptr

def add_all (z : Zenoh) : List Registration → zdc_info_t → Result zdc_info_t
  | [], zdcInfo => pure zdcInfo
  | r :: rs, zdcInfo => do
    let zdcInfo ← r.add z zdcInfo
    add_all z rs zdcInfo

def start_on : Registration → UInt8
  | pub on _ _ => if on then 1 else 0
  | sub on _ _ _ => if on then 1 else 0

def ke_suffix : Registration → CString
  | pub _ ke_suffix _ => ke_suffix
  | sub _ ke_suffix _ _ => ke_suffix

def type : Registration → zdc_type_e
  | pub _ _ _ => .ZDC_TYPE_PUB
  | sub _ _ _ _ => .ZDC_TYPE_SUB

end Registration

/-- The application's part of the set up, on a session without declarations of the node. -/
def setup (z : Zenoh) (entity_nb buff_size : Nat) (zdc_suffix : CString) (rs : List Registration) :
    Result zdc_info_t := do
  let zdcInfo ← zdc_MainInit z 0 entity_nb buff_size zdc_suffix
  Registration.add_all z rs zdcInfo

/-- A node that was set up, with one registration for every slot but the first. -/
structure Started (z : Zenoh) (info : zdc_info_t) : Prop where
  setup : ∃ entity_nb buff_size zdc_suffix rs,
    setup z entity_nb buff_size zdc_suffix rs = .ok info ∧ rs.length + 1 = info.el_size.toNat
  registered : ∀ i, i < info.el_size.toNat → ∃ c, info.cell i = some c

/-- What commands lead to, with or without the reply that the handler takes out. -/
inductive Reachable (z : Zenoh) (s : LcsfStack) : zdc_info_t → Prop
  | start {info} : Started z info → Reachable z s info
  | execute {cmd info r info'} : Reachable z s info →
      execute z s cmd info = .ok (r, info') → Reachable z s info'
  | replied {info} : Reachable z s info → Reachable z s { info with curr_msg_size := 0 }

variable {z : Zenoh} {s : LcsfStack} {info info' : zdc_info_t} {r : Bool} {i : Nat} {c : Cell}

/-! ## One slot -/

def zdc_entity_t.filled (old : zdc_entity_t) (type : zdc_type_e) (state : Int8) (ke : CString)
    (config : Option Nat) (cb_ptr : Option Callback) : zdc_entity_t :=
  { old with type, state, ke_size := ke.size, ke_suffix := Block.ofBytes ke.bytes, config
             cb_ptr := cb_ptr <|> old.cb_ptr }

theorem filled_sound {old : zdc_entity_t} {type : zdc_type_e} {state : Int8} {ke : CString}
    {config : Option Nat} {cb_ptr : Option Callback} (hown : ∀ d, old.data.decl = some d → d.entity = i)
    (hstate : state.toInt ≠ ZDC_STATE_ON) : (old.filled type state ke config cb_ptr).Sound i ∧
      (old.filled type state ke config cb_ptr).keyexpr = ke := by
  apply zdc_entity_t.Sound.of_block ke []
  · rw [zdc_entity_t.filled, List.append_nil]
  · rw [zdc_entity_t.filled, Block.ofBytes_length, CString.bytes_length]
  · exact hown
  · exact fun hon => absurd hon hstate

def zdc_info_t.slot (info : zdc_info_t) (i : Nat) : zdc_entity_t :=
  (info.entity_list.getD i none).getD fresh_slot

theorem slot_of_cell (h : info.cell i = some c) : info.slot i = c.entity := by
  rw [slot, List.getD_eq_getElem?_getD, (cell_eq_some.mp h).1]
  rfl

theorem slot_of_no_cell (h : info.cell i = none) : info.slot i = fresh_slot := by
  rw [slot, List.getD_eq_getElem?_getD]
  unfold cell at h
  cases hget : info.entity_list[i]? with
  | none => rfl
  | some o =>
    cases o with
    | none => rfl
    | some e => rw [hget] at h; cases h

theorem slot_own (hw : info.WF) (i : Nat) : ∀ d, (info.slot i).data.decl = some d → d.entity = i := by
  intro d hd
  cases hc : info.cell i with
  | none => rw [slot_of_no_cell hc] at hd; cases hd
  | some c => rw [slot_of_cell hc] at hd; exact (hw.sound i c hc).entity.own d hd

theorem fill_slot_spec (type : zdc_type_e) (state : Int8) (ke : CString) (config : Option Nat)
    (cb_ptr : Option Callback) (hi : info.el_idx.toNat < info.entity_list.length) :
    fill_slot type state ke config cb_ptr info =
      .ok (info.putCell info.el_idx.toNat
        ⟨(info.slot info.el_idx.toNat).filled type state ke config cb_ptr,
          part Decl.entity info.el_idx.toNat info.session⟩) := by
  have hcopy := Block.strcpy_exact (Block.malloc ke.size) ke (Block.malloc_length _)
  simp only [fill_slot, ge_iff_le, Nat.not_le.mpr hi, if_false, hcopy, orFault_some, ok_bind,
    putCell, store, setPart_part]
  rfl

theorem fill_slot_out (type : zdc_type_e) (state : Int8) (ke : CString) (config : Option Nat)
    (cb_ptr : Option Callback) (hi : info.entity_list.length ≤ info.el_idx.toNat) :
    fill_slot type state ke config cb_ptr info = .error (.outOfBounds info.el_idx.toNat) := by
  simp only [fill_slot, ge_iff_le, hi, if_true]
  rfl

/-! ## One call -/

def zdc_info_t.setIdx (info : zdc_info_t) (el_idx : UInt8) : zdc_info_t := { info with el_idx }

@[simp] theorem setIdx_cell (el_idx : UInt8) : (info.setIdx el_idx).cell i = info.cell i := rfl

theorem zdc_info_t.WF.setIdx (hw : info.WF) (el_idx : UInt8) : (info.setIdx el_idx).WF :=
  ⟨hw.length, hw.sound, hw.stray⟩

namespace Registration

def entity (old : zdc_entity_t) : Registration → zdc_entity_t
  | pub _ ke_suffix config => old.filled .ZDC_TYPE_PUB 2 ke_suffix config none
  | sub _ ke_suffix config cb_ptr => old.filled .ZDC_TYPE_SUB 2 ke_suffix config (some cb_ptr)

def cell (z : Zenoh) (info : zdc_info_t) (i : Nat) (rg : Registration) : Cell :=
  (⟨rg.entity (info.slot i), part Decl.entity i info.session⟩ : Cell).turn z i rg.start_on

variable {rg : Registration}

theorem start_on_or (rg : Registration) : rg.start_on = 0 ∨ rg.start_on = 1 := by
  rcases rg with ⟨on, _, _⟩ | ⟨on, _, _, _⟩ <;> cases on <;> simp [start_on]

theorem filled (hw : info.WF) (i : Nat) (rg : Registration) :
    (⟨rg.entity (info.slot i), part Decl.entity i info.session⟩ : Cell).Sound i := by
  refine ⟨?_, fun d hd => (mem_part.mp hd).2⟩
  cases rg <;> exact (filled_sound (slot_own hw i) (by decide)).1

/-- A fresh entity is INVALID. -/
theorem not_badHandle (info : zdc_info_t) (i : Nat) (rg : Registration) :
    ¬ (⟨rg.entity (info.slot i), part Decl.entity i info.session⟩ : Cell).BadHandle rg.start_on := by
  have hstate : (rg.entity (info.slot i)).state.toInt = ZDC_STATE_INVALID := by cases rg <;> rfl
  exact fun hbad => hbad.2.2.2.2 hstate

theorem cell_sound (hw : info.WF) (i : Nat) (rg : Registration) : (rg.cell z info i).Sound i :=
  (filled hw i rg).turn

theorem cell_type (info : zdc_info_t) (i : Nat) (rg : Registration) :
    (rg.cell z info i).entity.type = rg.type := by
  unfold cell
  rw [Cell.turn_type]
  cases rg <;> rfl

theorem cell_state (info : zdc_info_t) (i : Nat) (rg : Registration) :
    (rg.cell z info i).entity.state = rg.start_on.toInt8 := Cell.turn_state z i rg.start_on _

theorem cell_ke_suffix (info : zdc_info_t) (i : Nat) (rg : Registration) :
    (rg.cell z info i).entity.ke_suffix = Block.ofBytes rg.ke_suffix.bytes := by
  unfold cell
  rw [Cell.turn_ke_suffix]
  cases rg <;> rfl

theorem cell_ke_size (info : zdc_info_t) (i : Nat) (rg : Registration) :
    (rg.cell z info i).entity.ke_size = rg.ke_suffix.size := by
  unfold cell
  rw [Cell.turn_ke_size]
  cases rg <;> rfl

theorem add_spec (rg : Registration) (hw : info.WF) (hi : info.el_idx.toNat < info.entity_list.length) :
    rg.add z info = .ok ((info.putCell info.el_idx.toNat
      (rg.cell z info info.el_idx.toNat)).setIdx (info.el_idx + 1)) := by
  have hs := filled hw info.el_idx.toNat rg
  have hc := cell_putCell hi hs.own
  have hturn := zdc_update_entity_state_ok (z := z) hc hs (not_badHandle info _ rg)
  rw [putCell_putCell _ hs.own] at hturn
  cases rg with
  | pub on ke config =>
    simp only [add, zdc_add_pub_entity, fill_slot_spec _ _ _ _ _ hi, ok_bind]
    simp only [start_on, entity] at hturn
    rw [show (info.putCell info.el_idx.toNat _).el_idx = info.el_idx from rfl, hturn]
    rfl
  | sub on ke config cb =>
    simp only [add, zdc_add_sub_entity, fill_slot_spec _ _ _ _ _ hi, ok_bind]
    simp only [start_on, entity] at hturn
    rw [show (info.putCell info.el_idx.toNat _).el_idx = info.el_idx from rfl, hturn]
    rfl

theorem add_out (hi : info.entity_list.length ≤ info.el_idx.toNat) :
    rg.add z info = .error (.outOfBounds info.el_idx.toNat) := by
  cases rg with
  | pub on ke config => simp only [add, zdc_add_pub_entity, fill_slot_out _ _ _ _ _ hi, error_bind]
  | sub on ke config cb =>
    simp only [add, zdc_add_sub_entity, fill_slot_out _ _ _ _ _ hi, error_bind]

/-- A registration fills one slot, also when `el_idx` has wrapped. -/
theorem add_cases (hw : info.WF) (h : rg.add z info = .ok info') :
    info.el_idx.toNat < info.entity_list.length ∧
      info' = (info.putCell info.el_idx.toNat
        (rg.cell z info info.el_idx.toNat)).setIdx (info.el_idx + 1) := by
  by_cases hi : info.el_idx.toNat < info.entity_list.length
  · rw [add_spec rg hw hi] at h
    exact ⟨hi, (Except.ok.inj h).symm⟩
  · rw [add_out (by omega)] at h
    cases h

theorem add_cell (hw : info.WF) (h : rg.add z info = .ok info') (j : Nat) :
    info'.cell j =
      if j = info.el_idx.toNat then some (rg.cell z info info.el_idx.toNat) else info.cell j := by
  obtain ⟨hi, rfl⟩ := add_cases hw h
  have hs := cell_sound (z := z) hw info.el_idx.toNat rg
  split
  · rename_i hj
    subst hj
    exact cell_putCell hi hs.own
  · rename_i hj
    exact cell_putCell_ne hs.own hj

theorem add_el_size (hw : info.WF) (h : rg.add z info = .ok info') : info'.el_size = info.el_size := by
  obtain ⟨-, rfl⟩ := add_cases hw h
  rfl

theorem add_wf (hw : info.WF) (h : rg.add z info = .ok info') : info'.WF := by
  obtain ⟨hi, rfl⟩ := add_cases hw h
  exact (hw.putCell (cell_sound hw _ rg) hi).setIdx _

end Registration

/-! ## The whole set up -/

/-- The command channel: a queryable that is on, and whose callback is the command handler. -/
structure IsChannel (c : Cell) : Prop where
  type : c.entity.type = .ZDC_TYPE_QUERYABLE
  cb_ptr : c.entity.cb_ptr = some .zdc_cmd_handler
  on : c.entity.isOn

/-- The first `n` slots are filled, and nothing has run but the set up. -/
structure Filled (z : Zenoh) (n : Nat) (info : zdc_info_t) : Prop where
  wf : info.WF
  filled : ∀ i, (∃ c, info.cell i = some c) ↔ i < n
  el_idx : info.el_idx = UInt8.ofNat n
  tidy : info.Cells (Cell.Tidy z)
  channel : ∀ c, info.cell 0 = some c → IsChannel c
  quiet : info.curr_msg_size = 0

theorem Registration.cell_tidy (hw : info.WF) (hi : info.cell i = none) (rg : Registration) :
    (rg.cell z info i).Tidy z i := by
  have hs := filled hw i rg
  have hl : part Decl.entity i info.session = 0 := hw.part_of_no_cell hi
  have hslot := slot_of_no_cell hi
  have hstate : (rg.entity (info.slot i)).state = 2 := by cases rg <;> rfl
  have hdata : (rg.entity (info.slot i)).data.decl = none := by rw [hslot]; cases rg <;> rfl
  unfold Registration.cell
  rcases Cell.turn_cases z i rg.start_on ⟨rg.entity (info.slot i), part Decl.entity i info.session⟩ with
    ⟨-, h⟩ | ⟨h, h1, -⟩ | ⟨-, -, -, h⟩ | ⟨h, -, -, h1⟩
  · rw [hstate] at h
    rcases rg.start_on_or with h0 | h0 <;> rw [h0] at h <;> cases h
  · rw [h, h1]
    exact .of_declare hs hdata hl
  · rw [hstate] at h
    exact absurd rfl h
  · rw [h, rg.start_on_or.resolve_right h1]
    exact .of_off (hs.withState (by decide)) hdata hl

theorem Filled.add {n : Nat} {rg : Registration} (hf : Filled z n info) (hn0 : 0 < n) (hn : n < 256)
    (h : rg.add z info = .ok info') : Filled z (n + 1) info' := by
  have hidx : info.el_idx.toNat = n := by
    rw [hf.el_idx, UInt8.toNat_ofNat', Nat.mod_eq_of_lt (by omega)]
  have hcell := Registration.add_cell hf.wf h
  rw [hidx] at hcell
  have hfree : info.cell n = none := by
    cases hc : info.cell n with
    | none => rfl
    | some c => exact absurd ((hf.filled n).mp ⟨c, hc⟩) (by omega)
  obtain ⟨-, rfl⟩ := Registration.add_cases hf.wf h
  refine ⟨Registration.add_wf hf.wf h, fun j => ?_, ?_, fun j c hc => ?_, ?_, hf.quiet⟩
  · rw [hcell]
    split
    · exact iff_of_true ⟨_, rfl⟩ (by omega)
    · rw [hf.filled j]; omega
  · rw [UInt8.ofNat_add, ← hf.el_idx]; rfl
  · rw [hcell] at hc
    split at hc
    · rename_i hj
      subst hj
      exact Option.some.inj hc ▸ Registration.cell_tidy hf.wf hfree rg
    · exact hf.tidy j c hc
  · intro c hc
    rw [hcell, if_neg (by omega)] at hc
    exact hf.channel c hc

theorem Filled.add_all {n : Nat} {rs : List Registration} (hf : Filled z n info) (hn0 : 0 < n)
    (hn : n + rs.length ≤ 256) (h : Registration.add_all z rs info = .ok info') :
    Filled z (n + rs.length) info' := by
  induction rs generalizing info n with
  | nil =>
    cases h
    exact hf
  | cons rg rs ih =>
    rw [List.length_cons] at hn ⊢
    obtain ⟨mid, ha, h⟩ := Result.bind_ok h
    have := ih (hf.add hn0 (by omega) ha) (by omega) (by omega) h
    rwa [show n + (rs.length + 1) = n + 1 + rs.length by omega]

def blank (entity_nb buff_size : Nat) : zdc_info_t :=
  { pSendBuffer := Block.malloc (UInt16.ofNat buff_size).toNat, buff_size := UInt16.ofNat buff_size
    curr_msg_size := 0, el_size := UInt16.ofNat (entity_nb + 1), SendCmdPayload := .zero, el_idx := 0
    entity_list := List.replicate (UInt16.ofNat (entity_nb + 1)).toNat none, session := 0 }

theorem blank_cell (entity_nb buff_size i : Nat) : (blank entity_nb buff_size).cell i = none := by
  unfold cell
  split
  · rename_i e he
    rw [blank, List.getElem?_replicate] at he
    split at he <;> cases he
  · rfl

theorem blank_wf (entity_nb buff_size : Nat) : (blank entity_nb buff_size).WF := by
  refine ⟨List.length_replicate, fun i c hc => ?_, fun d hd => absurd hd (Multiset.notMem_zero d)⟩
  rw [blank_cell] at hc
  cases hc

def selfCell (zdc_suffix : CString) : Cell :=
  ⟨fresh_slot.filled .ZDC_TYPE_QUERYABLE 0 zdc_suffix none (some .zdc_cmd_handler), 0⟩

theorem selfCell_sound (zdc_suffix : CString) : (selfCell zdc_suffix).Sound 0 :=
  ⟨(filled_sound (by rintro d ⟨⟩) (by decide)).1, fun d hd => absurd hd (Multiset.notMem_zero d)⟩

theorem MainInit_spec {entity_nb buff_size : Nat} {zdc_suffix : CString}
    (h : 0 < (UInt16.ofNat (entity_nb + 1)).toNat) :
    zdc_MainInit z 0 entity_nb buff_size zdc_suffix =
      .ok (((blank entity_nb buff_size).putCell 0 ((selfCell zdc_suffix).turn z 0 1)).setIdx 1) := by
  have hlen : 0 < (blank entity_nb buff_size).entity_list.length := by
    rwa [(blank_wf entity_nb buff_size).length]
  have hfill : fill_slot .ZDC_TYPE_QUERYABLE 0 zdc_suffix none (some .zdc_cmd_handler)
      (blank entity_nb buff_size) = .ok ((blank entity_nb buff_size).putCell 0 (selfCell zdc_suffix)) := by
    have hidx : (blank entity_nb buff_size).el_idx.toNat < (blank entity_nb buff_size).entity_list.length :=
      hlen
    rw [fill_slot_spec _ _ _ _ _ hidx, slot_of_no_cell (blank_cell _ _ _)]
    rfl
  have hs := selfCell_sound zdc_suffix
  have hturn := zdc_update_entity_state_ok (z := z) (cell_putCell hlen hs.own) hs Cell.not_badHandle_on
  rw [putCell_putCell _ hs.own] at hturn
  unfold zdc_MainInit
  change (fill_slot .ZDC_TYPE_QUERYABLE 0 zdc_suffix none (some .zdc_cmd_handler)
    (blank entity_nb buff_size) >>= _) = _
  rw [hfill, ok_bind]
  change (zdc_update_entity_state z 0 1
    ((blank entity_nb buff_size).putCell 0 (selfCell zdc_suffix)) >>= _) = _
  rw [hturn, ok_bind]
  rfl

theorem MainInit_out {entity_nb buff_size : Nat} {zdc_suffix : CString}
    (h : (UInt16.ofNat (entity_nb + 1)).toNat = 0) :
    zdc_MainInit z 0 entity_nb buff_size zdc_suffix = .error (.outOfBounds 0) := by
  have hlen : (blank entity_nb buff_size).entity_list.length ≤ 0 := by
    rw [(blank_wf entity_nb buff_size).length]
    exact Nat.le_of_eq h
  unfold zdc_MainInit
  change (fill_slot .ZDC_TYPE_QUERYABLE 0 zdc_suffix none (some .zdc_cmd_handler)
    (blank entity_nb buff_size) >>= _) = _
  rw [fill_slot_out _ _ _ _ _ hlen, error_bind]
  rfl

theorem MainInit_cases {entity_nb buff_size : Nat} {zdc_suffix : CString}
    (h : zdc_MainInit z 0 entity_nb buff_size zdc_suffix = .ok info) :
    0 < (blank entity_nb buff_size).entity_list.length ∧
      info = ((blank entity_nb buff_size).putCell 0 ((selfCell zdc_suffix).turn z 0 1)).setIdx 1 := by
  rcases Nat.eq_zero_or_pos (UInt16.ofNat (entity_nb + 1)).toNat with h0 | h0
  · rw [MainInit_out h0] at h
    cases h
  · rw [MainInit_spec h0] at h
    exact ⟨by rwa [(blank_wf entity_nb buff_size).length], (Except.ok.inj h).symm⟩

theorem MainInit_cell {entity_nb buff_size : Nat} {zdc_suffix : CString}
    (h : zdc_MainInit z 0 entity_nb buff_size zdc_suffix = .ok info) (j : Nat) :
    info.cell j = if j = 0 then some ((selfCell zdc_suffix).turn z 0 1) else none := by
  obtain ⟨hlen, rfl⟩ := MainInit_cases h
  have hs : ((selfCell zdc_suffix).turn z 0 1).Sound 0 := (selfCell_sound zdc_suffix).turn
  rw [setIdx_cell]
  split
  · rename_i hj
    subst hj
    exact cell_putCell hlen hs.own
  · rename_i hj
    rw [cell_putCell_ne hs.own hj, blank_cell]

theorem MainInit_filled {entity_nb buff_size : Nat} {zdc_suffix : CString}
    (h : zdc_MainInit z 0 entity_nb buff_size zdc_suffix = .ok info) :
    Filled z 1 info ∧ info.el_size = UInt16.ofNat (entity_nb + 1) := by
  have hcell := MainInit_cell h
  obtain ⟨hlen, rfl⟩ := MainInit_cases h
  have hs : ((selfCell zdc_suffix).turn z 0 1).Sound 0 := (selfCell_sound zdc_suffix).turn
  have hput := (blank_wf entity_nb buff_size).putCell hs hlen
  have htidy : ((selfCell zdc_suffix).turn z 0 1).Tidy z 0 :=
    (Cell.Tidy.of_off ((selfCell_sound zdc_suffix).withState (by decide)) rfl rfl).turn (Or.inr rfl)
  refine ⟨⟨hput.setIdx 1, fun i => ?_, rfl, fun i c hc => ?_, ?_, rfl⟩, rfl⟩
  · rw [hcell]
    split
    · exact iff_of_true ⟨_, rfl⟩ (by omega)
    · exact iff_of_false (fun ⟨_, h⟩ => nomatch h) (by omega)
  · rw [hcell] at hc
    split at hc
    · rename_i hi
      subst hi
      exact Option.some.inj hc ▸ htidy
    · cases hc
  · intro c hc
    rw [hcell, if_pos rfl] at hc
    obtain rfl := Option.some.inj hc
    refine ⟨?_, ?_, ?_⟩
    · rw [Cell.turn_type]; rfl
    · rw [Cell.turn_cb_ptr]; rfl
    · rw [Cell.turn_isOn]

/-! ## Started nodes -/

theorem add_all_el_size {rs : List Registration} (hw : info.WF)
    (h : Registration.add_all z rs info = .ok info') :
    info'.WF ∧ info'.el_size = info.el_size ∧ ((∀ i c, info.cell i = some c → i < 256) →
      ∀ i c, info'.cell i = some c → i < 256) := by
  induction rs generalizing info with
  | nil =>
    cases h
    exact ⟨hw, rfl, id⟩
  | cons rg rs ih =>
    obtain ⟨mid, ha, h⟩ := Result.bind_ok h
    obtain ⟨hw', hsize, hlow⟩ := ih (Registration.add_wf hw ha) h
    refine ⟨hw', hsize.trans (Registration.add_el_size hw ha), fun hinfo => hlow fun i c hc => ?_⟩
    rw [Registration.add_cell hw ha] at hc
    split at hc
    · rename_i hi
      rw [hi]
      exact info.el_idx.toNat_lt
    · exact hinfo i c hc

/-- `el_idx` is one byte, so no slot above 255 is ever filled. -/
theorem Started.el_size_le (h : Started z info) : info.el_size.toNat ≤ 256 := by
  obtain ⟨_, _, _, _, hsetup, -⟩ := h.setup
  obtain ⟨first, hinit, hsetup⟩ := Result.bind_ok hsetup
  obtain ⟨hf, -⟩ := MainInit_filled hinit
  obtain ⟨-, -, hlow⟩ := add_all_el_size hf.wf hsetup
  have hall := hlow fun i c hc => by
    have := (hf.filled i).mp ⟨c, hc⟩
    omega
  by_contra hbig
  obtain ⟨c, hc⟩ := h.registered 256 (by omega)
  exact absurd (hall 256 c hc) (by omega)

theorem Started.filled (h : Started z info) : Filled z info.el_size.toNat info := by
  obtain ⟨entity_nb, buff_size, zdc_suffix, rs, hsetup, hlen⟩ := h.setup
  obtain ⟨first, hinit, hsetup⟩ := Result.bind_ok hsetup
  obtain ⟨hf, -⟩ := MainInit_filled hinit
  have hsize := h.el_size_le
  have := hf.add_all (by omega) (by omega) hsetup
  rwa [Nat.add_comm, hlen] at this

theorem Started.full (h : Started z info) : info.Full := ⟨h.filled.wf, h.registered⟩

theorem Filled.started {entity_nb buff_size : Nat} {zdc_suffix : CString} {rs : List Registration}
    (h : setup z entity_nb buff_size zdc_suffix rs = .ok info)
    (hf : Filled z info.el_size.toNat info) (hlen : rs.length + 1 = info.el_size.toNat) :
    Started z info :=
  ⟨⟨entity_nb, buff_size, zdc_suffix, rs, h, hlen⟩, fun i hi => (hf.filled i).mpr hi⟩

theorem Filled.add_completes {n : Nat} (hf : Filled z n info) (rg : Registration)
    (hroom : n % 256 < info.el_size.toNat) : ∃ info', rg.add z info = .ok info' := by
  have hidx : info.el_idx.toNat < info.entity_list.length := by
    rw [hf.wf.length, hf.el_idx, UInt8.toNat_ofNat']
    exact hroom
  exact ⟨_, Registration.add_spec rg hf.wf hidx⟩

theorem Filled.add_all_completes {n : Nat} (hf : Filled z n info) (rs : List Registration) (hn0 : 0 < n)
    (hn : n + rs.length ≤ 256) (hroom : n + rs.length ≤ info.el_size.toNat) :
    ∃ info', Registration.add_all z rs info = .ok info' := by
  induction rs generalizing info n with
  | nil => exact ⟨info, rfl⟩
  | cons rg rs ih =>
    rw [List.length_cons] at hn hroom
    obtain ⟨mid, hadd⟩ := hf.add_completes rg (by omega)
    have hsize := Registration.add_el_size hf.wf hadd
    obtain ⟨info', h⟩ := ih (hf.add hn0 (by omega) hadd) (by omega) (by omega) (by rw [hsize]; omega)
    exact ⟨info', by rw [Registration.add_all, hadd, ok_bind, h]⟩

/-- The set up of up to 255 entities does not fail. -/
theorem setup_started (z : Zenoh) (buff_size : Nat) (zdc_suffix : CString) (rs : List Registration)
    (h : rs.length ≤ 255) :
    ∃ info, setup z rs.length buff_size zdc_suffix rs = .ok info ∧ Started z info := by
  have hsize : (UInt16.ofNat (rs.length + 1)).toNat = rs.length + 1 := by
    rw [UInt16.toNat_ofNat']
    omega
  obtain ⟨first, hinit⟩ : ∃ first, zdc_MainInit z 0 rs.length buff_size zdc_suffix = .ok first :=
    ⟨_, MainInit_spec (by omega)⟩
  obtain ⟨hfirst, hel⟩ := MainInit_filled hinit
  obtain ⟨info, hinfo⟩ := hfirst.add_all_completes rs (by omega) (by omega) (by rw [hel]; omega)
  have hsetup : setup z rs.length buff_size zdc_suffix rs = .ok info := by
    rw [setup, hinit, ok_bind, hinfo]
  have hend : info.el_size.toNat = rs.length + 1 := by
    rw [(add_all_el_size hfirst.wf hinfo).2.1, hel, hsize]
  refine ⟨info, hsetup, Filled.started hsetup ?_ hend.symm⟩
  have := hfirst.add_all (by omega) (by omega) hinfo
  rwa [Nat.add_comm, ← hend] at this

/-! ## Reachable nodes -/

theorem IsChannel.act {cmd : Command} (h : IsChannel c) : IsChannel (cmd.act z 0 c) := by
  cases cmd with
  | set_entity_state id b =>
    rw [Command.act, if_neg (fun h => h.2 rfl)]
    exact h
  | set_entity_keyexpr id ke =>
    rw [Command.act]
    split
    · refine ⟨by rw [Cell.rename_type]; exact h.type, by rw [Cell.rename_cb_ptr]; exact h.cb_ptr, ?_⟩
      rw [zdc_entity_t.isOn, Cell.rename_state]
      exact h.on
    · exact h
  | list_entities_req => exact h
  | set_entity_config id config => exact h

/-- What every command keeps of a node that was set up in full. -/
structure Served (z : Zenoh) (info : zdc_info_t) : Prop where
  full : info.Full
  cells : info.Cells (Cell.Inv z)
  channel : ∃ c, info.cell 0 = some c ∧ IsChannel c

theorem Started.served (h : Started z info) : Served z info := by
  refine ⟨h.full, h.filled.tidy.mono fun _ _ => Cell.Tidy.inv, ?_⟩
  obtain ⟨_, _, _, _, -, hlen⟩ := h.setup
  obtain ⟨c, hc⟩ := h.registered 0 (by omega)
  exact ⟨c, hc, h.filled.channel c hc⟩

theorem Stepped.served {cmd : Command} (hd : Stepped z cmd info info') (h : Served z info) :
    Served z info' := by
  obtain ⟨c, hc, hchannel⟩ := h.channel
  exact ⟨hd.full h.full, hd.cells h.cells fun i c _ => Cell.Inv.act,
    _, by rw [hd.cell, hc, Option.map_some], hchannel.act⟩

theorem Served.step {cmd : Command} (h : Served z info)
    (hstep : execute z s cmd info = .ok (r, info')) : Served z info' :=
  (execute_stepped h.full.toWF hstep).served h

theorem SameTable.served {a b : zdc_info_t} (h : SameTable a b) (hs : Served z a) : Served z b := by
  refine ⟨⟨h.wf hs.full.toWF, fun i hi => ?_⟩, h.cells hs.cells, by rw [h.cell]; exact hs.channel⟩
  rw [h.cell]
  exact hs.full.registered i (h.el_size ▸ hi)

theorem SameTable.replied (info : zdc_info_t) : SameTable info { info with curr_msg_size := 0 } :=
  ⟨rfl, rfl, rfl, rfl, rfl⟩

theorem Reachable.served (h : Reachable z s info) : Served z info := by
  induction h with
  | start h => exact h.served
  | execute _ hstep ih => exact ih.step hstep
  | replied _ ih => exact (SameTable.replied _).served ih

theorem Reachable.run {cmds : List Command} (h : Reachable z s info)
    (hrun : Run.run (B.execute z s) cmds info = .ok info') : Reachable z s info' :=
  Run.run_inv (fun _ _ _ _ hr hstep => hr.execute hstep) hrun h

end ZdcPoc.B
