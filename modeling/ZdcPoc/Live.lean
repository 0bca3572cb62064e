import ZdcPoc.Setup
import ZdcPoc.World

/-!
# Live declarations and recorded states

With a Zenoh that takes every keyexpr, the declarations of a node match its recorded states until a
state byte that is neither OFF nor ON reaches an entity that is on.
-/

namespace ZdcPoc.B

open zdc_info_t

variable {z : Zenoh} {s : LcsfStack} {info info' : zdc_info_t} {r : Bool}
variable {i : Nat} {b : UInt8} {ke : CString} {c : Cell}

def zdc_type_e.declares (t : zdc_type_e) : Prop := t = .ZDC_TYPE_SUB ∨ t = .ZDC_TYPE_QUERYABLE

theorem declares_iff {t : zdc_type_e} : t.declares ↔ ∃ k, t.kind = some k := by
  cases t <;> simp [zdc_type_e.declares, zdc_type_e.kind]

/-- At most one declaration, and one exactly when the entity is on. -/
def Cell.Exact (c : Cell) : Prop :=
  c.entity.type.declares → c.live.card ≤ 1 ∧ (c.live.card = 1 ↔ c.entity.isOn)

def zdc_info_t.Live (info : zdc_info_t) : Prop := info.Cells fun _ c => c.Exact

def zdc_info_t.Closes (z : Zenoh) (info : zdc_info_t) : Prop :=
  ∃ closed, zdc_close z info = .ok closed ∧ closed.session = 0

def KeepsLive (cmd : Command) (info : zdc_info_t) : Prop :=
  ∀ id b, cmd = .set_entity_state id b → id.toNat ≠ 0 →
    ∀ c, info.cell id.toNat = some c → c.entity.type.declares → c.entity.isOn → b = 0 ∨ b = 1

/-! ## One cell -/

/-- With all keyexprs taken, exact means that the handle is of the only declaration. -/
theorem exact_iff_held (hz : ∀ ke, z.accepts ke = true) (h : c.Inv z i) (hk : c.entity.type.declares) :
    c.Exact ↔ c.live = held c.entity.data.decl ∧ (¬ c.entity.isOn → c.entity.data.decl = none) := by
  obtain ⟨k, hkind⟩ := declares_iff.mp hk
  have hwanted : c.entity.wanted z i = some (c.entity.decl i k) :=
    wanted_eq_some.mpr ⟨hz _, k, hkind, rfl⟩
  constructor
  · intro hex
    obtain ⟨hle, hiff⟩ := hex hk
    by_cases hon : c.entity.isOn
    · have hdata := (h.on hon).trans hwanted
      obtain ⟨d, hd⟩ := Multiset.card_eq_one.mp (hiff.mpr hon)
      have hmem := h.handle _ hdata
      rw [hd, Multiset.mem_singleton] at hmem
      exact ⟨by rw [hd, hdata, hmem, held], fun hoff => absurd hon hoff⟩
    · have hne : c.live.card ≠ 1 := fun h1 => hon (hiff.mp h1)
      have hzero : c.live = 0 := Multiset.card_eq_zero.mp (by omega)
      have hdata := h.data_none hzero
      exact ⟨by rw [hzero, hdata, held], fun _ => hdata⟩
  · rintro ⟨hl, hoff⟩ -
    by_cases hon : c.entity.isOn
    · rw [hl, (h.on hon).trans hwanted, held, Multiset.card_singleton]
      exact ⟨le_refl _, iff_of_true rfl hon⟩
    · rw [hl, hoff hon, held, Multiset.card_zero]
      exact ⟨by omega, iff_of_false (by omega) hon⟩

theorem exact_of_same (hex : c.Exact) {c' : Cell} (ht : c'.entity.type = c.entity.type)
    (hl : c'.live = c.live) (hs : c'.entity.isOn ↔ c.entity.isOn) : c'.Exact := by
  intro hk
  rw [hl, hs]
  exact hex (ht ▸ hk)

theorem exact_turn (hz : ∀ ke, z.accepts ke = true) (h : c.Inv z i) (hex : c.Exact) :
    (c.turn z i b).Exact ↔ (c.entity.type.declares → c.entity.isOn → b = 0 ∨ b = 1) := by
  by_cases hk : c.entity.type.declares
  swap
  · exact iff_of_true (fun h => absurd (Cell.turn_type z i b c ▸ h) hk) fun h => absurd h hk
  obtain ⟨k, hkind⟩ := declares_iff.mp hk
  obtain ⟨hl, hoff⟩ := (exact_iff_held hz h hk).mp hex
  have hturn : ∀ c' : Cell, c.turn z i b = c' → c'.Inv z i ∧ c'.entity.type.declares := by
    rintro c' rfl
    exact ⟨h.turn, by rwa [Cell.turn_type]⟩
  rcases Cell.turn_cases z i b c with ⟨e, hs⟩ | ⟨e, rfl, hnot⟩ | ⟨e, rfl, -⟩ | ⟨e, -, h0, h1⟩ <;>
    obtain ⟨hinv', hk'⟩ := hturn _ e <;> rw [e]
  · refine iff_of_true hex fun _ hon => Or.inr ?_
    rwa [zdc_entity_t.isOn, hs, toInt8_eq_on] at hon
  · refine iff_of_true ((exact_iff_held hz hinv' hk').mpr ⟨?_, fun hn => ?_⟩) fun _ _ => Or.inr rfl
    · obtain ⟨hd, hlive⟩ := Cell.declare_of_kind (z := z) (i := i) hkind
      rw [hl, hoff hnot, held, Multiset.add_zero] at hlive
      rw [Cell.withState, hlive, ← hd]
    · exact absurd ((toInt8_eq_on 1).mpr rfl) hn
  · refine iff_of_true ((exact_iff_held hz hinv' hk').mpr ?_) fun _ _ => Or.inl rfl
    obtain ⟨hd, hlive⟩ := Cell.undeclare_of_kind hkind
    refine ⟨?_, fun _ => congrArg handle_t.decl hd⟩
    rw [Cell.withState, hlive, hd, hl]
    cases c.entity.data with
    | declared d => simp [z_undeclare, held, handle_t.decl]
    | _ => rfl
  · have hnot : ¬ (c.withState b).entity.isOn := fun hon => h1 ((toInt8_eq_on b).mp hon)
    constructor
    · -- The declaration of an entity that was on is still there.
      intro hex' _ hon
      obtain ⟨-, hdata⟩ := (exact_iff_held hz hinv' hk').mp hex'
      have hnone := (h.on hon).symm.trans (hdata hnot)
      rw [wanted_eq_some.mpr ⟨hz _, k, hkind, rfl⟩] at hnone
      cases hnone
    · intro hgood
      have hwasoff : ¬ c.entity.isOn := fun hon => by
        rcases hgood hk hon with rfl | rfl
        · rw [zdc_entity_t.isOn, h0 rfl] at hon
          cases hon
        · exact h1 rfl
      exact (exact_iff_held hz hinv' hk').mpr ⟨hl, fun _ => hoff hwasoff⟩

theorem exact_rename (hz : ∀ ke, z.accepts ke = true) (h : c.Inv z i) (hex : c.Exact) :
    (c.rename z i ke).Exact := by
  unfold Cell.rename
  split
  · have hoff : ¬ (c.turn z i 0).entity.isOn := by rw [Cell.turn_isOn]; decide
    have h1 : (c.turn z i 0).Exact := (exact_turn hz h hex).mpr fun _ _ => Or.inl rfl
    have h2 : ((c.turn z i 0).rewrite ke).Exact := exact_of_same h1 rfl rfl Iff.rfl
    exact (exact_turn hz (h.turn.rewrite hoff) h2).mpr fun _ _ => Or.inr rfl
  · exact exact_of_same hex rfl rfl Iff.rfl

/-! ## Closing -/

/-- What `zdc_close` does to a cell before it frees the keyexpr. -/
def Cell.stop (z : Zenoh) (i : Nat) (c : Cell) : Cell := if c.entity.isOn then c.turn z i 0 else c

theorem stop_sound (h : c.Sound i) : (c.stop z i).Sound i := by
  unfold Cell.stop
  split
  · exact h.turn
  · exact h

theorem stop_empty (hz : ∀ ke, z.accepts ke = true) (h : c.Inv z i) (hex : c.Exact) :
    (c.stop z i).live = 0 := by
  by_cases hk : c.entity.type.declares
  · unfold Cell.stop
    split
    · have hturn := (exact_turn (b := 0) hz h hex).mpr fun _ _ => Or.inl rfl
      obtain ⟨hle, hiff⟩ := hturn (by rwa [Cell.turn_type])
      have hne : (c.turn z i 0).live.card ≠ 1 := fun h1 =>
        absurd ((Cell.turn_isOn z i 0 c).mp (hiff.mp h1)) (by decide)
      exact Multiset.card_eq_zero.mp (by omega)
    · rename_i hoff
      obtain ⟨hle, hiff⟩ := hex hk
      have hne : c.live.card ≠ 1 := fun h1 => hoff (hiff.mp h1)
      exact Multiset.card_eq_zero.mp (by omega)
  · have hkind : c.entity.type.kind = none := by
      rw [declares_iff, not_exists] at hk
      exact Option.eq_none_iff_forall_ne_some.mpr hk
    unfold Cell.stop
    split
    · exact h.turn.silent (by rwa [Cell.turn_type])
    · exact h.silent hkind

theorem close_loop_cons (is : List Nat) (hc : info.cell i = some c) (hs : c.Sound i) :
    close_loop z (i :: is) info =
      close_loop z is (info.putCell i
        ⟨{ (c.stop z i).entity with ke_suffix := [] }, (c.stop z i).live⟩) := by
  have hi := lt_of_cell hc
  have hstop := stop_sound (z := z) hs
  have hput := cell_putCell hi hstop.own
  have hkeep : (info.putCell i (c.stop z i)).store i { (c.stop z i).entity with ke_suffix := [] } =
      info.putCell i ⟨{ (c.stop z i).entity with ke_suffix := [] }, (c.stop z i).live⟩ := by
    simp only [store, putCell, List.set_set]
  rw [← hkeep, close_loop, entity_of_cell hc, ok_bind]
  by_cases hon : c.entity.isOn
  · have hturn : c.stop z i = c.turn z i 0 := if_pos hon
    rw [hturn] at hput ⊢
    simp only [if_pos (show c.entity.state.toInt = ZDC_STATE_ON from hon),
      zdc_update_entity_state_ok hc hs (hs.not_badHandle hon), ok_bind, entity_of_cell hput]
  · have hsame : c.stop z i = c := if_neg hon
    rw [hsame, putCell_cell hc]
    simp only [if_neg (show ¬ c.entity.state.toInt = ZDC_STATE_ON from hon), pure_bind,
      entity_of_cell hc, ok_bind]

theorem close_loop_spec (z : Zenoh) (info : zdc_info_t) (is : List Nat) (hnd : is.Nodup)
    (h : ∀ i ∈ is, ∃ c, info.cell i = some c ∧ c.Sound i) :
    ∃ closed, close_loop z is info = .ok closed ∧
      (∀ j, j ∉ is → part Decl.entity j closed.session = part Decl.entity j info.session) ∧
      ∀ j ∈ is, ∀ c, info.cell j = some c → part Decl.entity j closed.session = (c.stop z j).live := by
  induction is generalizing info with
  | nil => exact ⟨info, rfl, fun _ _ => rfl, fun j hj => absurd hj List.not_mem_nil⟩
  | cons i is ih =>
    obtain ⟨c, hc, hs⟩ := h i List.mem_cons_self
    have hown := (stop_sound (z := z) hs).own
    obtain ⟨hi, hnd'⟩ := List.nodup_cons.mp hnd
    have hother : ∀ j, j ≠ i → (info.putCell i
        ⟨{ (c.stop z i).entity with ke_suffix := [] }, (c.stop z i).live⟩).cell j = info.cell j :=
      fun j hj => cell_putCell_ne hown hj
    obtain ⟨closed, hclosed, hout, hin⟩ := ih (info.putCell i
        ⟨{ (c.stop z i).entity with ke_suffix := [] }, (c.stop z i).live⟩) hnd' fun j hj => by
      rw [hother j (fun he => hi (he ▸ hj))]
      exact h j (List.mem_cons_of_mem _ hj)
    refine ⟨closed, by rw [close_loop_cons is hc hs, hclosed], fun j hj => ?_, fun j hj c' hc' => ?_⟩
    · rw [List.mem_cons, not_or] at hj
      rw [hout j hj.2]
      exact part_setPart_ne hown hj.1
    · rcases List.mem_cons.mp hj with rfl | hj'
      · rw [hc] at hc'
        cases hc'
        rw [hout _ hi]
        exact part_setPart hown
      · exact hin j hj' c' (by rw [hother j (fun he => hi (he ▸ hj'))]; exact hc')

theorem closes_of_live (hz : ∀ ke, z.accepts ke = true) (hs : Served z info) (hl : info.Live) :
    info.Closes z := by
  obtain ⟨closed, hclosed, hout, hin⟩ := close_loop_spec z info
    (List.range info.el_size.toNat) List.nodup_range fun i hi => by
      obtain ⟨c, hc⟩ := hs.full.registered i (List.mem_range.mp hi)
      exact ⟨c, hc, hs.full.sound i c hc⟩
  refine ⟨closed, hclosed, eq_zero_of_parts (f := Decl.entity) fun d hd => ?_⟩
  by_cases hj : d.entity < info.el_size.toNat
  · obtain ⟨c, hc⟩ := hs.full.registered _ hj
    rw [hin _ (List.mem_range.mpr hj) c hc]
    exact stop_empty hz (hs.cells _ c hc) (hl _ c hc)
  · rw [hout _ (by simpa using hj)]
    refine hs.full.part_of_no_cell (Option.eq_none_iff_forall_ne_some.mpr fun c hc => ?_)
    exact hj (hs.full.lt_of_cell hc)

/-! ## Runs -/

theorem live_step {cmd : Command} (hz : ∀ ke, z.accepts ke = true) (hs : Served z info)
    (hl : info.Live) (h : execute z s cmd info = .ok (r, info')) :
    info'.Live ↔ KeepsLive cmd info := by
  have hd := execute_stepped hs.full.toWF h
  constructor
  · rintro hl' id b rfl hid c hc hk hon
    have hex := hl' id.toNat _ (by rw [hd.cell, hc, Option.map_some])
    rw [Command.act, if_pos ⟨rfl, hid⟩, exact_turn hz (hs.cells _ c hc) (hl _ c hc)] at hex
    exact hex hk hon
  · intro hgood
    refine hd.cells hl fun i c hc hex => ?_
    cases cmd with
    | set_entity_state id b =>
      rw [Command.act]
      split
      · rename_i hid
        obtain ⟨rfl, hne⟩ := hid
        rw [exact_turn hz (hs.cells _ c hc) hex]
        exact hgood id b rfl hne c hc
      · exact hex
    | set_entity_keyexpr id ke =>
      rw [Command.act]
      split
      · exact exact_rename hz (hs.cells _ c hc) hex
      · exact hex
    | list_entities_req => exact hex
    | set_entity_config id config => exact hex

theorem started_live (hz : ∀ ke, z.accepts ke = true) (h : Started z info) : info.Live := by
  intro i c hc hk
  have ht := h.filled.tidy i c hc
  refine (exact_iff_held hz ht.inv hk).mpr ⟨ht.live, fun hoff => ?_⟩ hk
  rw [ht.data, if_neg hoff]

/-- The declarations match the states all along a run, and a final `zdc_close` leaves none, exactly
when no step takes a subscriber or queryable from ON to a state that is neither OFF nor ON. -/
theorem live_iff_states_kept (hz : ∀ ke, z.accepts ke = true) (hstart : Started z info)
    (cmds : List Command) :
    Run.Always (execute z s) (fun t => t.Live ∧ t.Closes z) cmds info ↔
      Run.Each (execute z s) (Run.Completed KeepsLive) cmds info := by
  refine Run.always_iff_each (I := Served z) (fun _ _ _ _ hI h => hI.step h) ?_ cmds info
    hstart.served ⟨started_live hz hstart, closes_of_live hz hstart.served (started_live hz hstart)⟩
  rintro cmd t r t' hI ⟨hl, -⟩ h
  rw [← live_step hz hI hl h]
  exact ⟨And.left, fun hl' => ⟨hl', closes_of_live hz (hI.step h) hl'⟩⟩

theorem live_switched : ∃ info, Started World.acceptAll info ∧
    Run.Always (execute World.acceptAll World.stack) (fun t => t.Live ∧ t.Closes World.acceptAll)
      [.set_entity_state 1 0, .set_entity_keyexpr 1 (World.str [0x62])] info := by
  obtain ⟨info, -, h⟩ := setup_started World.acceptAll 64 (World.str [0x7a])
    [.sub true (World.str [0x61]) none (.application 0)] (by decide)
  refine ⟨info, h, (live_iff_states_kept (fun _ => rfl) h _).mpr ⟨?_, fun _ _ _ => ⟨?_, ?_⟩⟩⟩
  · rintro _ _ - _ _ ⟨⟩ - _ - - -
    exact Or.inl rfl
  · rintro _ _ - _ _ ⟨⟩
  · exact fun _ _ _ => trivial

/-- The byte 5 leaves a subscriber declared that is not recorded as on. -/
theorem unknown_state_stays_declared : ∃ info info' c,
    setup World.acceptAll 1 64 (World.str [0x7a]) [.sub true (World.str [0x61]) none (.application 0)] =
      .ok info ∧
    execute World.acceptAll World.stack (.set_entity_state 1 5) info = .ok (true, info') ∧
    info'.cell 1 = some c ∧ c.entity.type = .ZDC_TYPE_SUB ∧ ¬ c.entity.isOn ∧ c.live.card = 1 :=
  ⟨_, _, _, rfl, rfl, rfl, rfl, by decide, rfl⟩

end ZdcPoc.B
