import ZdcPoc.Code.MainA
import ZdcPoc.Status

/-!
# State bytes

No command checks a state byte. What the table holds is a state of the enumeration as long as every
byte that reaches another entity than the first is one.
-/

namespace ZdcPoc.B

open zdc_info_t

variable {z : Zenoh} {s : LcsfStack} {info info' : zdc_info_t} {r : Bool} {b : UInt8} {c : Cell}

def IsState (b : UInt8) : Prop :=
  b.toNat = ZDC_STATE_OFF ∨ b.toNat = ZDC_STATE_ON ∨ b.toNat = ZDC_STATE_INVALID

instance (b : UInt8) : Decidable (IsState b) := inferInstanceAs (Decidable (_ ∨ _))

def zdc_entity_t.StateKnown (e : zdc_entity_t) : Prop :=
  e.state.toInt = ZDC_STATE_OFF ∨ e.state.toInt = ZDC_STATE_ON ∨ e.state.toInt = ZDC_STATE_INVALID

instance (e : zdc_entity_t) : Decidable e.StateKnown := inferInstanceAs (Decidable (_ ∨ _))

theorem stateKnown_toInt8 {e : zdc_entity_t} (h : e.state = b.toInt8) : e.StateKnown ↔ IsState b := by
  have hb := b.toNat_lt
  rw [zdc_entity_t.StateKnown, h, toInt8_toInt, IsState, ZDC_STATE_OFF, ZDC_STATE_ON,
    ZDC_STATE_INVALID]
  split <;> omega

def zdc_info_t.StatesKnown (info : zdc_info_t) : Prop := info.Cells fun _ c => c.entity.StateKnown

/-- What known states are good for: only an id out of range reads as -1, and the bytes of a list
response index the controller's tables. -/
structure Indexable (info : zdc_info_t) : Prop where
  known : info.StatesKnown
  in_range : ∀ eid, zdc_entity_state eid info = .ok (-1) → info.el_size.toNat ≤ eid.toNat
  indexes : ∀ e ∈ info.entities, e.type.toUInt8.toNat < A.ZDC_TYPE_TO_STR.length ∧
    e.state.toUInt8.toNat < A.ZDC_STATE_TO_STR.length

theorem type_index (t : zdc_type_e) : t.toUInt8.toNat < A.ZDC_TYPE_TO_STR.length := by
  cases t <;> decide

theorem state_index {e : zdc_entity_t} : e.state.toUInt8.toNat < A.ZDC_STATE_TO_STR.length ↔
    e.StateKnown := by
  have hlen : A.ZDC_STATE_TO_STR.length = 3 := rfl
  have hb := e.state.toUInt8.toNat_lt
  have hstate : e.state = e.state.toUInt8.toInt8 := by rw [Int8.toInt8_toUInt8]
  rw [stateKnown_toInt8 hstate, IsState, ZDC_STATE_OFF, ZDC_STATE_ON, ZDC_STATE_INVALID, hlen]
  omega

theorem indexable_iff (hs : Served z info) : Indexable info ↔ info.StatesKnown := by
  refine ⟨Indexable.known, fun h => ⟨h, fun eid heid => ?_, fun e he => ⟨type_index e.type, ?_⟩⟩⟩
  · by_contra hlt
    obtain ⟨c, hc⟩ := hs.full.registered eid.toNat (by omega)
    rw [zdc_entity_state_spec eid (by omega) hc] at heid
    have hneg := Except.ok.inj heid
    rcases h _ c hc with h0 | h0 | h0 <;> rw [h0] at hneg <;> cases hneg
  · obtain ⟨i, hi, rfl⟩ := List.mem_iff_getElem.mp he
    obtain ⟨c, hc, hce⟩ := hs.full.cell_of_lt hi
    rw [state_index, ← hce]
    exact h i c hc

/-! ## Refusals -/

def RefusesUnknown (s : LcsfStack) (cmd : Command) (info : zdc_info_t)
    (res : Result (Bool × zdc_info_t)) : Prop :=
  ∀ id b, cmd = .set_entity_state id b → id.toNat < info.el_size.toNat → ¬ IsState b →
    ∃ r, res = .ok r ∧ Answers s ZDC_STATUS_ERR r ∧ r.2.entity_list = info.entity_list

/-- A state byte that is no state is for entity 0, whose states are not to be set, and an ERR fits
the send buffer. -/
def Refusable (s : LcsfStack) (cmd : Command) (info : zdc_info_t) : Prop :=
  ∀ id b, cmd = .set_entity_state id b → id.toNat < info.el_size.toNat → ¬ IsState b →
    id.toNat = 0 ∧ s.Fits (statusCmd ZDC_STATUS_ERR) info.buff_size.toNat

theorem refusesUnknown_iff (cmd : Command) (hs : Served z info) :
    RefusesUnknown s cmd info (execute z s cmd info) ↔ Refusable s cmd info := by
  refine forall₂_congr fun id b => forall₃_congr fun hcmd hlt hunknown => ?_
  subst hcmd
  by_cases hid : id.toNat = 0
  · rw [execute_state_forbidden (by omega) hid]
    constructor
    · rintro ⟨r, ⟨⟩, hans, -⟩
      exact ⟨hid, ((answers_send_status _ _).mp hans).2⟩
    · rintro ⟨-, hfit⟩
      exact ⟨_, rfl, (answers_send_status _ _).mpr ⟨rfl, hfit⟩, (send_status_same ..).entity_list⟩
  · obtain ⟨c, hc⟩ := hs.full.registered _ hlt
    have hgood : ¬ c.BadHandle b := fun hbad => hunknown (hbad.2.2.1 ▸ by decide)
    rw [execute_state_spec hlt hid hc (hs.full.sound _ c hc), if_neg hgood]
    constructor
    · rintro ⟨r, ⟨⟩, hans, -⟩
      exact absurd ((answers_send_status _ _).mp hans).1 (by decide)
    · exact fun h => absurd h.1 hid

def SetsStates (cmd : Command) (info : zdc_info_t) : Prop :=
  ∀ id b, cmd = .set_entity_state id b → id.toNat < info.el_size.toNat → id.toNat ≠ 0 → IsState b

theorem states_step {cmd : Command} (hs : Served z info) (hk : info.StatesKnown)
    (h : execute z s cmd info = .ok (r, info')) : info'.StatesKnown ↔ SetsStates cmd info := by
  have hd := execute_stepped hs.full.toWF h
  constructor
  · rintro hk' id b rfl hlt hid
    obtain ⟨c, hc⟩ := hs.full.registered _ hlt
    have hc' : info'.cell id.toNat = some (c.turn z id.toNat b) := by
      rw [hd.cell, hc, Option.map_some, Command.act, if_pos ⟨rfl, hid⟩]
    exact (stateKnown_toInt8 (Cell.turn_state ..)).mp (hk' _ _ hc')
  · intro hgood
    refine hd.cells hk fun i c hc hknown => ?_
    cases cmd with
    | set_entity_state id b =>
      rw [Command.act]
      split
      · rename_i hid
        obtain ⟨rfl, hne⟩ := hid
        exact (stateKnown_toInt8 (Cell.turn_state ..)).mpr
          (hgood id b rfl (hs.full.lt_of_cell hc) hne)
      · exact hknown
    | set_entity_keyexpr id ke =>
      rw [Command.act]
      split
      · rw [zdc_entity_t.StateKnown, Cell.rename_state]
        exact hknown
      · exact hknown
    | list_entities_req => exact hknown
    | set_entity_config id config => exact hknown

theorem started_known (h : Started z info) : info.StatesKnown := by
  intro i c hc
  rcases (h.filled.tidy i c hc).state with h0 | h0
  · exact (stateKnown_toInt8 (b := 0) h0).mpr (by decide)
  · exact (stateKnown_toInt8 (b := 1) h0).mpr (by decide)

/-- Unknown state bytes are refused all along a run, and its states stay known, exactly when every
such byte is for entity 0 and its ERR fits the send buffer. -/
theorem states_known_iff_refusable (hstart : Started z info) (cmds : List Command) :
    (Run.Each (execute z s) (RefusesUnknown s) cmds info ∧
      Run.Always (execute z s) Indexable cmds info) ↔
    Run.Each (execute z s) (fun cmd t _ => Refusable s cmd t) cmds info := by
  have hI : ∀ cmd t o t', Served z t → execute z s cmd t = .ok (o, t') → Served z t' :=
    fun _ _ _ _ hI h => hI.step h
  have heach := Run.each_iff_of_inv (Q := RefusesUnknown s) (R := fun cmd t _ => Refusable s cmd t)
    hI (fun cmd t ht => refusesUnknown_iff cmd ht) cmds info hstart.served
  have halways : Run.Always (execute z s) Indexable cmds info ↔
      Run.Each (execute z s) (Run.Completed SetsStates) cmds info :=
    Run.always_iff_each hI
      (fun cmd t o t' ht hp h => by
        rw [indexable_iff (ht.step h)]
        exact states_step ht hp.known h)
      cmds info hstart.served ((indexable_iff hstart.served).mpr (started_known hstart))
  refine ⟨fun h => heach.mp h.1, fun h => ⟨heach.mpr h, halways.mpr (Run.each_mono ?_ h)⟩⟩
  intro cmd t res hgood _ _ _ id b hcmd hlt hid
  by_contra hb
  exact hid (hgood id b hcmd hlt hb).1

theorem states_known_forbidden : ∃ info, Started World.acceptAll info ∧
    Run.Each (execute World.acceptAll World.stack) (RefusesUnknown World.stack)
      [.set_entity_state 0 255] info ∧
    Run.Always (execute World.acceptAll World.stack) Indexable [.set_entity_state 0 255] info := by
  obtain ⟨info, hsetup, h⟩ := setup_started World.acceptAll 64 (World.str [0x7a])
    [.pub false (World.str [0x61]) none] (by decide)
  have hsize := Result.of_map (f := zdc_info_t.buff_size) (b := 64) hsetup rfl
  refine ⟨info, h, (states_known_iff_refusable h _).mpr ⟨?_, fun _ _ _ => trivial⟩⟩
  rintro _ _ ⟨⟩ - -
  rw [hsize]
  exact ⟨rfl, _, rfl, by decide, by decide⟩

/-- The byte 255 for a publisher is acknowledged, and the entity then reads as if it were not
there. -/
theorem unknown_state_stored : ∃ info info',
    setup World.acceptAll 1 64 (World.str [0x7a]) [.pub false (World.str [0x61]) none] = .ok info ∧
    execute World.acceptAll World.stack (.set_entity_state 1 255) info = .ok (true, info') ∧
    info'.reply = World.stack.wire (statusCmd ZDC_STATUS_OK) ∧
    zdc_entity_state 1 info = .ok 0 ∧ zdc_entity_state 1 info' = .ok (-1) :=
  ⟨_, _, rfl, rfl, rfl, rfl, rfl⟩

end ZdcPoc.B
