import ZdcPoc.Setup
import ZdcPoc.World

/-!
# What a status says

A node answers OK whatever Zenoh made of the declarations. The answer is true when the entity does
not end up on with a keyexpr that Zenoh refuses.
-/

namespace ZdcPoc.B

open zdc_info_t

variable {z : Zenoh} {s : LcsfStack} {info info' : zdc_info_t} {r : Bool}
variable {id : UInt16} {b : UInt8} {ke : CString} {c : Cell}

/-! ## Replies -/

/-- The command was answered with this status: its message waits in the send buffer. -/
def Answers (s : LcsfStack) (status : UInt8) (res : Bool × zdc_info_t) : Prop :=
  res.1 = true ∧ ∃ msg, s.wire (statusCmd status) = some msg ∧ res.2.reply = some msg

theorem answers_send_status (status status' : UInt8) :
    Answers s status' (send_status s status info) ↔
      status' = status ∧ s.Fits (statusCmd status) info.buff_size.toNat := by
  obtain ⟨p, hp⟩ := send_status_eq s info status
  constructor
  · rintro ⟨hr, msg, hwire, hreply⟩
    rw [hp] at hr hreply
    have hfit := (send_ok_iff ..).mp hr
    refine ⟨?_, hfit⟩
    obtain ⟨-, msg', hwire', -, -, hreply'⟩ :=
      send_fits { info with SendCmdPayload := p } hfit
    rw [hreply'] at hreply
    obtain rfl := Option.some.inj hreply
    -- The receiver tells the two statuses apart.
    have hsame := (s.receive_wire hwire).symm.trans (s.receive_wire hwire')
    simpa [lcsf_valid_cmd_t.carried, statusCmd, LCSF_zdc_ProtDesc, lcsf_valid_att_t.carried]
      using hsame
  · rintro ⟨rfl, hfit⟩
    obtain ⟨hr, msg, hwire, -, -, hreply⟩ :=
      send_fits { info with SendCmdPayload := p } hfit
    rw [hp]
    exact ⟨hr, msg, hwire, hreply⟩

/-! ## True answers -/

/-- A subscriber or queryable that is on has a declaration on its stored keyexpr. -/
def Cell.Backed (c : Cell) : Prop :=
  c.entity.isOn → ∀ k, c.entity.type.kind = some k → ∃ d ∈ c.live, d.keyexpr = c.entity.keyexpr

def InEffect (cmd : Command) (t : zdc_info_t) : Prop :=
  match cmd with
  | .set_entity_state id b =>
    ∃ c, t.cell id.toNat = some c ∧ c.entity.state = b.toInt8 ∧ c.Backed
  | .set_entity_keyexpr id ke =>
    ∃ c, t.cell id.toNat = some c ∧ c.entity.keyexpr = ke ∧ c.Backed
  | _ => True

def Kept (cmd : Command) (info t : zdc_info_t) : Prop :=
  match cmd with
  | .set_entity_state id _ | .set_entity_keyexpr id _ =>
    ∀ c, info.cell id.toNat = some c → ∃ c', t.cell id.toNat = some c' ∧
      c'.entity.keyexpr = c.entity.keyexpr ∧ c'.live = c.live
  | _ => True

def Truthful (s : LcsfStack) (cmd : Command) (info : zdc_info_t) (res : Bool × zdc_info_t) : Prop :=
  (Answers s ZDC_STATUS_OK res → InEffect cmd res.2) ∧
  (Answers s ZDC_STATUS_ERR res → Kept cmd info res.2)

def LeavesTaken (z : Zenoh) (cmd : Command) (info : zdc_info_t) : Prop :=
  match cmd with
  | .set_entity_state id b => id.toNat ≠ 0 → b = 1 → ∀ c, info.cell id.toNat = some c →
    ∀ k, c.entity.type.kind = some k → z.accepts c.entity.keyexpr = true
  | .set_entity_keyexpr id ke => ∀ c, info.cell id.toNat = some c → c.entity.isOn →
    ∀ k, c.entity.type.kind = some k → z.accepts ke = true
  | _ => True

/-- A `set_entity_state` to OFF or ON or a `set_entity_keyexpr`, for an entity of the table. -/
def InRange (info : zdc_info_t) : Command → Prop
  | .set_entity_state id b => id.toNat < info.el_size.toNat ∧ (b = 0 ∨ b = 1)
  | .set_entity_keyexpr id _ => id.toNat < info.el_size.toNat
  | _ => False

theorem backed_iff {i : Nat} (h : c.Inv z i) : c.Backed ↔
    (c.entity.isOn → ∀ k, c.entity.type.kind = some k → z.accepts c.entity.keyexpr = true) := by
  constructor
  · intro hs hon k hk
    obtain ⟨d, hd, hke⟩ := hs hon k hk
    exact hke ▸ h.accepted d hd
  · intro hz hon k hk
    exact ⟨_, h.declared hon hk (hz hon k hk), rfl⟩

theorem truthful_replaced (cmd : Command) (i : Nat) :
    Truthful s cmd info (Replaced s i c ZDC_STATUS_OK info) ↔
      (s.Fits (statusCmd ZDC_STATUS_OK) info.buff_size.toNat →
        InEffect cmd (Replaced s i c ZDC_STATUS_OK info).2) := by
  unfold Truthful Replaced
  rw [answers_send_status, answers_send_status]
  constructor
  · exact fun h hfit => h.1 ⟨rfl, hfit⟩
  · exact fun h => ⟨fun hok => h hok.2, fun herr => absurd herr.1 (by decide)⟩

theorem replaced_cell {i : Nat} (hi : i < info.entity_list.length) (hs : c.Sound i) (status : UInt8) :
    (Replaced s i c status info).2.cell i = some c := by
  rw [Replaced, (send_status_same ..).cell]
  exact cell_putCell hi hs.own

theorem replaced_backed {i : Nat} {P : Cell → Prop} (hi : i < info.entity_list.length)
    (hinv : c.Inv z i) (hP : P c) (status : UInt8) :
    (∃ c', (Replaced s i c status info).2.cell i = some c' ∧ P c' ∧ c'.Backed) ↔
      (c.entity.isOn → ∀ k, c.entity.type.kind = some k → z.accepts c.entity.keyexpr = true) := by
  rw [replaced_cell hi hinv.sound, ← backed_iff hinv]
  constructor
  · rintro ⟨c', ⟨⟩, -, hb⟩
    exact hb
  · exact fun hb => ⟨c, rfl, hP, hb⟩

theorem truthful_iff (hserved : Served z info) {cmd : Command} (hin : InRange info cmd)
    (hgood : ¬ cmd.BadHandle info) :
    ∃ res, execute z s cmd info = .ok res ∧
      (Truthful s cmd info res ↔
        (s.Fits (statusCmd ZDC_STATUS_OK) info.buff_size.toNat → LeavesTaken z cmd info)) := by
  cases cmd with
  | set_entity_state id b =>
    obtain ⟨hlt, hb⟩ := hin
    obtain ⟨c, hc⟩ := hserved.full.registered _ hlt
    have hinv := hserved.cells _ c hc
    by_cases hid : id.toNat = 0
    · refine ⟨_, execute_state_forbidden (by omega) hid, iff_of_true ⟨?_, ?_⟩ fun _ h => absurd hid h⟩
      · rw [answers_send_status]
        exact fun h => absurd h.1 (by decide)
      · rintro - c' hc'
        exact ⟨c', by rw [(send_status_same ..).cell]; exact hc', rfl, rfl⟩
    · have hexec := execute_state_spec (z := z) (s := s) (b := b) hlt hid hc hinv.sound
      rw [if_neg fun hbad => hgood ⟨hid, c, hc, hbad⟩] at hexec
      refine ⟨_, hexec, ?_⟩
      rw [← Replaced, truthful_replaced]
      refine imp_congr_right fun _ => (replaced_backed (P := fun c' => c'.entity.state = b.toInt8)
        (lt_of_cell hc) hinv.turn (Cell.turn_state ..) _).trans ?_
      rw [Cell.turn_isOn, Cell.turn_type, Cell.turn_keyexpr]
      constructor
      · rintro hz - rfl c2 hc2
        rw [hc] at hc2
        exact Option.some.inj hc2 ▸ hz rfl
      · exact fun hz hon => hz hid hon c hc
  | set_entity_keyexpr id ke =>
    obtain ⟨c, hc⟩ := hserved.full.registered _ hin
    have hinv := hserved.cells _ c hc
    refine ⟨_, execute_keyexpr_spec hin hc hinv.sound, ?_⟩
    rw [← Replaced, truthful_replaced]
    refine imp_congr_right fun _ => (replaced_backed (P := fun c' => c'.entity.keyexpr = ke)
      (lt_of_cell hc) hinv.rename (Cell.rename_keyexpr ..) _).trans ?_
    rw [Cell.rename_isOn, Cell.rename_type, Cell.rename_keyexpr]
    constructor
    · rintro hz c2 hc2
      rw [hc] at hc2
      exact Option.some.inj hc2 ▸ hz
    · exact fun hz => hz c hc
  | list_entities_req => exact hin.elim
  | set_entity_config id config => exact hin.elim

/-- A command is carried out and answered truthfully exactly when it does not undeclare a handle that
was never written, and no status can be sent or it does not leave the entity on with a keyexpr that
Zenoh refuses. -/
theorem truthful_iff_keyexpr_taken (hreach : Reachable z s info) {cmd : Command}
    (hin : InRange info cmd) :
    (∃ res, execute z s cmd info = .ok res ∧ Truthful s cmd info res) ↔
      ¬ cmd.BadHandle info ∧
        (s.Fits (statusCmd ZDC_STATUS_OK) info.buff_size.toNat → LeavesTaken z cmd info) := by
  have hserved := hreach.served
  by_cases hbad : cmd.BadHandle info
  · refine iff_of_false ?_ fun h => h.1 hbad
    rintro ⟨res, hres, -⟩
    rw [execute_badHandle hserved.full.toWF hbad] at hres
    cases hres
  · obtain ⟨res, hres, hiff⟩ := truthful_iff (s := s) hserved hin hbad
    rw [← hiff]
    constructor
    · rintro ⟨res', hres', htruthful⟩
      rw [hres] at hres'
      cases hres'
      exact ⟨hbad, htruthful⟩
    · exact fun h => ⟨res, hres, h.2⟩

theorem truthful_renamed : ∃ info, Reachable World.noEmptyChunk World.stack info ∧
    ∃ res, execute World.noEmptyChunk World.stack (.set_entity_keyexpr 1 (World.str [0x62])) info = .ok res ∧
      Truthful World.stack (.set_entity_keyexpr 1 (World.str [0x62])) info res := by
  obtain ⟨info, hsetup, h⟩ := setup_started World.noEmptyChunk 64 (World.str [0x7a])
    [.sub true (World.str [0x61]) none (.application 0)] (by decide)
  have hin : InRange info (.set_entity_keyexpr 1 (World.str [0x62])) := by
    rw [InRange, Result.of_map (f := zdc_info_t.el_size) (b := 2) hsetup rfl]
    decide
  refine ⟨info, .start h, (truthful_iff_keyexpr_taken (.start h) hin).mpr ⟨id, fun _ => ?_⟩⟩
  rintro _ - - _ -
  decide

/-- The keyexpr `a//b` for a subscriber that is on is acknowledged, and nothing is declared. -/
theorem refused_keyexpr_acknowledged : ∃ info info' c,
    setup World.noEmptyChunk 1 64 (World.str [0x7a])
      [.sub true (World.str [0x61]) none (.application 0)] = .ok info ∧
    execute World.noEmptyChunk World.stack
      (.set_entity_keyexpr 1 (World.str [0x61, 0x2f, 0x2f, 0x62])) info = .ok (true, info') ∧
    info'.reply = World.stack.wire (statusCmd ZDC_STATUS_OK) ∧
    info'.cell 1 = some c ∧ c.entity.type = .ZDC_TYPE_SUB ∧ c.entity.isOn ∧ c.live = 0 :=
  ⟨_, _, _, rfl, rfl, rfl, rfl, rfl, by decide, rfl⟩

end ZdcPoc.B
