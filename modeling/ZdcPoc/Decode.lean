import ZdcPoc.Code.MainA
import ZdcPoc.Code.MainB
import ZdcPoc.World

/-!
# Decoding after a history

Each bridge copies an attribute into a union that it never clears. A number of two bytes that
arrives in one byte keeps the high byte that an earlier command left.
-/

namespace ZdcPoc

open Bytes

/-! ## The two directions -/

inductive Side where
  | toA
  | toB
deriving DecidableEq, Repr

namespace Side

def sends : Side → List zdc_cmd_names
  | toA => [.LIST_ENTITIES_RESP, .CMD_STATUS]
  | toB => [.SET_ENTITY_STATE, .SET_ENTITY_KEYEXPR, .SET_ENTITY_CONFIG]

def fill (s : LcsfStack) : Side → zdc_cmd_names → Option zdc_cmd_payload_t →
    Option (Option (List lcsf_valid_att_t))
  | toA => B.LCSF_Bridge_zdcFillCmdAtt s
  | toB => A.LCSF_Bridge_zdcFillCmdAtt s

def get : Side → zdc_cmd_names → Option (List lcsf_valid_att_t) → zdc_cmd_payload_t →
    Result zdc_cmd_payload_t
  | toA => A.LCSF_Bridge_zdcGetCmdData
  | toB => B.LCSF_Bridge_zdcGetCmdData

def getCmd (side : Side) (cmd : lcsf_valid_cmd_t) (p : zdc_cmd_payload_t) : Result zdc_cmd_payload_t :=
  side.get (LCSF_Bridge_zdc_CMDID2CMDNAME cmd.CmdId) cmd.pAttArray p

def received (side : Side) : List lcsf_valid_cmd_t → zdc_cmd_payload_t → Result zdc_cmd_payload_t
  | [], p => pure p
  | cmd :: cmds, p => do
    let p ← side.getCmd cmd p
    side.received cmds p

def wideOffset : Side → Nat
  | toA => 16
  | toB => 0

def wideAtt : Side → zdc_cmd_names → Option Nat
  | toA, .LIST_ENTITIES_RESP => some 1
  | toB, .SET_ENTITY_STATE => some 0
  | toB, .SET_ENTITY_KEYEXPR => some 0
  | toB, .SET_ENTITY_CONFIG => some 0
  | _, _ => none

def wideBytes (side : Side) (cmd : lcsf_valid_cmd_t) : Option (List UInt8) := do
  let i ← side.wideAtt (LCSF_Bridge_zdc_CMDID2CMDNAME cmd.CmdId)
  let atts ← cmd.pAttArray
  let a ← atts[i]?
  return a.pData

def highAfter (side : Side) (high : Nat) (cmd : lcsf_valid_cmd_t) : Nat :=
  match side.wideBytes cmd with
  | some bs => highByte high bs
  | none => high

/-- The high byte of the last number that came in two bytes, 0 if none did. -/
def lastHigh (side : Side) (history : List lcsf_valid_cmd_t) : Nat := history.foldl side.highAfter 0

end Side

/-- The value of a command that may need two bytes. -/
def wideValue : zdc_cmd_names → zdc_cmd_payload_t → Option Nat
  | .SET_ENTITY_STATE, p => some p.entity_id
  | .SET_ENTITY_KEYEXPR, p => some p.entity_id
  | .SET_ENTITY_CONFIG, p => some p.entity_id
  | .LIST_ENTITIES_RESP, p => some p.entity_nb
  | _, _ => none

/-- The integer attributes of a command are the same in both payloads. -/
def SameValues : zdc_cmd_names → zdc_cmd_payload_t → zdc_cmd_payload_t → Prop
  | .SET_ENTITY_STATE, p, q => p.entity_id = q.entity_id ∧ p.state = q.state
  | .SET_ENTITY_KEYEXPR, p, q => p.entity_id = q.entity_id
  | .SET_ENTITY_CONFIG, p, q => p.entity_id = q.entity_id
  | .LIST_ENTITIES_RESP, p, q => p.entity_nb = q.entity_nb
  | .CMD_STATUS, p, q => p.status_value = q.status_value
  | .LIST_ENTITIES_REQ, _, _ => True

theorem receive_toB (z : Zenoh) (s : LcsfStack) (cmd : lcsf_valid_cmd_t) (node : B.node_t) :
    B.LCSF_Bridge_zdcReceive z s cmd node = (do
      let p ← Side.toB.getCmd cmd node.CmdPayload
      let (status, zdcInfo) ← B.zdc_MainExecute z s (LCSF_Bridge_zdc_CMDID2CMDNAME cmd.CmdId)
        (some p) node.zdcInfo
      return (status, ⟨zdcInfo, p⟩)) := rfl

theorem receive_toA (cmd : lcsf_valid_cmd_t) (CmdPayload : zdc_cmd_payload_t) :
    A.LCSF_Bridge_zdcReceive cmd CmdPayload = (do
      let p ← Side.toA.getCmd cmd CmdPayload
      let status ← A.zdc_MainExecute (LCSF_Bridge_zdc_CMDID2CMDNAME cmd.CmdId) (some p)
      return (status, p)) := rfl

/-! ## One attribute -/

variable {side : Side} {p : zdc_cmd_payload_t} {a : lcsf_valid_att_t} {t : lcsf_data_type}

theorem conforms_size (h : a.conforms t = true) : a.PayloadSize = some a.pData.length := by
  unfold lcsf_valid_att_t.conforms at h
  rw [Bool.and_eq_true, beq_iff_eq] at h
  exact h.1

theorem conforms_uint16 (h : a.conforms .LCSF_UINT16 = true) : a.pData.length ≤ 2 := by
  unfold lcsf_valid_att_t.conforms at h
  rw [Bool.and_eq_true, decide_eq_true_eq] at h
  exact h.2

theorem conforms_uint8 (h : a.conforms .LCSF_UINT8 = true) : a.pData.length ≤ 1 := by
  unfold lcsf_valid_att_t.conforms at h
  rw [Bool.and_eq_true, decide_eq_true_eq] at h
  exact h.2

theorem copyAtt_conforms (h : a.conforms t = true) (off : Nat) :
    copyAtt a off p = { p with bytes := p.bytes.write off a.pData } := by
  rw [copyAtt, conforms_size h, Option.getD_some, List.take_length]

theorem copyAtt_number (p : zdc_cmd_payload_t) (m : Mem) (off n off' : Nat) (hn : n ≠ 0)
    (ht : t ≠ .LCSF_STRING) :
    copyAtt (lcsf_valid_att_t.carried t ⟨some (minWidth (m.num off n)), m.read off n⟩) off' p =
      { p with bytes := p.bytes.setMin off' (m.num off n) } := by
  have hle : minWidth (m.num off n) ≤ n := minWidth_le hn (num_lt m off n)
  have hread : m.read off n = leBytes n (m.num off n) := read_of_num rfl
  have hdata : (m.read off n).take (minWidth (m.num off n)) =
      leBytes (minWidth (m.num off n)) (m.num off n) := by
    rw [hread, leBytes_take _ _ _ hle]
  cases t with
  | LCSF_STRING => exact absurd rfl ht
  | _ =>
    simp only [copyAtt, lcsf_valid_att_t.carried, Option.getD_some, hdata, List.take_length]
    rfl

/-! ## A history of commands -/

inductive WellFormed : lcsf_valid_cmd_t → Prop
  | list_entities_req : WellFormed ⟨0x0, none⟩
  | list_entities_resp (a b : lcsf_valid_att_t) : a.conforms .LCSF_BYTE_ARRAY = true →
      b.conforms .LCSF_UINT16 = true → WellFormed ⟨0x1, some [a, b]⟩
  | set_entity_state (a b : lcsf_valid_att_t) : a.conforms .LCSF_UINT16 = true →
      b.conforms .LCSF_UINT8 = true → WellFormed ⟨0x2, some [a, b]⟩
  | set_entity_keyexpr (a b : lcsf_valid_att_t) : a.conforms .LCSF_UINT16 = true →
      b.conforms .LCSF_STRING = true → WellFormed ⟨0x3, some [a, b]⟩
  | set_entity_config (a b : lcsf_valid_att_t) : a.conforms .LCSF_UINT16 = true →
      b.conforms .LCSF_BYTE_ARRAY = true → WellFormed ⟨0x4, some [a, b]⟩
  | cmd_status (a : lcsf_valid_att_t) : a.conforms .LCSF_UINT8 = true → WellFormed ⟨0x5, some [a]⟩

theorem wellFormed_of_conforms {cmd : lcsf_valid_cmd_t} (h : cmd.conforms = true) : WellFormed cmd := by
  obtain ⟨id, atts⟩ := cmd
  rcases lcsf_valid_cmd_t.conforms_cases h with ⟨hdesc, hnull⟩ | ⟨types, as, hdesc, hatts, hne, hlen, hall⟩
  · simp only at hdesc hnull
    subst hnull
    unfold LCSF_zdc_ProtDesc at hdesc
    split at hdesc <;> cases hdesc
    exact .list_entities_req
  simp only at hdesc hatts
  subst hatts
  have htwo : ∀ t u, types = [t, u] →
      ∃ a b, as = [a, b] ∧ a.conforms t = true ∧ b.conforms u = true := by
    rintro t u rfl
    obtain ⟨a, b, rfl⟩ := List.length_eq_two.mp hlen.symm
    exact ⟨a, b, rfl, hall (t, a) (by simp), hall (u, b) (by simp)⟩
  unfold LCSF_zdc_ProtDesc at hdesc
  split at hdesc <;> cases hdesc
  · exact absurd rfl hne
  · obtain ⟨a, b, rfl, ha, hb⟩ := htwo _ _ rfl
    exact .list_entities_resp a b ha hb
  · obtain ⟨a, b, rfl, ha, hb⟩ := htwo _ _ rfl
    exact .set_entity_state a b ha hb
  · obtain ⟨a, b, rfl, ha, hb⟩ := htwo _ _ rfl
    exact .set_entity_keyexpr a b ha hb
  · obtain ⟨a, b, rfl, ha, hb⟩ := htwo _ _ rfl
    exact .set_entity_config a b ha hb
  · obtain ⟨a, rfl⟩ := List.length_eq_one_iff.mp hlen.symm
    exact .cmd_status a (hall (_, a) (by simp))

theorem getCmd_spec {cmd : lcsf_valid_cmd_t} (h : WellFormed cmd) (side : Side)
    (p : zdc_cmd_payload_t) :
    ∃ p', side.getCmd cmd p = .ok p' ∧ p'.bytes.num side.wideOffset 2 / 256 =
      side.highAfter (p.bytes.num side.wideOffset 2 / 256) cmd := by
  cases side <;> cases h
  case toA.list_entities_resp a b ha hb =>
    refine ⟨copyAtt b 16 (p.set_ptr a.pData), rfl, ?_⟩
    rw [copyAtt_conforms hb]
    exact num_write_high p.bytes 16 b.pData (conforms_uint16 hb)
  case toA.cmd_status a ha =>
    refine ⟨copyAtt a 0 p, rfl, ?_⟩
    have hlen := conforms_uint8 ha
    rw [copyAtt_conforms ha]
    exact congrArg (· / 256) (num_write_disjoint p.bytes 0 a.pData 16 2 (Or.inr (by omega)))
  case toB.set_entity_state a b ha hb =>
    refine ⟨copyAtt b 2 (copyAtt a 0 p), rfl, ?_⟩
    rw [copyAtt_conforms ha, copyAtt_conforms hb]
    have hstate := num_write_disjoint (p.bytes.write 0 a.pData) 2 b.pData 0 2 (Or.inl (le_refl _))
    exact (congrArg (· / 256) hstate).trans (num_write_high p.bytes 0 a.pData (conforms_uint16 ha))
  case toB.set_entity_keyexpr a b ha hb =>
    refine ⟨(copyAtt a 0 p).set_ptr b.pData, rfl, ?_⟩
    rw [copyAtt_conforms ha]
    exact num_write_high p.bytes 0 a.pData (conforms_uint16 ha)
  case toB.set_entity_config a b ha hb =>
    refine ⟨(copyAtt a 0 p).set_ptr b.pData, rfl, ?_⟩
    rw [copyAtt_conforms ha]
    exact num_write_high p.bytes 0 a.pData (conforms_uint16 ha)
  all_goals exact ⟨p, rfl, rfl⟩

theorem received_spec (side : Side) (history : List lcsf_valid_cmd_t)
    (h : ∀ cmd ∈ history, cmd.conforms = true) (p : zdc_cmd_payload_t) :
    ∃ p', side.received history p = .ok p' ∧ p'.bytes.num side.wideOffset 2 / 256 =
      history.foldl side.highAfter (p.bytes.num side.wideOffset 2 / 256) := by
  induction history generalizing p with
  | nil => exact ⟨p, rfl, rfl⟩
  | cons cmd cmds ih =>
    obtain ⟨mid, hmid, hhigh⟩ := getCmd_spec (wellFormed_of_conforms (h cmd List.mem_cons_self)) side p
    obtain ⟨p', hp', hlast⟩ := ih (fun c hc => h c (List.mem_cons_of_mem _ hc)) mid
    exact ⟨p', by rw [Side.received, hmid, ok_bind, hp'], by rw [hlast, hhigh, List.foldl_cons]⟩

/-! ## The next command -/

/-- The command that the sender's bridge fills in, as the receiver gets it. -/
def Side.sent (s : LcsfStack) (side : Side) (name : zdc_cmd_names) (q : zdc_cmd_payload_t) :
    Option lcsf_valid_cmd_t :=
  (side.fill s name (some q)).map fun atts =>
    lcsf_valid_cmd_t.carried ⟨LCSF_Bridge_zdc_CMDNAME2CMDID name, atts⟩

def decodedBytes (name : zdc_cmd_names) (q : zdc_cmd_payload_t) (m : Mem) : Mem :=
  match name with
  | .SET_ENTITY_STATE => (m.setMin 0 q.entity_id).setMin 2 q.state
  | .SET_ENTITY_KEYEXPR => m.setMin 0 q.entity_id
  | .SET_ENTITY_CONFIG => m.setMin 0 q.entity_id
  | .LIST_ENTITIES_RESP => m.setMin 16 q.entity_nb
  | .CMD_STATUS => m.setMin 0 q.status_value
  | .LIST_ENTITIES_REQ => m

theorem next_bytes (s : LcsfStack) (side : Side) {name : zdc_cmd_names} (hname : name ∈ side.sends)
    (p q : zdc_cmd_payload_t) :
    ∃ cmd p', side.sent s name q = some cmd ∧ side.getCmd cmd p = .ok p' ∧
      p'.bytes = decodedBytes name q p.bytes := by
  have hcopy := fun (t : lcsf_data_type) (ht : t ≠ .LCSF_STRING) (p : zdc_cmd_payload_t)
    (off n off' : Nat) (hn : n ≠ 0) => copyAtt_number p q.bytes off n off' hn ht
  have hid := hcopy .LCSF_UINT16 (by decide) p 0 2 0 (by decide)
  unfold Side.sent
  cases side with
  | toB =>
    simp only [Side.sends, List.mem_cons, List.not_mem_nil, or_false] at hname
    simp only [Side.fill, A.LCSF_Bridge_zdcFillCmdAtt_some, Option.map_some]
    rcases hname with rfl | rfl | rfl
    · refine ⟨_, copyAtt _ 2 (copyAtt _ 0 p), rfl, rfl, ?_⟩
      rw [zdc_cmd_payload_t.entity_id, zdc_cmd_payload_t.state, hid,
        hcopy .LCSF_UINT8 (by decide) _ 2 1 2 (by decide)]
      rfl
    · refine ⟨_, (copyAtt _ 0 p).set_ptr _, rfl, rfl, ?_⟩
      rw [zdc_cmd_payload_t.entity_id, hid]
      rfl
    · refine ⟨_, (copyAtt _ 0 p).set_ptr _, rfl, rfl, ?_⟩
      rw [zdc_cmd_payload_t.entity_id, hid]
      rfl
  | toA =>
    simp only [Side.sends, List.mem_cons, List.not_mem_nil, or_false] at hname
    simp only [Side.fill, B.LCSF_Bridge_zdcFillCmdAtt_some, Option.map_some]
    rcases hname with rfl | rfl
    · refine ⟨_, copyAtt _ 16 (p.set_ptr _), rfl, rfl, ?_⟩
      rw [zdc_cmd_payload_t.entity_nb, hcopy .LCSF_UINT16 (by decide) _ 16 2 16 (by decide)]
      rfl
    · refine ⟨_, copyAtt _ 0 p, rfl, rfl, ?_⟩
      rw [zdc_cmd_payload_t.status_value, hcopy .LCSF_UINT8 (by decide) _ 0 1 0 (by decide)]
      rfl

theorem sameValues_iff (side : Side) {name : zdc_cmd_names} (hname : name ∈ side.sends)
    {p p' q : zdc_cmd_payload_t} (h : p'.bytes = decodedBytes name q p.bytes) :
    SameValues name p' q ↔
      ∀ v, wideValue name q = some v → 256 ≤ v ∨ p.bytes.num side.wideOffset 2 / 256 = 0 := by
  have hid := num_setMin_two p.bytes 0 q.entity_id (num_lt q.bytes 0 2)
  cases side with
  | toB =>
    simp only [Side.sends, List.mem_cons, List.not_mem_nil, or_false] at hname
    rcases hname with rfl | rfl | rfl <;>
      simp only [wideValue, Option.some.injEq, forall_eq', Side.wideOffset, ← hid]
    · have hfar := num_write_disjoint (p.bytes.setMin 0 q.entity_id) 2
        (leBytes (minWidth q.state) q.state) 0 2 (Or.inl (le_refl _))
      have hst := num_setMin_one (p.bytes.setMin 0 q.entity_id) 2 q.state (num_lt q.bytes 2 1)
      have hentity : p'.entity_id = (p.bytes.setMin 0 q.entity_id).num 0 2 := by
        rw [zdc_cmd_payload_t.entity_id, h]
        exact hfar
      have hstate : p'.state = q.state := by
        rw [zdc_cmd_payload_t.state, h]
        exact hst
      rw [SameValues, hentity]
      exact and_iff_left hstate
    · rw [SameValues, zdc_cmd_payload_t.entity_id, h]
      rfl
    · rw [SameValues, zdc_cmd_payload_t.entity_id, h]
      rfl
  | toA =>
    simp only [Side.sends, List.mem_cons, List.not_mem_nil, or_false] at hname
    rcases hname with rfl | rfl
    · simp only [wideValue, Option.some.injEq, forall_eq', Side.wideOffset,
        ← num_setMin_two p.bytes 16 q.entity_nb (num_lt q.bytes 16 2)]
      rw [SameValues, zdc_cmd_payload_t.entity_nb, h]
      rfl
    · refine iff_of_true ?_ (by rintro v ⟨⟩)
      rw [SameValues, zdc_cmd_payload_t.status_value, h]
      exact num_setMin_one p.bytes 0 q.status_value (num_lt q.bytes 0 1)

/-- The next command decodes to the values that were sent exactly when its two-byte number comes in
two bytes, or the last one that did had a high byte of 0. -/
theorem decodes_sent_iff (s : LcsfStack) (side : Side) (history : List lcsf_valid_cmd_t)
    (h : ∀ cmd ∈ history, cmd.conforms = true) {name : zdc_cmd_names} (hname : name ∈ side.sends)
    (q : zdc_cmd_payload_t) :
    ∃ p cmd p', side.received history .zero = .ok p ∧ side.sent s name q = some cmd ∧
      side.getCmd cmd p = .ok p' ∧
      (SameValues name p' q ↔
        ∀ v, wideValue name q = some v → 256 ≤ v ∨ side.lastHigh history = 0) := by
  obtain ⟨p, hp, hhigh⟩ := received_spec side history h .zero
  obtain ⟨cmd, p', hcmd, hget, hbytes⟩ := next_bytes s side hname p q
  refine ⟨p, cmd, p', hp, hcmd, hget, ?_⟩
  have hzero : zdc_cmd_payload_t.zero.bytes.num side.wideOffset 2 / 256 = 0 := by
    cases side <;> rfl
  rw [sameValues_iff side hname hbytes, hhigh, hzero, Side.lastHigh]

/-- Three commands for entities above 255 before one for entity 300. -/
theorem decodes_sent_wide : ∃ history p cmd p',
    history = [⟨0x2, some [⟨some 2, [0x2c, 1]⟩, ⟨some 1, [1]⟩]⟩,
      ⟨0x3, some [⟨some 2, [0, 2]⟩, ⟨some 2, [0x61, 0]⟩]⟩, ⟨0x4, some [⟨some 2, [7, 1]⟩, ⟨some 1, [9]⟩]⟩] ∧
    Side.toB.received history .zero = .ok p ∧
    Side.toB.sent World.stack .SET_ENTITY_STATE (zdc_cmd_payload_t.zero.set_entity_id 300) = some cmd ∧
    Side.toB.getCmd cmd p = .ok p' ∧
    SameValues .SET_ENTITY_STATE p' (zdc_cmd_payload_t.zero.set_entity_id 300) := by
  have hname : zdc_cmd_names.SET_ENTITY_STATE ∈ Side.toB.sends := by decide
  obtain ⟨p, cmd, p', hp, hcmd, hget, hiff⟩ := decodes_sent_iff World.stack .toB
    [⟨0x2, some [⟨some 2, [0x2c, 1]⟩, ⟨some 1, [1]⟩]⟩,
      ⟨0x3, some [⟨some 2, [0, 2]⟩, ⟨some 2, [0x61, 0]⟩]⟩, ⟨0x4, some [⟨some 2, [7, 1]⟩, ⟨some 1, [9]⟩]⟩]
    (by decide) hname (zdc_cmd_payload_t.zero.set_entity_id 300)
  refine ⟨_, p, cmd, p', rfl, hp, hcmd, hget, hiff.mpr ?_⟩
  rintro _ ⟨⟩
  exact Or.inl (by decide)

/-- A state for entity 1 is taken for one of entity 257 when entity 256 was named before. -/
theorem narrow_id_after_wide : ∃ first next p p',
    Side.toB.sent World.stack .SET_ENTITY_STATE (zdc_cmd_payload_t.zero.set_entity_id 256) = some first ∧
    Side.toB.sent World.stack .SET_ENTITY_STATE (zdc_cmd_payload_t.zero.set_entity_id 1) = some next ∧
    first.conforms = true ∧ Side.toB.received [first] .zero = .ok p ∧
    Side.toB.getCmd next p = .ok p' ∧ p'.entity_id = 257 :=
  ⟨_, _, _, _, rfl, rfl, by decide, rfl, rfl, by decide⟩

end ZdcPoc
