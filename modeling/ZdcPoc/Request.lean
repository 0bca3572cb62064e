import ZdcPoc.Command
import ZdcPoc.Decode

/-!
# Requests of the controller

The controller encodes a request, and the node's bridge decodes it. It comes out as the command that
was asked for when no earlier command has left a high byte in the id.
-/

namespace ZdcPoc

open Bytes

inductive Request where
  | state (eid : UInt8) (on : Bool)
  | keyexpr (eid : UInt8) (suffix : CString)
deriving DecidableEq, Repr

namespace Request

def eid : Request → UInt8
  | state eid _ => eid
  | keyexpr eid _ => eid

def encode (s : LcsfStack) : Request → A.zdc_info_t → Result (Option (List UInt8) × A.zdc_info_t)
  | state eid on => A.zdc_encode_state s eid (if on then 1 else 0)
  | keyexpr eid suffix => A.zdc_encode_keyexpr s eid suffix

def command : Request → B.Command
  | state eid on => .set_entity_state eid.toUInt16 (if on then 1 else 0)
  | keyexpr eid suffix => .set_entity_keyexpr eid.toUInt16 suffix

/-- The payload that the controller fills in, over what an earlier request left in it. -/
def payload (p : zdc_cmd_payload_t) : Request → zdc_cmd_payload_t
  | state eid on => (p.set_entity_id eid.toUInt16).set_state (if on then 1 else 0)
  | keyexpr eid suffix => (p.set_entity_id eid.toUInt16).set_ptr suffix.bytes

variable {s : LcsfStack} {a a' : A.zdc_info_t} {msg : List UInt8} {r : Request}

/-! ## Encoding -/

theorem encode_eq (r : Request) (a : A.zdc_info_t) : r.encode s a =
    A.out (A.zdcSendCommand s r.command.name true
      { a with SendCmdPayload := r.payload a.SendCmdPayload }) := by
  cases r <;> rfl

/-- The message that the controller's bridge fills in. -/
def lcsf : Request → lcsf_valid_cmd_t
  | state eid on => ⟨0x2, some [⟨some 1, [eid, 0]⟩, ⟨some 1, [if on then 1 else 0]⟩]⟩
  | keyexpr eid suffix => ⟨0x3, some [⟨some 1, [eid, 0]⟩, ⟨none, suffix.bytes⟩]⟩

theorem payload_entity_id (r : Request) (q : zdc_cmd_payload_t) :
    (r.payload q).entity_id = r.eid.toNat := by
  have hid := B.set_entity_id_entity_id q r.eid.toUInt16
  rw [UInt8.toNat_toUInt16] at hid
  cases r with
  | state eid on => exact (B.set_state_entity_id _ _).trans hid
  | keyexpr eid suffix => exact hid

theorem fill_lcsf (s : LcsfStack) (r : Request) (q : zdc_cmd_payload_t) :
    A.LCSF_Bridge_zdcFillCmdAtt s r.command.name (some (r.payload q)) = some r.lcsf.pAttArray := by
  have hid := r.payload_entity_id q
  have hwidth : minWidth r.eid.toNat = 1 := minWidth_of_lt r.eid.toNat_lt
  have hread : (r.payload q).bytes.read 0 2 = [r.eid, 0] := by
    rw [read_of_num hid, leBytes, leBytes, leBytes, UInt8.ofNat_toNat, Nat.div_eq_of_lt r.eid.toNat_lt]
    rfl
  cases r with
  | state eid on =>
    have hst := B.set_state_state (q.set_entity_id eid.toUInt16) (if on then 1 else 0)
    have hstwidth : minWidth (if on then 1 else 0 : UInt8).toNat = 1 := minWidth_of_lt (UInt8.toNat_lt _)
    have hstread := read_of_num hst
    rw [leBytes, leBytes, UInt8.ofNat_toNat] at hstread
    simp only [command, B.Command.name, A.LCSF_Bridge_zdcFillCmdAtt_some, hid, hwidth, hread]
    simp only [payload, hst, hstwidth, hstread]
    rfl
  | keyexpr eid suffix =>
    simp only [command, B.Command.name, A.LCSF_Bridge_zdcFillCmdAtt_some, hid, hwidth, hread]
    rfl

theorem send_cases (name : zdc_cmd_names) (atts : Option (List lcsf_valid_att_t)) (hasPayload : Bool)
    (a : A.zdc_info_t) (hfill : A.LCSF_Bridge_zdcFillCmdAtt s name (if hasPayload then some a.SendCmdPayload else none) =
      some atts) :
    (¬ s.Fits ⟨LCSF_Bridge_zdc_CMDNAME2CMDID name, atts⟩ A.ZDC_SEND_BUFF_SIZE ∧
      (A.zdcSendCommand s name hasPayload a).1 = false) ∨
    ∃ msg, s.wire ⟨LCSF_Bridge_zdc_CMDNAME2CMDID name, atts⟩ = some msg ∧ msg ≠ [] ∧
      msg.length ≤ A.ZDC_SEND_BUFF_SIZE ∧
      A.zdcSendCommand s name hasPayload a = (true, { a with
        SendBuffer := Block.ofBytes msg ++ a.SendBuffer.drop msg.length
        curr_size := UInt16.ofNat msg.length }) := by
  unfold A.zdcSendCommand A.LCSF_Bridge_zdcEncode
  simp only [hfill]
  by_cases hfit : s.Fits ⟨LCSF_Bridge_zdc_CMDNAME2CMDID name, atts⟩ A.ZDC_SEND_BUFF_SIZE
  · obtain ⟨msg, hwire, hne, hlen⟩ := id hfit
    have hpos := List.length_pos_of_ne_nil hne
    refine Or.inr ⟨msg, hwire, hne, hlen, ?_⟩
    simp only [LcsfStack.LCSF_ValidatorEncode, hwire, if_pos hlen]
    rw [if_neg (by omega), Int.toNat_natCast]
  · refine Or.inl ⟨hfit, ?_⟩
    rcases s.encode_cases ⟨LCSF_Bridge_zdc_CMDNAME2CMDID name, atts⟩ a.SendBuffer A.ZDC_SEND_BUFF_SIZE with
      ⟨msg, hwire, hlen, he⟩ | he
    · obtain rfl : msg = [] := by
        by_contra hne
        exact hfit ⟨msg, hwire, hne, hlen⟩
      simp only [he]
      rfl
    · simp only [he]
      rfl

theorem out_cases (name : zdc_cmd_names) (atts : Option (List lcsf_valid_att_t)) (hasPayload : Bool)
    (a : A.zdc_info_t) (hfill : A.LCSF_Bridge_zdcFillCmdAtt s name (if hasPayload then some a.SendCmdPayload else none) =
      some atts) :
    (¬ s.Fits ⟨LCSF_Bridge_zdc_CMDNAME2CMDID name, atts⟩ A.ZDC_SEND_BUFF_SIZE ∧
      ∃ a', A.out (A.zdcSendCommand s name hasPayload a) = .ok (none, a')) ∨
    ∃ msg a', s.wire ⟨LCSF_Bridge_zdc_CMDNAME2CMDID name, atts⟩ = some msg ∧ msg ≠ [] ∧
      msg.length ≤ A.ZDC_SEND_BUFF_SIZE ∧ A.out (A.zdcSendCommand s name hasPayload a) = .ok (some msg, a') := by
  rcases send_cases (s := s) name atts hasPayload a hfill with ⟨hfit, hfail⟩ | ⟨msg, hwire, hne, hlen, hsend⟩
  · refine Or.inl ⟨hfit, (A.zdcSendCommand s name hasPayload a).2, ?_⟩
    rw [A.out, hfail]
    rfl
  · have hsize : (UInt16.ofNat msg.length).toNat = msg.length := by
      have : A.ZDC_SEND_BUFF_SIZE = 128 := rfl
      rw [UInt16.toNat_ofNat']
      omega
    refine Or.inr ⟨msg, (A.zdcSendCommand s name hasPayload a).2, hwire, hne, hlen, ?_⟩
    rw [hsend]
    simp only [A.out, if_true, hsize, Block.read_ofBytes, orFault_some, ok_bind]
    rfl

theorem encode_cases (r : Request) (a : A.zdc_info_t) :
    (¬ s.Fits r.lcsf A.ZDC_SEND_BUFF_SIZE ∧ ∃ a', r.encode s a = .ok (none, a')) ∨
    ∃ msg a', s.wire r.lcsf = some msg ∧ msg ≠ [] ∧ msg.length ≤ A.ZDC_SEND_BUFF_SIZE ∧
      r.encode s a = .ok (some msg, a') := by
  have hcmd : (⟨LCSF_Bridge_zdc_CMDNAME2CMDID r.command.name, r.lcsf.pAttArray⟩ : lcsf_valid_cmd_t) =
      r.lcsf := by cases r <;> rfl
  have := out_cases (s := s) _ _ true { a with SendCmdPayload := r.payload a.SendCmdPayload }
    (r.fill_lcsf s a.SendCmdPayload)
  rwa [hcmd, ← encode_eq] at this

theorem encode_completes (r : Request) (a : A.zdc_info_t) :
    ∃ buffer a', r.encode s a = .ok (buffer, a') := by
  rcases encode_cases (s := s) r a with ⟨-, a', h⟩ | ⟨msg, a', -, -, -, h⟩
  · exact ⟨none, a', h⟩
  · exact ⟨some msg, a', h⟩

theorem list_encode_cases (a : A.zdc_info_t) :
    (∃ a', A.zdc_encode_list_entity s a = .ok (none, a')) ∨
    ∃ msg a', s.receive msg = some ⟨0x0, none⟩ ∧ msg ≠ [] ∧
      A.zdc_encode_list_entity s a = .ok (some msg, a') := by
  rcases out_cases (s := s) .LIST_ENTITIES_REQ none false a rfl with
    ⟨-, a', h⟩ | ⟨msg, a', hwire, hne, -, h⟩
  · exact Or.inl ⟨a', h⟩
  · exact Or.inr ⟨msg, a', s.receive_wire hwire, hne, h⟩

theorem receive_encoded (h : r.encode s a = .ok (some msg, a')) :
    msg ≠ [] ∧ s.receive msg = Side.toB.sent s r.command.name (r.payload a.SendCmdPayload) := by
  rcases encode_cases (s := s) r a with ⟨-, a'', hnone⟩ | ⟨msg', a'', hwire, hne, -, hsome⟩
  · rw [h] at hnone
    cases hnone
  · rw [h] at hsome
    cases hsome
    refine ⟨hne, ?_⟩
    rw [s.receive_wire hwire, Side.sent, Side.fill, r.fill_lcsf s, Option.map_some]
    cases r <;> rfl

/-! ## Decoding -/

theorem withNul_bytes (ke : CString) : withNul ke.bytes = ke.bytes := by
  have hchars : ∀ b ∈ ke.chars, decide (b ≠ 0) = true := fun b hb =>
    decide_eq_true fun h0 => ke.nul_free (h0 ▸ hb)
  rw [withNul, CString.bytes, List.takeWhile_append_of_pos hchars]
  simp

theorem next_ptr {p p' q : zdc_cmd_payload_t} {cmd : lcsf_valid_cmd_t}
    (hcmd : Side.toB.sent s .SET_ENTITY_KEYEXPR q = some cmd) (hget : Side.toB.getCmd cmd p = .ok p') :
    p'.ptr = some (withNul (q.ptr.getD [])) := by
  rw [Side.sent, Side.fill, A.LCSF_Bridge_zdcFillCmdAtt_some] at hcmd
  cases hcmd
  cases hget
  rfl

theorem sent_name {side : Side} {name : zdc_cmd_names} {q : zdc_cmd_payload_t} {cmd : lcsf_valid_cmd_t}
    (h : side.sent s name q = some cmd) : LCSF_Bridge_zdc_CMDID2CMDNAME cmd.CmdId = name := by
  obtain ⟨atts, -, rfl⟩ := Option.map_eq_some_iff.mp h
  exact cmdname_of_cmdid name

theorem decoded (s : LcsfStack) (r : Request) {p : zdc_cmd_payload_t} (hp : p.entity_id < 256) (q : zdc_cmd_payload_t) :
    ∃ cmd p', Side.toB.sent s r.command.name (r.payload q) = some cmd ∧
      LCSF_Bridge_zdc_CMDID2CMDNAME cmd.CmdId = r.command.name ∧
      Side.toB.getCmd cmd p = .ok p' ∧ r.command.CarriedBy p' ∧ p'.entity_id < 256 := by
  have hname : r.command.name ∈ Side.toB.sends := by
    cases r <;> simp [command, B.Command.name, Side.sends]
  obtain ⟨cmd, p', hcmd, hget, hbytes⟩ := next_bytes s .toB hname p (r.payload q)
  have hsame := (sameValues_iff .toB hname hbytes).mpr fun _ _ => Or.inr (Nat.div_eq_of_lt hp)
  have hid := r.payload_entity_id q
  have heid := r.eid.toNat_lt
  refine ⟨cmd, p', hcmd, sent_name hcmd, hget, ?_⟩
  cases r with
  | state eid on =>
    obtain ⟨h1, h2⟩ := hsame
    have hst := B.set_state_state (q.set_entity_id eid.toUInt16) (if on then 1 else 0)
    refine ⟨⟨?_, h2.trans hst⟩, by rw [h1, hid]; exact heid⟩
    rw [h1, hid]
    exact (UInt8.toNat_toUInt16 eid).symm
  | keyexpr eid suffix =>
    have h1 : p'.entity_id = _ := hsame
    have hptr := next_ptr hcmd hget
    rw [payload, zdc_cmd_payload_t.set_ptr, Option.getD_some, withNul_bytes] at hptr
    refine ⟨⟨?_, ?_⟩, by rw [h1, hid]; exact heid⟩
    · rw [h1, hid]
      exact (UInt8.toNat_toUInt16 eid).symm
    · rw [B.p_keyexpr, hptr, orFault_some, ok_bind, Block.str_all, orFault_some]

end Request

end ZdcPoc
