import ZdcPoc.Decode
import ZdcPoc.Status

/-!
# One query, one reply

The reply of a query passes through the send buffer and `curr_msg_size`. Between two queries nothing
waits there, so every reply is the response of its own command.
-/

namespace ZdcPoc.B

open zdc_info_t

variable {z : Zenoh} {s : LcsfStack} {info info' : zdc_info_t} {node : node_t}

/-! ## The command of a query -/

/-- What a query hands to `zdc_MainExecute`, if anything. -/
def handed (s : LcsfStack) (query : query_t) (node : node_t) :
    Option (zdc_cmd_names × zdc_cmd_payload_t) :=
  if query.payload.length = 0 then none
  else match s.receive query.payload with
    | none => none
    | some cmd =>
      match Side.toB.getCmd cmd node.CmdPayload with
      | .ok p => some (LCSF_Bridge_zdc_CMDID2CMDNAME cmd.CmdId, p)
      | .error _ => none

def response (name : zdc_cmd_names) (p : zdc_cmd_payload_t) (info : zdc_info_t) :
    Option lcsf_valid_cmd_t :=
  match name with
  | .LIST_ENTITIES_REQ => some (listCmd info.records info.el_size.toNat)
  | .SET_ENTITY_STATE =>
    if p.entity_id < info.el_size.toNat then
      some (statusCmd (if p.entity_id = 0 then ZDC_STATUS_ERR else ZDC_STATUS_OK))
    else none
  | .SET_ENTITY_KEYEXPR | .SET_ENTITY_CONFIG =>
    if p.entity_id < info.el_size.toNat then some (statusCmd ZDC_STATUS_OK) else none
  | _ => none

/-- A `set_*` command for an entity of the table, or a list whose response fits the send buffer. -/
def CallsForReply (s : LcsfStack) (name : zdc_cmd_names) (p : zdc_cmd_payload_t) (info : zdc_info_t) :
    Prop :=
  match name with
  | .LIST_ENTITIES_REQ => s.Fits (listCmd info.records info.el_size.toNat) info.buff_size.toNat
  | .SET_ENTITY_STATE | .SET_ENTITY_KEYEXPR | .SET_ENTITY_CONFIG => p.entity_id < info.el_size.toNat
  | _ => False

structure Corresponds (s : LcsfStack) (query : query_t) (node : node_t)
    (reply : Option reply_t) (node' : node_t) : Prop where
  attempted : reply.isSome ↔ ∃ name p, handed s query node = some (name, p) ∧
    CallsForReply s name p node.zdcInfo
  bytes : ∀ rep, reply = some rep → ∃ name p rc, handed s query node = some (name, p) ∧
    response name p node.zdcInfo = some rc ∧ s.wire rc = some rep.bytes
  kept : (reply = none ∨ ∃ rep, reply = some rep ∧ s.wire (statusCmd ZDC_STATUS_ERR) = some rep.bytes) →
    node'.zdcInfo.entity_list = node.zdcInfo.entity_list ∧ node'.zdcInfo.session = node.zdcInfo.session

/-- The query hands the node this command. -/
def Hands (s : LcsfStack) (cmd : Command) (query : query_t) (node : node_t) : Prop :=
  ∃ p, handed s query node = some (cmd.name, p) ∧ cmd.CarriedBy p

/-- The query makes the node undeclare a handle that was never written. -/
def HandsBadHandle (s : LcsfStack) (query : query_t) (node : node_t) : Prop :=
  ∃ cmd, Hands s cmd query node ∧ cmd.BadHandle node.zdcInfo

/-- A query is handled, and its reply corresponds to it, if a list request fits its temporary buffer
and every handle that is undeclared was written. -/
def HandledWell (s : LcsfStack) (query : query_t) (node : node_t)
    (res : Result (Option reply_t × node_t)) : Prop :=
  (∀ p, handed s query node = some (.LIST_ENTITIES_REQ, p) →
    node.zdcInfo.records.length ≤ 64 * node.zdcInfo.el_size.toNat) →
  ¬ HandsBadHandle s query node →
  ∃ reply node', res = .ok (reply, node') ∧ Corresponds s query node reply node'

/-- Between two queries: the node serves, nothing waits to be sent, and a status fits. -/
structure Idle (z : Zenoh) (s : LcsfStack) (node : node_t) : Prop where
  served : Served z node.zdcInfo
  quiet : node.zdcInfo.curr_msg_size = 0
  fits : ∀ status, status = ZDC_STATUS_OK ∨ status = ZDC_STATUS_ERR →
    s.Fits (statusCmd status) node.zdcInfo.buff_size.toNat

/-! ## Decoded commands -/

/-- What the bridge decodes of a well-formed command is one of the node's commands, or goes in the
wrong direction. -/
theorem getCmd_command {cmd : lcsf_valid_cmd_t} (h : WellFormed cmd) (p : zdc_cmd_payload_t) :
    ∃ p', Side.toB.getCmd cmd p = .ok p' ∧
      ((∃ c : Command, c.name = LCSF_Bridge_zdc_CMDID2CMDNAME cmd.CmdId ∧ c.CarriedBy p') ∨
        LCSF_Bridge_zdc_CMDID2CMDNAME cmd.CmdId = .LIST_ENTITIES_RESP ∨
        LCSF_Bridge_zdc_CMDID2CMDNAME cmd.CmdId = .CMD_STATUS) := by
  have hid : ∀ p : zdc_cmd_payload_t, p.entity_id = (UInt16.ofNat p.entity_id).toNat := by
    intro p
    have h : p.entity_id < 256 ^ 2 := Bytes.num_lt p.bytes 0 2
    rw [UInt16.toNat_ofNat', Nat.mod_eq_of_lt (by omega)]
  have hst : ∀ p : zdc_cmd_payload_t, p.state = (UInt8.ofNat p.state).toNat := by
    intro p
    have h : p.state < 256 ^ 1 := Bytes.num_lt p.bytes 2 1
    rw [UInt8.toNat_ofNat', Nat.mod_eq_of_lt (by omega)]
  cases h with
  | list_entities_req => exact ⟨p, rfl, Or.inl ⟨.list_entities_req, rfl, trivial⟩⟩
  | list_entities_resp a b ha hb => exact ⟨p, rfl, Or.inr (Or.inl rfl)⟩
  | set_entity_state a b ha hb =>
    exact ⟨copyAtt b 2 (copyAtt a 0 p), rfl, Or.inl ⟨.set_entity_state _ _, rfl, hid _, hst _⟩⟩
  | set_entity_keyexpr a b ha hb =>
    have hnul : (0 : UInt8) ∈ b.pData := by
      unfold lcsf_valid_att_t.conforms at hb
      rw [Bool.and_eq_true, decide_eq_true_eq] at hb
      exact hb.2
    obtain ⟨ke, hke⟩ := Block.exists_str hnul
    refine ⟨(copyAtt a 0 p).set_ptr b.pData, rfl, Or.inl ⟨.set_entity_keyexpr _ ke, rfl, hid _, ?_⟩⟩
    simp only [p_keyexpr, zdc_cmd_payload_t.set_ptr, orFault_some, ok_bind, hke]
  | set_entity_config a b ha hb =>
    exact ⟨(copyAtt a 0 p).set_ptr b.pData, rfl, Or.inl ⟨.set_entity_config _ [], rfl, hid _⟩⟩
  | cmd_status a ha => exact ⟨p, rfl, Or.inr (Or.inr rfl)⟩

/-! ## What waits after a command -/

structure Silent (info info' : zdc_info_t) : Prop where
  same : SameTable info info'
  quiet : info'.curr_msg_size = 0

/-- The message of `rc` waits to be sent. Only an OK may come with a new table. -/
structure Waits (s : LcsfStack) (rc : lcsf_valid_cmd_t) (info info' : zdc_info_t) : Prop where
  fits : s.Fits rc info.buff_size.toNat
  size : info'.curr_msg_size ≠ 0
  reply : info'.reply = s.wire rc
  buff_size : info'.buff_size = info.buff_size
  same : rc ≠ statusCmd ZDC_STATUS_OK → SameTable info info'

theorem send_waits (info : zdc_info_t) {cmd : lcsf_valid_cmd_t} (h : s.Fits cmd info.buff_size.toNat) :
    (send s cmd info).2.curr_msg_size ≠ 0 ∧ (send s cmd info).2.reply = s.wire cmd := by
  obtain ⟨-, msg, hwire, hne, hsize, hreply⟩ := send_fits info h
  refine ⟨fun h0 => hne ?_, by rw [hreply, hwire]⟩
  rw [h0] at hsize
  exact List.length_eq_zero_iff.mp hsize.symm

theorem waits_status {status : UInt8} {mid : zdc_info_t} (hbuff : mid.buff_size = info.buff_size)
    (hfit : s.Fits (statusCmd status) info.buff_size.toNat)
    (hsame : statusCmd status ≠ statusCmd ZDC_STATUS_OK → SameTable info mid) :
    Waits s (statusCmd status) info (send_status s status mid).2 := by
  obtain ⟨p, hp⟩ := send_status_eq s mid status
  have hfit' : s.Fits (statusCmd status) mid.buff_size.toNat := hbuff ▸ hfit
  have hw := send_waits { mid with SendCmdPayload := p } hfit'
  have hsent := send_status_same s mid status
  rw [hp] at hsent ⊢
  exact ⟨hfit, hw.1, hw.2, hsent.buff_size.trans hbuff, fun hne => (hsame hne).trans hsent⟩

theorem silent_refused (hquiet : info.curr_msg_size = 0) : Silent info info :=
  ⟨.refl _, hquiet⟩

theorem response_set (s : LcsfStack) (info : zdc_info_t) {c : Command} {p : zdc_cmd_payload_t}
    {id : UInt16} (hid : c.entity_id = some id) (hcarried : c.CarriedBy p) :
    response c.name p info = (if id.toNat < info.el_size.toNat then some (statusCmd c.status) else none) ∧
      (CallsForReply s c.name p info ↔ id.toNat < info.el_size.toNat) := by
  cases c with
  | list_entities_req => cases hid
  | set_entity_state id b =>
    cases hid
    obtain ⟨hp, -⟩ := hcarried
    refine ⟨?_, by rw [Command.name, CallsForReply, hp]⟩
    rw [Command.name, response, hp, Command.status]
  | set_entity_keyexpr id ke =>
    cases hid
    obtain ⟨hp, -⟩ := hcarried
    exact ⟨by rw [Command.name, response, hp]; rfl, by rw [Command.name, CallsForReply, hp]⟩
  | set_entity_config id config =>
    cases hid
    have hp : p.entity_id = id.toNat := hcarried
    exact ⟨by rw [Command.name, response, hp]; rfl, by rw [Command.name, CallsForReply, hp]⟩

theorem status_or (c : Command) : c.status = ZDC_STATUS_OK ∨ c.status = ZDC_STATUS_ERR := by
  unfold Command.status
  split
  · split
    · exact Or.inr rfl
    · exact Or.inl rfl
  · exact Or.inl rfl

theorem list_waits {p : zdc_cmd_payload_t} (hf : info.Full) (hquiet : info.curr_msg_size = 0)
    (hroom : info.records.length ≤ 64 * info.el_size.toNat) :
    ∃ r info', execute z s .list_entities_req info = .ok (r, info') ∧
      ((Silent info info' ∧ ¬ CallsForReply s .LIST_ENTITIES_REQ p info) ∨
        ∃ rc, response .LIST_ENTITIES_REQ p info = some rc ∧ Waits s rc info info' ∧
          CallsForReply s .LIST_ENTITIES_REQ p info) := by
  obtain ⟨q, -, -, -, hexec⟩ := execute_list_spec (z := z) (s := s) hf hroom
  have hsame := (SameTable.payload info q).trans
    (send_same s _ (listCmd info.records info.el_size.toNat))
  refine ⟨_, _, hexec, ?_⟩
  by_cases hfit : s.Fits (listCmd info.records info.el_size.toNat) info.buff_size.toNat
  · obtain ⟨hsize, hreply⟩ := send_waits { info with SendCmdPayload := q } hfit
    exact Or.inr ⟨_, rfl, ⟨hfit, hsize, hreply, hsame.buff_size, fun _ => hsame⟩, hfit⟩
  · have hsize := (send_not_fits { info with SendCmdPayload := q } hfit).2
    exact Or.inl ⟨⟨hsame, hsize.trans hquiet⟩, hfit⟩

theorem executed_waits {c : Command} {p : zdc_cmd_payload_t} (hcarried : c.CarriedBy p)
    (hserved : Served z info) (hquiet : info.curr_msg_size = 0)
    (hfits : ∀ status, status = ZDC_STATUS_OK ∨ status = ZDC_STATUS_ERR →
      s.Fits (statusCmd status) info.buff_size.toNat)
    (hroom : c = .list_entities_req → info.records.length ≤ 64 * info.el_size.toNat)
    (hgood : ¬ c.BadHandle info) :
    ∃ r info', execute z s c info = .ok (r, info') ∧
      ((Silent info info' ∧ ¬ CallsForReply s c.name p info) ∨
        ∃ rc, response c.name p info = some rc ∧ Waits s rc info info' ∧ CallsForReply s c.name p info) := by
  have hf := hserved.full
  cases hid : c.entity_id with
  | none =>
    obtain rfl : c = .list_entities_req := by cases c <;> first | rfl | cases hid
    exact list_waits hf hquiet (hroom rfl)
  | some id =>
    obtain ⟨hresponse, hcalls⟩ := response_set s info hid hcarried
    rcases execute_set (z := z) (s := s) hf hid hgood with ⟨hge, hexec⟩ | ⟨hlt, mid, hexec, hbuff, -, hmid⟩
    · exact ⟨_, _, hexec, Or.inl ⟨silent_refused hquiet, fun h => absurd (hcalls.mp h) (by omega)⟩⟩
    · refine ⟨_, _, hexec, Or.inr ⟨statusCmd c.status, ?_, ?_, hcalls.mpr hlt⟩⟩
      · rw [hresponse, if_pos hlt]
      · refine waits_status hbuff (hfits _ (status_or c)) fun hne => ?_
        rw [hmid fun hok => hne (congrArg statusCmd hok)]
        exact .refl info

/-! ## The handler -/

theorem handler_eq {query : query_t} (hne : query.payload.length ≠ 0) {r : Bool} {mid : node_t}
    (h : LCSF_TranscoderReceive z s query.payload node = .ok (r, mid)) :
    zdc_cmd_handler z s query node =
      if mid.zdcInfo.curr_msg_size.toNat ≠ 0 then do
        let bytes ← orFault (mid.zdcInfo.pSendBuffer.read mid.zdcInfo.curr_msg_size.toNat) .badRead
        return (some ⟨bytes, query.reply_ok⟩,
          { mid with zdcInfo := { mid.zdcInfo with curr_msg_size := 0 } })
      else return (none, mid) := by
  unfold zdc_cmd_handler
  rw [if_neg hne, h]
  rfl

theorem handler_silent {query : query_t} (hne : query.payload.length ≠ 0) {r : Bool} {mid : node_t}
    (h : LCSF_TranscoderReceive z s query.payload node = .ok (r, mid))
    (hquiet : mid.zdcInfo.curr_msg_size = 0) : zdc_cmd_handler z s query node = .ok (none, mid) := by
  rw [handler_eq hne h, hquiet, if_neg (by decide)]
  rfl

theorem handler_waits {query : query_t} (hne : query.payload.length ≠ 0) {r : Bool} {mid : node_t}
    (h : LCSF_TranscoderReceive z s query.payload node = .ok (r, mid)) {rc : lcsf_valid_cmd_t}
    (hw : Waits s rc node.zdcInfo mid.zdcInfo) :
    ∃ msg, s.wire rc = some msg ∧ zdc_cmd_handler z s query node =
      .ok (some ⟨msg, query.reply_ok⟩, { mid with zdcInfo := { mid.zdcInfo with curr_msg_size := 0 } }) := by
  obtain ⟨msg, hwire, -, -⟩ := hw.fits
  have hsize : mid.zdcInfo.curr_msg_size.toNat ≠ 0 := fun h0 => hw.size (UInt16.toNat_inj.mp h0)
  have hread := hw.reply
  rw [zdc_info_t.reply, if_neg hsize, hwire] at hread
  refine ⟨msg, hwire, ?_⟩
  rw [handler_eq hne h, if_pos hsize, hread, orFault_some, ok_bind]
  rfl

theorem handler_mid {query : query_t} {reply : Option reply_t} {node' : node_t}
    (hne : query.payload.length ≠ 0) (h : zdc_cmd_handler z s query node = .ok (reply, node')) :
    ∃ r mid, LCSF_TranscoderReceive z s query.payload node = .ok (r, mid) ∧
      SameTable mid.zdcInfo node'.zdcInfo ∧ node'.zdcInfo.curr_msg_size = 0 ∧
      node'.CmdPayload = mid.CmdPayload := by
  have hrun := h
  unfold zdc_cmd_handler at hrun
  rw [if_neg hne] at hrun
  obtain ⟨⟨r, mid⟩, hmid, -⟩ := Result.bind_ok hrun
  refine ⟨r, mid, hmid, ?_⟩
  rw [handler_eq hne hmid] at h
  split at h
  · obtain ⟨bytes, -, h⟩ := Result.bind_ok h
    cases h
    exact ⟨.replied _, rfl, rfl⟩
  · rename_i hsize
    cases h
    exact ⟨.refl _, UInt16.toNat_inj.mp (not_not.mp hsize), rfl⟩

theorem handed_some {query : query_t} {name : zdc_cmd_names} {p : zdc_cmd_payload_t}
    (h : handed s query node = some (name, p)) :
    query.payload.length ≠ 0 ∧ ∃ cmd, s.receive query.payload = some cmd ∧
      Side.toB.getCmd cmd node.CmdPayload = .ok p ∧ LCSF_Bridge_zdc_CMDID2CMDNAME cmd.CmdId = name := by
  unfold handed at h
  split at h
  · cases h
  rename_i hne
  split at h
  · cases h
  rename_i cmd hreceive
  split at h
  · rename_i p' hget
    cases h
    exact ⟨hne, cmd, hreceive, hget, rfl⟩
  · cases h

theorem transcoder_eq (z : Zenoh) {query : query_t} {name : zdc_cmd_names} {p : zdc_cmd_payload_t}
    (h : handed s query node = some (name, p)) :
    LCSF_TranscoderReceive z s query.payload node = (do
      let (status, zdcInfo) ← zdc_MainExecute z s name (some p) node.zdcInfo
      return (status, ⟨zdcInfo, p⟩)) := by
  obtain ⟨-, cmd, hreceive, hget, rfl⟩ := handed_some h
  unfold LCSF_TranscoderReceive
  rw [hreceive]
  simp only [receive_toB, hget, ok_bind]

theorem handler_cases {query : query_t} {reply : Option reply_t} {node' : node_t}
    (h : zdc_cmd_handler z s query node = .ok (reply, node')) :
    (handed s query node = none ∧ SameTable node.zdcInfo node'.zdcInfo) ∨
    ∃ name p r info', handed s query node = some (name, p) ∧
      zdc_MainExecute z s name (some p) node.zdcInfo = .ok (r, info') ∧
      SameTable info' node'.zdcInfo := by
  by_cases hne : query.payload.length = 0
  · unfold zdc_cmd_handler at h
    rw [if_pos hne] at h
    cases h
    exact Or.inl ⟨if_pos hne, .refl _⟩
  obtain ⟨r, mid, hmid, hsame, -, -⟩ := handler_mid hne h
  unfold handed
  rw [if_neg hne]
  unfold LCSF_TranscoderReceive at hmid
  cases hreceive : s.receive query.payload with
  | none =>
    rw [hreceive] at hmid
    cases hmid
    exact Or.inl ⟨rfl, hsame⟩
  | some cmd =>
    simp only [hreceive, receive_toB] at hmid
    obtain ⟨p, hget, hmid⟩ := Result.bind_ok hmid
    obtain ⟨⟨r', info'⟩, hexec, hmid⟩ := Result.bind_ok hmid
    cases hmid
    simp only [hget]
    exact Or.inr ⟨_, p, r', info', rfl, hexec, hsame⟩

theorem handed_command {query : query_t} {name : zdc_cmd_names} {p : zdc_cmd_payload_t}
    (h : handed s query node = some (name, p)) :
    (∃ c : Command, c.name = name ∧ c.CarriedBy p) ∨
      name = .LIST_ENTITIES_RESP ∨ name = .CMD_STATUS := by
  obtain ⟨-, cmd, hreceive, hget, rfl⟩ := handed_some h
  obtain ⟨p', hget', hcommand⟩ := getCmd_command
    (wellFormed_of_conforms (s.receive_conforms hreceive)) node.CmdPayload
  rw [hget] at hget'
  cases hget'
  exact hcommand

theorem Hands.stepped {cmd : Command} {query : query_t} {reply : Option reply_t} {node' : node_t}
    (hhands : Hands s cmd query node) (hw : node.zdcInfo.WF)
    (h : zdc_cmd_handler z s query node = .ok (reply, node')) :
    Stepped z cmd node.zdcInfo node'.zdcInfo := by
  obtain ⟨p, hhanded, hcarried⟩ := hhands
  rcases handler_cases h with ⟨hnone, -⟩ | ⟨name, q, r, info', hsome, hexec, hsame⟩
  · rw [hnone] at hhanded
    cases hhanded
  · rw [hhanded] at hsome
    cases hsome
    rw [execute_of_carried hcarried] at hexec
    have hd := execute_stepped hw hexec
    refine ⟨fun i => ?_, hsame.wf hd.wf, ?_, ?_, ?_⟩
    · rw [hsame.cell, hd.cell]
    · rw [hsame.el_size, hd.el_size]
    · rw [hsame.buff_size, hd.buff_size]
    · rw [hsame.el_idx, hd.el_idx]

theorem same_of_not_hands {query : query_t} {reply : Option reply_t} {node' : node_t}
    (hnot : ∀ cmd, ¬ Hands s cmd query node) (h : zdc_cmd_handler z s query node = .ok (reply, node')) :
    SameTable node.zdcInfo node'.zdcInfo := by
  rcases handler_cases h with ⟨-, hsame⟩ | ⟨name, p, r, info', hsome, hexec, hsame⟩
  · exact hsame
  · rcases handed_command hsome with ⟨cmd, rfl, hcarried⟩ | hwrong
    · exact absurd ⟨p, hsome, hcarried⟩ (hnot cmd)
    · rcases hwrong with rfl | rfl <;>
      · cases hexec
        exact hsame

theorem wire_err {rc : lcsf_valid_cmd_t} {msg : List UInt8} (h : s.wire rc = some msg)
    (herr : s.wire (statusCmd ZDC_STATUS_ERR) = some msg) : rc ≠ statusCmd ZDC_STATUS_OK := by
  rintro rfl
  have hsame := (s.receive_wire h).symm.trans (s.receive_wire herr)
  revert hsame
  decide

theorem corresponds_none {query : query_t} {node' : node_t} (hhanded : ∀ name p,
      handed s query node = some (name, p) → ¬ CallsForReply s name p node.zdcInfo)
    (hsame : SameTable node.zdcInfo node'.zdcInfo) : Corresponds s query node none node' :=
  ⟨iff_of_false (by simp) (by rintro ⟨name, p, hcall, hreply⟩; exact hhanded name p hcall hreply),
    by rintro _ ⟨⟩, fun _ => ⟨hsame.entity_list, hsame.session⟩⟩

theorem Idle.same {node' : node_t} (hidle : Idle z s node)
    (hsame : SameTable node.zdcInfo node'.zdcInfo) (hquiet : node'.zdcInfo.curr_msg_size = 0) :
    Idle z s node' :=
  ⟨hsame.served hidle.served, hquiet, by rw [hsame.buff_size]; exact hidle.fits⟩

def Handles (z : Zenoh) (s : LcsfStack) (query : query_t) (node : node_t) : Prop :=
  ∃ reply node', zdc_cmd_handler z s query node = .ok (reply, node') ∧
    Corresponds s query node reply node' ∧ Idle z s node'

theorem handles_silent {query : query_t} (hidle : Idle z s node) (hne : query.payload.length ≠ 0)
    {r : Bool} (mid : node_t) (h : LCSF_TranscoderReceive z s query.payload node = .ok (r, mid))
    (hsilent : Silent node.zdcInfo mid.zdcInfo)
    (hhanded : ∀ name p, handed s query node = some (name, p) → ¬ CallsForReply s name p node.zdcInfo) :
    Handles z s query node :=
  ⟨none, mid, handler_silent hne h hsilent.quiet, corresponds_none hhanded hsilent.same,
    hidle.same hsilent.same hsilent.quiet⟩

theorem handles_waits {query : query_t} (hne : query.payload.length ≠ 0)
    {r : Bool} (mid : node_t) (h : LCSF_TranscoderReceive z s query.payload node = .ok (r, mid))
    {name : zdc_cmd_names} {p : zdc_cmd_payload_t} (hhanded : handed s query node = some (name, p))
    {rc : lcsf_valid_cmd_t} (hrc : response name p node.zdcInfo = some rc)
    (hw : Waits s rc node.zdcInfo mid.zdcInfo) (hcall : CallsForReply s name p node.zdcInfo)
    (hmid : Served z mid.zdcInfo)
    (hfits : ∀ status, status = ZDC_STATUS_OK ∨ status = ZDC_STATUS_ERR →
      s.Fits (statusCmd status) node.zdcInfo.buff_size.toNat) :
    Handles z s query node := by
  obtain ⟨msg, hwire, hhandler⟩ := handler_waits hne h hw
  refine ⟨_, _, hhandler, ⟨?_, ?_, ?_⟩, (SameTable.replied _).served hmid, rfl, ?_⟩
  · exact iff_of_true rfl ⟨name, p, hhanded, hcall⟩
  · rintro rep ⟨⟩
    exact ⟨name, p, rc, hhanded, hrc, hwire⟩
  · rintro (hnone | ⟨rep, ⟨⟩, herr⟩)
    · cases hnone
    · have hsame := hw.same (wire_err hwire herr)
      exact ⟨hsame.entity_list, hsame.session⟩
  · rw [show ({ mid.zdcInfo with curr_msg_size := 0 } : zdc_info_t).buff_size = _ from hw.buff_size]
    exact hfits

theorem handler_spec (hidle : Idle z s node) (query : query_t)
    (hroom : ∀ p, handed s query node = some (.LIST_ENTITIES_REQ, p) →
      node.zdcInfo.records.length ≤ 64 * node.zdcInfo.el_size.toNat)
    (hgood : ¬ HandsBadHandle s query node) : Handles z s query node := by
  by_cases hne : query.payload.length = 0
  · have hnone : handed s query node = none := if_pos hne
    refine ⟨none, node, ?_, corresponds_none (by simp [hnone]) (.refl _), hidle⟩
    rw [zdc_cmd_handler, if_pos hne]
    rfl
  cases hreceive : s.receive query.payload with
  | none =>
    have hnone : handed s query node = none := by simp [handed, hne, hreceive]
    refine handles_silent (r := false) hidle hne node ?_ (silent_refused hidle.quiet)
      (by simp [hnone])
    rw [LCSF_TranscoderReceive, hreceive]
    rfl
  | some cmd =>
    obtain ⟨p, hget, hcommand⟩ := getCmd_command
      (wellFormed_of_conforms (s.receive_conforms hreceive)) node.CmdPayload
    have hhanded : handed s query node = some (LCSF_Bridge_zdc_CMDID2CMDNAME cmd.CmdId, p) := by
      simp [handed, hne, hreceive, hget]
    have htranscoder : ∀ r info', zdc_MainExecute z s (LCSF_Bridge_zdc_CMDID2CMDNAME cmd.CmdId) (some p)
        node.zdcInfo = .ok (r, info') →
        LCSF_TranscoderReceive z s query.payload node = .ok (r, ⟨info', p⟩) := by
      intro r info' hexec
      rw [transcoder_eq z hhanded, hexec]
      rfl
    rcases hcommand with ⟨c, hname, hcarried⟩ | hwrong
    · rw [← hname] at hhanded htranscoder
      rw [execute_of_carried hcarried] at htranscoder
      obtain ⟨r, info', hexec, hout⟩ := executed_waits hcarried hidle.served hidle.quiet hidle.fits
        (fun hc => hroom p (by rw [hhanded, hc]; rfl)) fun hbad => hgood ⟨c, ⟨p, hhanded, hcarried⟩, hbad⟩
      rcases hout with ⟨hsilent, hno⟩ | ⟨rc, hrc, hw, hcall⟩
      · refine handles_silent hidle hne ⟨info', p⟩ (htranscoder r info' hexec) hsilent
          fun name q hq => ?_
        rw [hhanded] at hq
        cases hq
        exact hno
      · exact handles_waits hne ⟨info', p⟩ (htranscoder r info' hexec) hhanded hrc hw hcall
          (hidle.served.step hexec) hidle.fits
    · -- The default of `zdc_MainExecute`: a response sent to the wrong side.
      refine handles_silent (r := false) hidle hne ⟨node.zdcInfo, p⟩ (htranscoder _ _ ?_)
        (silent_refused hidle.quiet) fun name q hq => ?_
      · rcases hwrong with h | h <;> rw [h] <;> rfl
      · rw [hhanded] at hq
        cases hq
        rcases hwrong with h | h <;> rw [h] <;> exact id

/-- A list request that does not fit its buffer writes past its end, and no state comes after it. -/
theorem handler_overflow (hf : node.zdcInfo.Full) {query : query_t} {p : zdc_cmd_payload_t}
    (h : handed s query node = some (.LIST_ENTITIES_REQ, p))
    (hbig : 64 * node.zdcInfo.el_size.toNat < node.zdcInfo.records.length) :
    zdc_cmd_handler z s query node = .error .overflow := by
  have hmain : zdc_MainExecute z s .LIST_ENTITIES_REQ (some p) node.zdcInfo = .error .overflow :=
    execute_list_overflow (z := z) hf hbig
  unfold zdc_cmd_handler
  rw [if_neg (handed_some h).1, transcoder_eq z h, hmain]
  rfl

theorem handler_badHandle (hw : node.zdcInfo.WF) {query : query_t} (h : HandsBadHandle s query node) :
    zdc_cmd_handler z s query node = .error .badHandle := by
  obtain ⟨cmd, ⟨p, hhanded, hcarried⟩, hbad⟩ := h
  unfold zdc_cmd_handler
  rw [if_neg (handed_some hhanded).1, transcoder_eq z hhanded, execute_of_carried hcarried,
    execute_badHandle hw hbad]
  rfl

theorem handler_idle (hidle : Idle z s node) {query : query_t} {reply : Option reply_t} {node' : node_t}
    (h : zdc_cmd_handler z s query node = .ok (reply, node')) : Idle z s node' := by
  have hroom : ∀ p, handed s query node = some (.LIST_ENTITIES_REQ, p) →
      node.zdcInfo.records.length ≤ 64 * node.zdcInfo.el_size.toNat := by
    intro p hp
    by_contra hbig
    rw [handler_overflow hidle.served.full hp (by omega)] at h
    cases h
  have hgood : ¬ HandsBadHandle s query node := by
    intro hbad
    rw [handler_badHandle hidle.served.full.toWF hbad] at h
    cases h
  obtain ⟨reply', next, hnext, -, hidle'⟩ := handler_spec hidle query hroom hgood
  rw [h] at hnext
  cases hnext
  exact hidle'

/-- Every query of a run from a started node is handled, and its reply corresponds to it. -/
theorem replies_correspond (hstart : Started z info) (p : zdc_cmd_payload_t)
    (hfits : ∀ status, status = ZDC_STATUS_OK ∨ status = ZDC_STATUS_ERR →
      s.Fits (statusCmd status) info.buff_size.toNat) (queries : List query_t) :
    Run.Each (zdc_cmd_handler z s) (HandledWell s) queries ⟨info, p⟩ := by
  have hidle : Idle z s ⟨info, p⟩ := ⟨hstart.served, hstart.filled.quiet, hfits⟩
  refine Run.each_of_inv (fun _ _ _ _ hI h => handler_idle hI h) (fun query t hI hroom hgood => ?_) queries _ hidle
  obtain ⟨reply, node', h, hcorr, -⟩ := handler_spec hI query hroom hgood
  exact ⟨reply, node', h, hcorr⟩

/-- A state, one for entity 0, a keyexpr whose reply fails, a config out of range, a list, and two
queries without a command. -/
def mixed : List query_t :=
  [⟨World.encode ⟨0x2, some [⟨some 1, [1]⟩, ⟨some 1, [0]⟩]⟩, true⟩,
    ⟨World.encode ⟨0x2, some [⟨some 1, [0]⟩, ⟨some 1, [1]⟩]⟩, true⟩,
    ⟨World.encode ⟨0x3, some [⟨some 1, [1]⟩, ⟨some 2, [0x62, 0]⟩]⟩, false⟩,
    ⟨World.encode ⟨0x4, some [⟨some 1, [9]⟩, ⟨some 1, [7]⟩]⟩, true⟩,
    ⟨World.encode ⟨0x0, none⟩, true⟩, ⟨[], false⟩, ⟨[0x2e], true⟩]

theorem replies_correspond_served : ∃ info, Started World.acceptAll info ∧
    Run.Each (zdc_cmd_handler World.acceptAll World.stack) (HandledWell World.stack) mixed ⟨info, .zero⟩ ∧
    Run.outs (zdc_cmd_handler World.acceptAll World.stack) mixed ⟨info, .zero⟩ =
      [some ⟨World.encode (statusCmd ZDC_STATUS_OK), true⟩,
        some ⟨World.encode (statusCmd ZDC_STATUS_ERR), true⟩,
        some ⟨World.encode (statusCmd ZDC_STATUS_OK), false⟩, none,
        some ⟨World.encode ⟨0x1, some [⟨some 10, [3, 1, 2, 0x7a, 0, 1, 0, 2, 0x62, 0]⟩, ⟨some 1, [2]⟩]⟩, true⟩,
        none, none] := by
  obtain ⟨info, hsetup, h⟩ := setup_started World.acceptAll 64 (World.str [0x7a])
    [.sub true (World.str [0x61]) none (.application 0)] (by decide)
  have hsize := Result.of_map (f := zdc_info_t.buff_size) (b := 64) hsetup rfl
  refine ⟨info, h, replies_correspond h .zero ?_ _, Result.of_map (f := fun info =>
    Run.outs (zdc_cmd_handler World.acceptAll World.stack) mixed ⟨info, .zero⟩) hsetup rfl⟩
  rw [hsize]
  rintro status (rfl | rfl)
  · exact ⟨_, rfl, by decide, by decide⟩
  · exact ⟨_, rfl, by decide, by decide⟩

end ZdcPoc.B
