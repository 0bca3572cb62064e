import ZdcPoc.Code.MainTx
import ZdcPoc.Refinement
import ZdcPoc.Reorder

/-!
# The command line of the controller

An id passes from an `int` to one byte before it is sent, and a state value is compared with `on`
only. A message that is sent for a wrong id or value may still ask for nothing new.
-/

namespace ZdcPoc

/-! ## Requests that change nothing -/

/-- The entity of the request is as the request asks for it, or is not there. -/
def Request.Redundant (info : B.zdc_info_t) : Request → Prop
  | state eid on => eid = 0 ∨ ∀ c, info.cell eid.toNat = some c → (c.entity.isOn ↔ on = true)
  | keyexpr eid suffix => ∀ c, info.cell eid.toNat = some c → c.entity.keyexpr = suffix

namespace B

variable {z : Zenoh} {info info' : zdc_info_t} {i : Nat} {c c' : Cell} {ke : CString}

theorem zdc_entity_t.Sound.rewritten {e : zdc_entity_t} (h : e.Sound i) :
    Block.ofBytes e.keyexpr.bytes ++ e.ke_suffix.drop e.keyexpr.size = e.ke_suffix ∧
      e.keyexpr.size ≤ e.ke_size := by
  obtain ⟨bs, hbs⟩ := h.written
  have hstr := h.string
  rw [hbs] at hstr
  obtain ⟨tail, htail⟩ := Block.str_ofBytes hstr
  have hsize := h.size
  rw [hbs, htail, Block.ofBytes_length, List.length_append, CString.bytes_length] at hsize
  refine ⟨?_, by omega⟩
  rw [hbs, Block.ofBytes_drop, htail, ← CString.bytes_length, List.drop_left, ← Block.ofBytes_append]

theorem handle_eq_of_decl {a b : handle_t} (hdecl : a.decl = b.decl) (hw : a = .unwritten ↔ b = .unwritten) :
    a = b := by
  cases a <;> cases b <;> simp_all [handle_t.decl]

/-- A tidy cell is known but for its declarations and whether its handle was written. -/
theorem Cell.Tidy.eq_of_fields (h : c.Tidy z i) (h' : c'.Tidy z i)
    (he : c'.entity = { c.entity with data := c'.entity.data })
    (hw : c'.entity.data = .unwritten ↔ c.entity.data = .unwritten) : c' = c := by
  have hwanted : c'.entity.wanted z i = c.entity.wanted z i := by
    rw [he]
    exact wanted_congr rfl rfl rfl rfl
  have hon : c'.entity.isOn ↔ c.entity.isOn := by
    rw [he]
    exact Iff.rfl
  have hdata : c'.entity.data = c.entity.data := by
    refine handle_eq_of_decl ?_ hw
    rw [h.data, h'.data, hwanted]
    simp only [hon]
  have hentity : c'.entity = c.entity := by rw [he, hdata]
  obtain ⟨entity, live⟩ := c
  obtain ⟨entity', live'⟩ := c'
  obtain rfl : entity' = entity := hentity
  rw [show live = held entity'.data.decl from h.live, show live' = held entity'.data.decl from h'.live]

theorem Cell.turn_data_of_no_kind {b : UInt8} (hk : c.entity.type.kind = none) :
    (c.turn z i b).entity.data = c.entity.data := by
  rcases Cell.turn_cases z i b c with ⟨e, -⟩ | ⟨e, -⟩ | ⟨e, -⟩ | ⟨e, -⟩ <;> rw [e]
  · rw [Cell.declare_of_no_kind hk, Cell.withState]
  · rw [Cell.undeclare_of_no_kind hk, Cell.withState]
  · rw [Cell.withState]

theorem Cell.Sound.rename_unwritten (h : c.Sound i) :
    (c.rename z i ke).entity.data = .unwritten ↔ c.entity.data = .unwritten := by
  by_cases hon : c.entity.isOn
  · by_cases hk : c.entity.type.kind = none
    · have hk' : ((c.turn z i 0).rewrite ke).entity.type.kind = none := by
        rw [rewrite_type, turn_type]
        exact hk
      rw [rename_of_on z i ke c hon, turn_data_of_no_kind hk', rewrite_data, turn_data_of_no_kind hk]
    · refine iff_of_false (h.rename.entity.handle ((rename_isOn z i ke c).mpr hon) ?_) (h.entity.handle hon hk)
      rwa [rename_type]
  · rw [rename_of_not_on z i ke c hon, rewrite_data]

theorem Cell.Tidy.rename_self (h : c.Tidy z i) : c.rename z i c.entity.keyexpr = c := by
  obtain ⟨hblock, hsize⟩ := h.sound.entity.rewritten
  refine h.eq_of_fields h.rename ?_ h.sound.rename_unwritten
  have htype := Cell.rename_type z i c.entity.keyexpr c
  have hcb := Cell.rename_cb_ptr z i c.entity.keyexpr c
  have hconfig := Cell.rename_config z i c.entity.keyexpr c
  have hstate := Cell.rename_state z i c.entity.keyexpr c
  have hke := (Cell.rename_ke_suffix z i c.entity.keyexpr c).trans hblock
  have hkesize := (Cell.rename_ke_size z i c.entity.keyexpr c).trans (max_eq_right hsize)
  generalize (c.rename z i c.entity.keyexpr).entity = e at *
  obtain ⟨⟩ := e
  simp only at htype hcb hconfig hstate hke hkesize
  rw [htype, hcb, hconfig, hstate, hke, hkesize]

theorem Cell.Tidy.rename_eq_self_iff (h : c.Tidy z i) :
    c.rename z i ke = c ↔ c.entity.keyexpr = ke := by
  constructor
  · intro hself
    have := Cell.rename_keyexpr z i ke c
    rwa [hself] at this
  · rintro rfl
    exact h.rename_self

theorem Cell.Tidy.turn_eq_self_iff (h : c.Tidy z i) (on : Bool) :
    c.turn z i (if on then 1 else 0) = c ↔ (c.entity.isOn ↔ on = true) := by
  constructor
  · intro hself
    have hon := Cell.turn_isOn z i (if on then 1 else 0) c
    rw [hself] at hon
    rw [hon]
    cases on <;> simp
  · intro hon
    apply if_pos
    cases on with
    | true => exact hon.mpr rfl
    | false =>
      rcases h.state with hs | hs
      · rw [hs]
        rfl
      · exact absurd (hon.mp (by rw [zdc_entity_t.isOn, hs]; rfl)) (by decide)

theorem redundant_iff (ht : info.Cells (Cell.Tidy z)) (r : Request) :
    r.Redundant info ↔
      ∀ c, info.cell r.eid.toNat = some c → r.command.act z r.eid.toNat c = c := by
  cases r with
  | keyexpr eid suffix =>
    apply forall₂_congr
    intro c hc
    rw [Request.command, Request.eid, Command.act, if_pos (UInt8.toNat_toUInt16 eid)]
    exact (ht _ c hc).rename_eq_self_iff.symm
  | state eid on =>
    by_cases h0 : eid = 0
    · apply iff_of_true (Or.inl h0)
      intro c _
      apply if_neg
      rintro ⟨-, hne⟩
      exact hne (congrArg UInt8.toNat h0)
    · have hne : eid.toNat ≠ 0 := fun he => h0 (UInt8.toNat_inj.mp he)
      rw [Request.Redundant, or_iff_right h0]
      apply forall₂_congr
      intro c hc
      rw [Request.command, Request.eid, Command.act, if_pos ⟨UInt8.toNat_toUInt16 eid, hne⟩]
      exact ((ht _ c hc).turn_eq_self_iff on).symm

/-- No entity but that of index `id` is changed. -/
theorem Stepped.only_iff {r : Request} (hd : Stepped z r.command info info')
    (ht : info.Cells (Cell.Tidy z)) (id : Int) :
    (∀ i : Nat, (i : Int) ≠ id → info'.cell i = info.cell i) ↔ id = r.eid.toNat ∨ r.Redundant info := by
  have hid : r.command.entity_id = some r.eid.toUInt16 := by cases r <;> rfl
  have hother : ∀ i, i ≠ r.eid.toNat → info'.cell i = info.cell i := by
    intro i hi
    rw [hd.cell]
    cases info.cell i with
    | none => rfl
    | some c =>
      rw [Option.map_some, act_of_ne hid]
      rw [UInt8.toNat_toUInt16]
      exact Ne.symm hi
  have hself : info'.cell r.eid.toNat = info.cell r.eid.toNat ↔ r.Redundant info := by
    rw [redundant_iff ht, hd.cell]
    cases info.cell r.eid.toNat <;> simp
  constructor
  · intro h
    rw [or_iff_not_imp_left]
    intro hne
    apply hself.mp
    exact h _ (Ne.symm hne)
  · rintro (rfl | hred) i hi
    · exact hother i (by omega)
    · by_cases heq : i = r.eid.toNat
      · rw [heq]
        exact hself.mpr hred
      · exact hother i heq

end B

namespace Tx

open B

/-! ## Invocations -/

/-- One run of `main`, and whether Zenoh takes the reply to it. -/
structure invocation_t where
  argv : List opt_t
  reply_ok : Bool
deriving DecidableEq, Repr

def invoke (z : Zenoh) (s : LcsfStack) (invocation : invocation_t) (node : node_t) :
    Result (Option reply_t × node_t) := do
  let (_, sent) ← main s invocation.argv
  match sent with
  | none => return (none, node)
  | some get => zdc_cmd_handler z s ⟨get.payload, invocation.reply_ok⟩ node

/-- The node handles the query, changes no other entity than that of the id, and is asked for the
state that the value names. -/
structure AsAsked (z : Zenoh) (s : LcsfStack) (args : args_t) (query : query_t) (node : node_t) :
    Prop where
  only : ∃ reply node', zdc_cmd_handler z s query node = .ok (reply, node') ∧
    ∀ i : Nat, (i : Int) ≠ args.eid.toInt → node'.zdcInfo.cell i = node.zdcInfo.cell i
  state : args.cmd = some CMD_STATE →
    (args.value = some STATE_VAL_ON ∧ ∃ id, Hands s (.set_entity_state id 1) query node) ∨
    (args.value = some STATE_VAL_OFF ∧ ∃ id, Hands s (.set_entity_state id 0) query node)

def DoesAsAsked (z : Zenoh) (s : LcsfStack) (argv : List opt_t) (args : args_t) (node : node_t) : Prop :=
  ∃ status sent, main s argv = .ok (status, sent) ∧
    ∀ get, sent = some get → ∀ reply_ok, AsAsked z s args ⟨get.payload, reply_ok⟩ node

/-- What the arguments ask the node for. -/
def request (args : args_t) : Option Request := do
  let cmd ← args.cmd
  let value ← args.value
  if cmd = CMD_KEYEXPR then some (.keyexpr (to_uint_fast8 args.eid) value)
  else if cmd = CMD_STATE then some (.state (to_uint_fast8 args.eid) (value = STATE_VAL_ON))
  else none

variable {z : Zenoh} {s : LcsfStack} {info : zdc_info_t} {node node' : node_t} {args : args_t}
  {argv : List opt_t} {r : Request}

/-! ## The arguments -/

theorem to_uint_fast8_eq_iff (eid : Int32) :
    eid.toInt = (to_uint_fast8 eid).toNat ↔ 0 ≤ eid.toInt ∧ eid.toInt < 256 := by
  have hnarrow : (to_uint_fast8 eid).toNat = eid.toBitVec.toNat % 256 := by
    rw [to_uint_fast8, UInt32.toNat_toUInt8]
    rfl
  have hlt := eid.toBitVec.isLt
  rw [hnarrow, ← Int32.toInt_toBitVec, BitVec.toInt_eq_toNat_cond]
  split <;> omega

theorem request_eid (h : request args = some r) : r.eid = to_uint_fast8 args.eid := by
  unfold request at h
  obtain ⟨cmd, -, h⟩ := Option.bind_eq_some_iff.mp h
  obtain ⟨value, -, h⟩ := Option.bind_eq_some_iff.mp h
  split at h
  · cases h
    rfl
  · split at h <;> cases h
    rfl

theorem request_state (hcmd : args.cmd = some CMD_STATE) (h : request args = some r) :
    ∃ value, args.value = some value ∧
      r = .state (to_uint_fast8 args.eid) (value = STATE_VAL_ON) := by
  unfold request at h
  obtain ⟨cmd, hcmd', h⟩ := Option.bind_eq_some_iff.mp h
  obtain ⟨value, hvalue, h⟩ := Option.bind_eq_some_iff.mp h
  rw [hcmd] at hcmd'
  cases hcmd'
  rw [if_neg (by decide), if_pos rfl] at h
  exact ⟨value, hvalue, (Option.some.inj h).symm⟩

theorem process_request (h : request args = some r) : ∃ buffer a', r.encode s .zero = .ok (buffer, a') ∧
    process_command s args = .ok (send_command args buffer) := by
  obtain ⟨buffer, a', hencode⟩ := r.encode_completes (s := s) .zero
  refine ⟨buffer, a', hencode, ?_⟩
  unfold request at h
  obtain ⟨cmd, hcmd, h⟩ := Option.bind_eq_some_iff.mp h
  obtain ⟨value, hvalue, h⟩ := Option.bind_eq_some_iff.mp h
  unfold process_command
  simp only [hcmd, hvalue]
  split at h
  · rename_i hkeyexpr
    cases h
    unfold Request.encode at hencode
    simp only [hkeyexpr, if_true, hencode, ok_bind]
    rfl
  rename_i hkeyexpr
  split at h
  · rename_i hstate
    cases h
    simp only [Request.encode, decide_eq_true_eq] at hencode
    rw [if_neg hkeyexpr, if_pos hstate, hencode, ok_bind]
    rfl
  · cases h

theorem process_list (h : args.cmd = some CMD_ENTITY) :
    ∃ buffer a', A.zdc_encode_list_entity s .zero = .ok (buffer, a') ∧
      process_command s args = .ok (send_command args buffer) := by
  obtain ⟨buffer, a', hencode⟩ : ∃ buffer a', A.zdc_encode_list_entity s .zero = .ok (buffer, a') := by
    rcases Request.list_encode_cases (s := s) .zero with ⟨a', h⟩ | ⟨msg, a', -, -, h⟩
    · exact ⟨none, a', h⟩
    · exact ⟨some msg, a', h⟩
  refine ⟨buffer, a', hencode, ?_⟩
  unfold process_command
  simp only [h]
  rw [if_neg (by decide), if_neg (by decide), if_neg (by decide), if_pos trivial, hencode, ok_bind]
  rfl

theorem process_nothing (h : request args = none) (hentity : args.cmd ≠ some CMD_ENTITY) :
    ∃ status, process_command s args = .ok (status, none) := by
  obtain ⟨keyexpr, value, cmd, eid⟩ := args
  cases cmd with
  | none => exact ⟨-1, rfl⟩
  | some cmd =>
    have hcmd : cmd ≠ CMD_ENTITY := fun he => hentity (congrArg some he)
    unfold process_command
    simp only [hcmd, if_false]
    cases value with
    | none =>
      simp only
      split
      · exact ⟨-1, rfl⟩
      split
      · exact ⟨-1, rfl⟩
      split <;> exact ⟨-1, rfl⟩
    | some value =>
      unfold request at h
      simp only [Option.bind_eq_bind, Option.bind_some] at h
      split at h
      · cases h
      rename_i hkeyexpr
      split at h
      · cases h
      rename_i hstate
      rw [if_neg hkeyexpr, if_neg hstate]
      split
      · exact ⟨0, rfl⟩
      · exact ⟨-1, rfl⟩

theorem process_cases (s : LcsfStack) (args : args_t) :
    (∃ r buffer a', request args = some r ∧ r.encode s .zero = .ok (buffer, a') ∧
      process_command s args = .ok (send_command args buffer)) ∨
    (args.cmd = some CMD_ENTITY ∧ ∃ buffer a', A.zdc_encode_list_entity s .zero = .ok (buffer, a') ∧
      process_command s args = .ok (send_command args buffer)) ∨
    request args = none ∧ ∃ status, process_command s args = .ok (status, none) := by
  cases hr : request args with
  | some r =>
    obtain ⟨buffer, a', h⟩ := process_request (s := s) hr
    exact Or.inl ⟨r, buffer, a', rfl, h⟩
  | none =>
    by_cases hentity : args.cmd = some CMD_ENTITY
    · exact Or.inr (Or.inl ⟨hentity, process_list hentity⟩)
    · exact Or.inr (Or.inr ⟨rfl, process_nothing hr hentity⟩)

theorem send_command_some (args : args_t) {msg : List UInt8} (hne : msg ≠ []) :
    send_command args (some msg) = (0, some ⟨args.keyexpr, msg⟩) :=
  if_neg fun h => hne (List.length_eq_zero_iff.mp h)

theorem main_eq (s : LcsfStack) (hargs : getopt_loop argv .init = .ok args) :
    main s argv = process_command s args := by
  rw [main, hargs]

/-! ## The node between invocations -/

theorem list_ready {query : query_t} {reply : Option reply_t} (h : Ready z node)
    (hne : query.payload ≠ []) (hreceive : s.receive query.payload = some ⟨0x0, none⟩)
    (hhandler : zdc_cmd_handler z s query node = .ok (reply, node')) : Ready z node' := by
  have hhanded : handed s query node = some (Command.list_entities_req.name, node.CmdPayload) := by
    simp only [handed, List.length_eq_zero_iff, hne, if_false, hreceive]
    rfl
  exact h.next hhanded trivial h.narrow (fun _ _ hc => hc) hhandler

theorem invoke_ready {invocation : invocation_t} {reply : Option reply_t} (h : Ready z node)
    (hstep : invoke z s invocation node = .ok (reply, node')) : Ready z node' := by
  unfold invoke at hstep
  cases hargs : getopt_loop invocation.argv .init with
  | error status =>
    simp only [main, hargs] at hstep
    cases hstep
    exact h
  | ok args =>
    rw [main_eq s hargs] at hstep
    rcases process_cases s args with ⟨r, buffer, a', -, hencode, hrun⟩ |
      ⟨-, buffer, a', hencode, hrun⟩ | ⟨-, status, hrun⟩ <;> rw [hrun, ok_bind] at hstep
    · cases buffer with
      | none =>
        cases hstep
        exact h
      | some msg =>
        obtain ⟨hne, -⟩ := Request.receive_encoded hencode
        rw [send_command_some args hne] at hstep
        obtain ⟨-, reply', next, hnext, hready, -⟩ := deliver_stepped (z := z)
          (⟨r, ⟨msg, invocation.reply_ok⟩, .zero, a', hencode⟩ : Delivery s) h
        unfold Delivery.step at hnext
        simp only [hnext] at hstep
        cases hstep
        exact hready
    · rcases Request.list_encode_cases (s := s) .zero with ⟨a'', h'⟩ | ⟨msg, a'', hreceive, hne, h'⟩ <;>
        rw [h'] at hencode <;> cases hencode
      · cases hstep
        exact h
      · rw [send_command_some args hne] at hstep
        exact list_ready h hne hreceive hstep
    · cases hstep
      exact h

/-! ## One message -/

theorem asked_state_iff (d : Delivery s) (h : Ready z node) (hr : request args = some d.request)
    (hcmd : args.cmd = some CMD_STATE) :
    (args.value = some STATE_VAL_ON ∧ ∃ id, Hands s (.set_entity_state id 1) d.query node) ∨
      (args.value = some STATE_VAL_OFF ∧ ∃ id, Hands s (.set_entity_state id 0) d.query node) ↔
    args.value = some STATE_VAL_ON ∨ args.value = some STATE_VAL_OFF := by
  obtain ⟨value, hvalue, hstate⟩ := request_state hcmd hr
  obtain ⟨hhands, -⟩ := deliver_stepped d h
  rw [hstate, Request.command] at hhands
  rw [hvalue]
  constructor
  · rintro (⟨hon, -⟩ | ⟨hoff, -⟩)
    · exact Or.inl hon
    · exact Or.inr hoff
  · rintro (hon | hoff)
    · cases hon
      exact Or.inl ⟨rfl, _, hhands⟩
    · cases hoff
      exact Or.inr ⟨rfl, _, hhands⟩

theorem as_asked_iff (d : Delivery s) (h : Ready z node) (hr : request args = some d.request) :
    AsAsked z s args d.query node ↔
      (args.cmd = some CMD_STATE → args.value = some STATE_VAL_ON ∨ args.value = some STATE_VAL_OFF) ∧
      ((0 ≤ args.eid.toInt ∧ args.eid.toInt < 256) ∨ d.request.Redundant node.zdcInfo) := by
  obtain ⟨-, reply, node', hhandler, -, hstepped⟩ := deliver_stepped d h
  have honly := hstepped.only_iff h.tidy args.eid.toInt
  rw [request_eid hr, to_uint_fast8_eq_iff] at honly
  unfold Delivery.step at hhandler
  constructor
  · rintro ⟨⟨reply', next, hnext, hsame⟩, hstate⟩
    rw [hhandler] at hnext
    cases hnext
    exact ⟨fun hcmd => (asked_state_iff d h hr hcmd).mp (hstate hcmd), honly.mp hsame⟩
  · rintro ⟨hvalue, hid⟩
    exact ⟨⟨reply, node', hhandler, honly.mpr hid⟩,
      fun hcmd => (asked_state_iff d h hr hcmd).mpr (hvalue hcmd)⟩

/-! ## The law -/

/-- The message of the arguments is for the entity that they name, or changes nothing, and its value
is one of the two that a state can have. -/
def Faithful (s : LcsfStack) (args : args_t) (info : zdc_info_t) : Prop :=
  ∀ r, request args = some r → s.Fits r.lcsf A.ZDC_SEND_BUFF_SIZE →
    (args.cmd = some CMD_STATE → args.value = some STATE_VAL_ON ∨ args.value = some STATE_VAL_OFF) ∧
    ((0 ≤ args.eid.toInt ∧ args.eid.toInt < 256) ∨ r.Redundant info)

/-- In every state that earlier invocations lead to, an invocation does what was asked or sends
nothing exactly when a message that fits is for an id of one byte, or for nothing new, and for a
state value that there is. -/
theorem does_as_asked_iff (hstart : Started z info) {earlier : List invocation_t}
    (hrun : Run.run (invoke z s) earlier ⟨info, .zero⟩ = .ok node)
    (hargs : getopt_loop argv .init = .ok args)
    (hcmd : args.cmd = some CMD_KEYEXPR ∨ args.cmd = some CMD_STATE) :
    DoesAsAsked z s argv args node ↔ Faithful s args node.zdcInfo := by
  have h : Ready z node := Run.run_inv (fun _ _ _ _ hm hstep => invoke_ready hm hstep) hrun hstart.ready
  unfold DoesAsAsked
  rw [main_eq s hargs]
  rcases process_cases s args with ⟨r, buffer, a', hr, hencode, hmain⟩ | ⟨hentity, -⟩ |
    ⟨hnone, status, hmain⟩
  · rcases Request.encode_cases (s := s) r .zero with
      ⟨hfit, a'', h'⟩ | ⟨msg, a'', hwire, hne, hlen, h'⟩ <;> rw [h'] at hencode <;> cases hencode
    · refine iff_of_true ⟨_, _, hmain, fun _ => nofun⟩ fun r' hr' hfit' => ?_
      rw [hr] at hr'
      cases hr'
      exact absurd hfit' hfit
    · rw [send_command_some args hne] at hmain
      have hiff : ∀ reply_ok, AsAsked z s args ⟨msg, reply_ok⟩ node ↔ _ := fun reply_ok =>
        as_asked_iff (⟨r, ⟨msg, reply_ok⟩, .zero, _, h'⟩ : Delivery s) h hr
      constructor
      · rintro ⟨status, sent, hsent, hall⟩ r' hr' -
        rw [hmain] at hsent
        cases hsent
        rw [hr] at hr'
        cases hr'
        exact (hiff true).mp (hall _ rfl true)
      · intro hfaithful
        refine ⟨_, _, hmain, fun get hget reply_ok => ?_⟩
        cases hget
        exact (hiff reply_ok).mpr (hfaithful r hr ⟨msg, hwire, hne, hlen⟩)
  · exfalso
    rcases hcmd with hcmd | hcmd <;> rw [hcmd] at hentity <;> revert hentity <;> decide
  · refine iff_of_true ⟨_, _, hmain, fun _ => nofun⟩ fun r' hr' => ?_
    rw [hnone] at hr'
    cases hr'

theorem does_as_asked_renamed : ∃ info node,
    setup World.acceptAll 1 64 (World.str [0x7a])
      [.sub true (World.str [0x61]) none (.application 0)] = .ok info ∧
    Run.run (invoke World.acceptAll World.stack) [⟨[.c CMD_STATE, .i 1, .v STATE_VAL_OFF], true⟩]
      ⟨info, .zero⟩ = .ok node ∧
    DoesAsAsked World.acceptAll World.stack [.c CMD_KEYEXPR, .i 1, .v (World.str [0x62])]
      ⟨none, some (World.str [0x62]), some CMD_KEYEXPR, 1⟩ node := by
  obtain ⟨info, hsetup, h⟩ := setup_started World.acceptAll 64 (World.str [0x7a])
    [.sub true (World.str [0x61]) none (.application 0)] (by decide)
  obtain ⟨node, hrun⟩ : ∃ node, Run.run (invoke World.acceptAll World.stack)
      [⟨[.c CMD_STATE, .i 1, .v STATE_VAL_OFF], true⟩] ⟨info, .zero⟩ = .ok node := by
    cases hsetup
    exact ⟨_, rfl⟩
  refine ⟨info, node, hsetup, hrun, (does_as_asked_iff h hrun rfl (Or.inl rfl)).mpr ?_⟩
  exact fun _ _ _ => ⟨fun hstate => absurd hstate (by decide), Or.inl (by decide)⟩

/-- `-i 257` renames entity 1, the value `oof` turns it off, and without `-i` the message is for
entity 255. -/
theorem wrong_entity_renamed : ∃ info renamed reply node switched reply' node' unnamed,
    setup World.acceptAll 1 64 (World.str [0x7a])
      [.sub true (World.str [0x61]) none (.application 0)] = .ok info ∧
    main World.stack [.c CMD_KEYEXPR, .i 257, .v (World.str [0x62])] = .ok (0, some renamed) ∧
    zdc_cmd_handler World.acceptAll World.stack ⟨renamed.payload, true⟩ ⟨info, .zero⟩ =
      .ok (reply, node) ∧
    node.zdcInfo.abstract 1 = some ⟨.ZDC_TYPE_SUB, true, World.str [0x62]⟩ ∧
    main World.stack [.c CMD_STATE, .i 1, .v (World.str [0x6f, 0x6f, 0x66])] = .ok (0, some switched) ∧
    zdc_cmd_handler World.acceptAll World.stack ⟨switched.payload, true⟩ ⟨info, .zero⟩ =
      .ok (reply', node') ∧
    node'.zdcInfo.abstract 1 = some ⟨.ZDC_TYPE_SUB, false, World.str [0x61]⟩ ∧
    main World.stack [.c CMD_KEYEXPR, .v (World.str [0x62])] = .ok (0, some unnamed) ∧
    Hands World.stack (.set_entity_keyexpr 255 (World.str [0x62])) ⟨unnamed.payload, true⟩
      ⟨info, .zero⟩ ∧
    ¬ DoesAsAsked World.acceptAll World.stack [.c CMD_KEYEXPR, .i 257, .v (World.str [0x62])]
      ⟨none, some (World.str [0x62]), some CMD_KEYEXPR, 257⟩ ⟨info, .zero⟩ := by
  refine ⟨_, _, _, _, _, _, _, _, rfl, rfl, rfl, rfl, rfl, rfl, rfl, rfl, ⟨_, rfl, rfl, rfl⟩, ?_⟩
  rintro ⟨status, sent, hmain, hall⟩
  cases hmain
  obtain ⟨⟨reply, node, h, hsame⟩, -⟩ := hall _ rfl true
  cases h
  have hcell := hsame 1 (by decide)
  have hkeyexpr := congrArg (Option.map fun c => c.entity.keyexpr) hcell
  revert hkeyexpr
  decide

end Tx

end ZdcPoc
