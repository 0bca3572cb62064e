import ZdcPoc.Code.MainTx
import ZdcPoc.ListResponse
import ZdcPoc.Queries

/-!
# What the controller prints

A response of the node goes through its bridge, the stack and the bridge of the controller, which prints
a status or the whole table.
-/

namespace ZdcPoc

open Bytes

/-! ## From the wire to the printed text -/

namespace Tx

variable {s : LcsfStack} {msg : List UInt8} {p p' : zdc_cmd_payload_t}

theorem reply_handler_decoded {cmd : lcsf_valid_cmd_t} (h : s.receive msg = some cmd)
    (hget : Side.toA.getCmd cmd p = .ok p') : reply_handler s (some msg) p = (do
      let printed ← A.zdc_MainExecute_prints (LCSF_Bridge_zdc_CMDID2CMDNAME cmd.CmdId) (some p')
      return (printed.getD .failed, p')) := by
  rw [Side.getCmd, Side.get] at hget
  simp only [reply_handler, LCSF_TranscoderReceive, h, hget, ok_bind, bind_assoc]
  rfl

theorem status_printed {status : UInt8} (hwire : s.wire (B.statusCmd status) = some msg)
    (p : zdc_cmd_payload_t) :
    ∃ p', reply_handler s (some msg) p = .ok (.cmd_status (status = 0), p') ∧ p'.entity_nb = p.entity_nb := by
  have hget : Side.toA.getCmd (B.statusCmd status).carried p = .ok (copyAtt ⟨some 1, [status]⟩ 0 p) := rfl
  have hvalue : (copyAtt ⟨some 1, [status]⟩ 0 p).status_value = status.toNat := by
    have hnum := num_write p.bytes 0 1 [status] (le_refl 1)
    have hlt : p.bytes.num 0 1 < 256 ^ 1 := num_lt p.bytes 0 1
    rw [List.length_singleton, Nat.div_eq_of_lt hlt, leVal_cons, leVal_nil] at hnum
    exact hnum
  refine ⟨copyAtt ⟨some 1, [status]⟩ 0 p, (reply_handler_decoded (s.receive_wire hwire) hget).trans ?_,
    num_write_disjoint p.bytes 0 [status] 16 2 (Or.inr (by rw [List.length_singleton]; omega))⟩
  have hok : decide (status = 0) = decide (status.toNat = 0) := by
    rw [decide_eq_decide, ← UInt8.toNat_inj, UInt8.toNat_zero]
  rw [hok, ← hvalue]
  rfl

theorem list_printed {entity_list : List UInt8} {entity_nb : Nat}
    (hwire : s.wire (B.listCmd entity_list entity_nb) = some msg) (hlen : entity_list.length < 2 ^ 32)
    (hnb : entity_nb < 65536) (hp : 256 ≤ entity_nb ∨ p.entity_nb / 256 = 0) :
    ∃ p', reply_handler s (some msg) p = (do
      let (lines, _) ← A.entity_loop entity_list entity_nb 0
      return (.entities entity_nb (lines.map A.entity_line.text), p')) ∧ p'.entity_nb = entity_nb := by
  have hwidth : minWidth entity_nb ≤ 2 := minWidth_le (by omega) hnb
  have hdata : (leBytes 2 entity_nb).take (minWidth entity_nb) = leBytes (minWidth entity_nb) entity_nb :=
    leBytes_take 2 _ _ hwidth
  let p' : zdc_cmd_payload_t := ⟨p.bytes.setMin 16 entity_nb, some entity_list⟩
  have hdecoded : p'.entity_nb = entity_nb := (num_setMin_two p.bytes 16 entity_nb hnb).mpr hp
  have hget : Side.toA.getCmd (B.listCmd entity_list entity_nb).carried p = .ok p' := by
    have hcarried : (B.listCmd entity_list entity_nb).carried = ⟨0x1, some [⟨some entity_list.length, entity_list⟩,
        ⟨some (minWidth entity_nb), leBytes (minWidth entity_nb) entity_nb⟩]⟩ := by
      simp only [B.listCmd, lcsf_valid_cmd_t.carried, LCSF_zdc_ProtDesc, Option.getD_some, Option.map_some,
        List.zipWith_cons_cons, List.zipWith_nil_right, lcsf_valid_att_t.carried, Nat.mod_eq_of_lt hlen,
        List.take_length, hdata, leBytes_length]
    have hcopy : copyAtt ⟨some (minWidth entity_nb), leBytes (minWidth entity_nb) entity_nb⟩ 16
        (p.set_ptr entity_list) = p' := by
      rw [copyAtt, Option.getD_some, List.take_of_length_le (Nat.le_of_eq (leBytes_length ..))]
      rfl
    rw [hcarried, ← hcopy]
    rfl
  refine ⟨p', (reply_handler_decoded (s.receive_wire hwire) hget).trans ?_, hdecoded⟩
  change A.zdc_MainExecute_prints .LIST_ENTITIES_RESP (some p') >>= _ = _
  have hexec : A.zdcExecutelist_entities_resp (some p') =
      (do let r ← A.entity_loop entity_list entity_nb 0; return some r) := by
    unfold A.zdcExecutelist_entities_resp
    simp only [hdecoded]
    split
    · rename_i h0
      rw [h0]
      rfl
    · rfl
  rw [A.zdc_MainExecute_prints, hexec]
  cases A.entity_loop entity_list entity_nb 0 with
  | error e => rfl
  | ok r =>
    change Except.ok (A.printed_t.entities p'.entity_nb _, p') = _
    rw [hdecoded]
    rfl

end Tx

/-! ## A list from the node to the controller -/

theorem Request.list_sent {s : LcsfStack} {msg : List UInt8} {a a' : A.zdc_info_t}
    (h : A.zdc_encode_list_entity s a = .ok (some msg, a')) : msg ≠ [] ∧ s.receive msg = some ⟨0x0, none⟩ := by
  rcases Request.list_encode_cases (s := s) a with ⟨_, hnone⟩ | ⟨msg', _, hreceive, hne, hsome⟩
  · rw [h] at hnone
    cases hnone
  · rw [h] at hsome
    cases hsome
    exact ⟨hne, hreceive⟩

namespace B

open zdc_info_t

variable {z : Zenoh} {s : LcsfStack} {info : zdc_info_t} {node node' : node_t} {query : query_t}
  {msg : List UInt8}

def zdc_entity_t.text (e : zdc_entity_t) : A.entity_text :=
  ⟨A.ZDC_TYPE_TO_STR.getD e.type.toUInt8.toNat "", A.ZDC_STATE_TO_STR.getD e.state.toUInt8.toNat "",
    e.keyexpr.chars⟩

def zdc_info_t.text (info : zdc_info_t) : A.printed_t :=
  .entities info.el_size.toNat (info.entities.map zdc_entity_t.text)

theorem linesOf_text (idx : Nat) (es : List zdc_entity_t) :
    (linesOf idx es).map A.entity_line.text = es.map zdc_entity_t.text := by
  induction es generalizing idx with
  | nil => rfl
  | cons e es ih =>
    rw [linesOf, List.map_cons, List.map_cons, ih]
    rfl

/-- With blocks of up to 255 bytes the loop stays where the records start, and stops at an unknown
state only. -/
theorem known_of_loop (es : List zdc_entity_t) (hs : ∀ e ∈ es, ∃ i, e.Sound i)
    (hsize : ∀ e ∈ es, e.ke_size ≤ 255) (pre : List UInt8) {r : List A.entity_line × Nat}
    (h : A.entity_loop (pre ++ es.flatMap zdc_entity_t.record) es.length pre.length = .ok r) :
    ∀ e ∈ es, e.StateKnown := by
  induction es generalizing pre r with
  | nil => exact fun e he => absurd he List.not_mem_nil
  | cons e es ih =>
    obtain ⟨i, hi⟩ := hs e List.mem_cons_self
    have hfirst := hsize e List.mem_cons_self
    rw [List.flatMap_cons, List.length_cons] at h
    obtain ⟨line, next, rest, hstep, hloop, -⟩ := A.entity_loop_cons h
    obtain ⟨-, hnext, hstate⟩ := entity_step_inv e pre _ hstep
    rw [Nat.mod_eq_of_lt (by omega), Nat.add_assoc, ← hi.record_length, ← List.length_append] at hnext
    rw [hnext, ← List.append_assoc] at hloop
    exact List.forall_mem_cons.mpr ⟨hstate, ih (fun e' he => hs e' (List.mem_cons_of_mem _ he))
      (fun e' he => hsize e' (List.mem_cons_of_mem _ he)) (pre ++ e.record) hloop⟩

theorem list_handed (hne : query.payload ≠ []) (hreceive : s.receive query.payload = some ⟨0x0, none⟩) :
    handed s query node = some (Command.list_entities_req.name, node.CmdPayload) := by
  simp only [handed, List.length_eq_zero_iff, hne, if_false, hreceive]
  rfl

theorem list_handled (h : Resting z node) (hne : query.payload ≠ [])
    (hreceive : s.receive query.payload = some ⟨0x0, none⟩)
    (hroom : node.zdcInfo.records.length ≤ 64 * node.zdcInfo.el_size.toNat) :
    ∃ reply node', zdc_cmd_handler z s query node = .ok (reply, node') ∧
      SameTable node.zdcInfo node'.zdcInfo ∧
      (reply.isSome ↔ s.Fits (listCmd node.zdcInfo.records node.zdcInfo.el_size.toNat)
        node.zdcInfo.buff_size.toNat) ∧
      ∀ rep, reply = some rep →
        s.wire (listCmd node.zdcInfo.records node.zdcInfo.el_size.toNat) = some rep.bytes := by
  have hlength : query.payload.length ≠ 0 := fun h0 => hne (List.length_eq_zero_iff.mp h0)
  obtain ⟨r, info', hexec, hout⟩ := list_waits (z := z) (s := s) (p := node.CmdPayload) h.served.full
    h.quiet hroom
  have hcarried : Command.list_entities_req.CarriedBy node.CmdPayload := trivial
  have htranscoder : LCSF_TranscoderReceive z s query.payload node = .ok (r, ⟨info', node.CmdPayload⟩) := by
    rw [transcoder_eq z (list_handed hne hreceive), execute_of_carried hcarried, hexec]
    rfl
  rcases hout with ⟨hsilent, hno⟩ | ⟨rc, hrc, hw, hcall⟩
  · exact ⟨none, _, handler_silent hlength htranscoder hsilent.quiet, hsilent.same,
      iff_of_false (by simp) hno, nofun⟩
  · obtain ⟨msg, hwire, hhandler⟩ := handler_waits hlength htranscoder hw
    cases hrc
    have hsame := hw.same fun heq => by cases congrArg lcsf_valid_cmd_t.CmdId heq
    refine ⟨_, _, hhandler, hsame.trans (.replied _), iff_of_true rfl hcall, ?_⟩
    rintro rep ⟨⟩
    exact hwire

theorem list_printed_iff (hf : info.Full) (hroom : info.records.length ≤ 64 * info.el_size.toNat)
    (hsize : ∀ e ∈ info.entities, e.ke_size ≤ 255) {p : zdc_cmd_payload_t}
    (hp : 256 ≤ info.el_size.toNat ∨ p.entity_nb / 256 = 0)
    (hwire : s.wire (listCmd info.records info.el_size.toNat) = some msg) :
    ((∃ r, Tx.reply_handler s (some msg) p = .ok r) ↔ ∀ e ∈ info.entities, e.StateKnown) ∧
      ∀ shown p', Tx.reply_handler s (some msg) p = .ok (shown, p') →
        shown = info.text ∧ p'.entity_nb = info.el_size.toNat := by
  have hel := info.el_size.toNat_lt
  have hrecords : info.records = [] ++ info.entities.flatMap zdc_entity_t.record := rfl
  obtain ⟨p', hreply, hnb⟩ := Tx.list_printed hwire (by omega) (by simpa using hel) hp
  rw [hreply, ← hf.entities_length]
  have hknown : ∀ r, A.entity_loop info.records info.entities.length 0 = .ok r →
      ∀ e ∈ info.entities, e.StateKnown := by
    intro r h
    exact known_of_loop info.entities (entities_sound hf) hsize [] h
  have hloop : (∀ e ∈ info.entities, e.StateKnown) → A.entity_loop info.records info.entities.length 0 =
      .ok (linesOf 0 info.entities, info.records.length) := by
    intro h
    have := entity_loop_spec info.entities (entities_sound hf) [] fun e he => ⟨hsize e he, h e he⟩
    rwa [List.nil_append, List.length_nil, Nat.zero_add] at this
  refine ⟨⟨fun ⟨r, h⟩ => ?_, fun h => ⟨_, by rw [hloop h, ok_bind]; rfl⟩⟩, fun shown q h => ?_⟩
  · obtain ⟨out, hout, -⟩ := Result.bind_ok h
    exact hknown out hout
  · obtain ⟨out, hout, h⟩ := Result.bind_ok h
    rw [hloop (hknown out hout)] at hout
    cases hout
    cases h
    exact ⟨by rw [zdc_info_t.text, linesOf_text, hf.entities_length], by rw [hnb, hf.entities_length]⟩

/-- A controller's list request, after any queries: the reply is the table as it stands, sent exactly when
it fits the send buffer. With blocks of up to 255 bytes, the controller prints that table, or it stops at a
state that is none. -/
theorem list_reported (hstart : Started z info) (p₀ : zdc_cmd_payload_t) {queries : List query_t}
    (hrun : Run.run (zdc_cmd_handler z s) queries ⟨info, p₀⟩ = .ok node) {a a' : A.zdc_info_t}
    (hsent : A.zdc_encode_list_entity s a = .ok (some msg, a')) (reply_ok : Bool)
    (hroom : node.zdcInfo.records.length ≤ 64 * node.zdcInfo.el_size.toNat)
    (hsize : ∀ e ∈ node.zdcInfo.entities, e.ke_size ≤ 255) (p : zdc_cmd_payload_t)
    (hp : 256 ≤ node.zdcInfo.el_size.toNat ∨ p.entity_nb / 256 = 0) :
    ∃ reply node', zdc_cmd_handler z s ⟨msg, reply_ok⟩ node = .ok (reply, node') ∧
      node'.zdcInfo.entity_list = node.zdcInfo.entity_list ∧ node'.zdcInfo.session = node.zdcInfo.session ∧
      (reply.isSome ↔ s.Fits (listCmd node.zdcInfo.records node.zdcInfo.el_size.toNat)
        node.zdcInfo.buff_size.toNat) ∧
      ∀ rep, reply = some rep →
        ((∃ r, Tx.reply_handler s (some rep.bytes) p = .ok r) ↔
          ∀ e ∈ node.zdcInfo.entities, e.StateKnown) ∧
        ∀ shown p', Tx.reply_handler s (some rep.bytes) p = .ok (shown, p') → shown = node.zdcInfo.text := by
  have hresting : Resting z node :=
    Run.run_inv (fun _ _ _ _ hm hstep => hm.next hstep) hrun (hstart.resting p₀)
  obtain ⟨hne, hreceive⟩ := Request.list_sent hsent
  obtain ⟨reply, node', hhandler, hsame, hfits, hwire⟩ :=
    list_handled hresting (show (⟨msg, reply_ok⟩ : query_t).payload ≠ [] from hne) hreceive hroom
  refine ⟨reply, node', hhandler, hsame.entity_list, hsame.session, hfits, fun rep hrep => ?_⟩
  obtain ⟨hcompletes, hshown⟩ := list_printed_iff hresting.served.full hroom hsize hp (hwire rep hrep)
  exact ⟨hcompletes, fun shown p' hprinted => (hshown shown p' hprinted).1⟩

/-- A rename of entity 1 to `b` comes before the list. -/
theorem list_reported_served : ∃ info node rep node' p', Started World.acceptAll info ∧
    Run.run (zdc_cmd_handler World.acceptAll World.stack)
      [⟨World.encode ⟨0x3, some [⟨some 1, [1]⟩, ⟨some 2, [0x62, 0]⟩]⟩, true⟩] ⟨info, .zero⟩ = .ok node ∧
    zdc_cmd_handler World.acceptAll World.stack ⟨[0x2e, 0x0, 0x0], true⟩ node = .ok (some rep, node') ∧
    Tx.reply_handler World.stack (some rep.bytes) .zero =
      .ok (.entities 2 [⟨"queryable", "on", [0x7a]⟩, ⟨"sub", "on", [0x62]⟩], p') := by
  obtain ⟨info, node, hsetup, hrun⟩ : ∃ info node, setup World.acceptAll 1 64 (World.str [0x7a])
        [.sub true (World.str [0x61]) none (.application 0)] = .ok info ∧
      Run.run (zdc_cmd_handler World.acceptAll World.stack)
        [⟨World.encode ⟨0x3, some [⟨some 1, [1]⟩, ⟨some 2, [0x62, 0]⟩]⟩, true⟩] ⟨info, .zero⟩ = .ok node :=
    ⟨_, _, rfl, rfl⟩
  obtain ⟨info', hsetup', h⟩ := setup_started World.acceptAll 64 (World.str [0x7a])
    [.sub true (World.str [0x61]) none (.application 0)] (by decide)
  cases hsetup.symm.trans hsetup'
  cases hsetup
  have hfit : node.zdcInfo.records.length ≤ 64 * node.zdcInfo.el_size.toNat := of_decide_eq_true (Result.of_map
    (f := fun node => decide (node.zdcInfo.records.length ≤ 64 * node.zdcInfo.el_size.toNat)) hrun rfl)
  have hsize : ∀ e ∈ node.zdcInfo.entities, e.ke_size ≤ 255 := of_decide_eq_true (Result.of_map
    (f := fun node => decide (∀ e ∈ node.zdcInfo.entities, e.ke_size ≤ 255)) hrun rfl)
  have htext : node.zdcInfo.text = .entities 2 [⟨"queryable", "on", [0x7a]⟩, ⟨"sub", "on", [0x62]⟩] :=
    Result.of_map (f := fun node => node.zdcInfo.text) hrun rfl
  obtain ⟨a', hsent⟩ : ∃ a', A.zdc_encode_list_entity World.stack .zero = .ok (some [0x2e, 0x0, 0x0], a') :=
    ⟨_, rfl⟩
  obtain ⟨reply, node', hhandler, -, -, hfits, hprints⟩ :=
    list_reported h .zero hrun hsent true hfit hsize .zero (Or.inr rfl)
  have hanswers : World.stack.Fits (listCmd node.zdcInfo.records node.zdcInfo.el_size.toNat)
      node.zdcInfo.buff_size.toNat := by
    cases hrun
    exact ⟨_, rfl, by decide, by decide⟩
  obtain ⟨rep, rfl⟩ := Option.isSome_iff_exists.mp (hfits.mpr hanswers)
  obtain ⟨hcompletes, hshown⟩ := hprints rep rfl
  have hknown : ∀ e ∈ node.zdcInfo.entities, e.StateKnown := of_decide_eq_true (Result.of_map
    (f := fun node => decide (∀ e ∈ node.zdcInfo.entities, e.StateKnown)) hrun rfl)
  obtain ⟨⟨shown, p'⟩, hreply⟩ := hcompletes.mpr hknown
  obtain rfl := hshown shown p' hreply
  exact ⟨_, node, rep, node', p', h, hrun, hhandler, by rw [hreply, htext]⟩

end B

end ZdcPoc
