import Mathlib.Logic.Function.Basic
import ZdcPoc.Handler
import ZdcPoc.Request

/-!
# The node as a map

To the controller the node is a map from ids to entities. Its messages may be lost and may arrive in
any order, and the last one to arrive wins.
-/

namespace ZdcPoc

/-! ## The map -/

structure Entity where
  type : B.zdc_type_e
  on : Bool
  keyexpr : CString
deriving DecidableEq, Repr

abbrev EntityMap := Nat → Option Entity

/-- Entity 0 keeps its state, and an id outside of the map changes nothing. -/
def Request.apply (m : EntityMap) : Request → EntityMap
  | state eid on =>
    if eid = 0 then m
    else Function.update m eid.toNat ((m eid.toNat).map fun e => { e with on })
  | keyexpr eid suffix =>
    Function.update m eid.toNat ((m eid.toNat).map fun e => { e with keyexpr := suffix })

/-- A subscriber or queryable that is on has one declaration, on its current keyexpr. -/
def Entity.declared (e : Entity) : Multiset (DeclKind × CString) :=
  match e.type.kind with
  | some k => if e.on then {(k, e.keyexpr)} else 0
  | none => 0

def Taken (z : Zenoh) (m : EntityMap) : Prop :=
  ∀ i e, m i = some e → e.on = true → ∀ k, e.type.kind = some k → z.accepts e.keyexpr = true

/-- A message that the controller has encoded, as it arrives at the node. -/
structure Delivery (s : LcsfStack) where
  request : Request
  query : B.query_t
  encoded : ∃ zdcInfo zdcInfo', request.encode s zdcInfo = .ok (some query.payload, zdcInfo')

def Delivery.step {s : LcsfStack} (z : Zenoh) (d : Delivery s) (node : B.node_t) :
    Result (Option B.reply_t × B.node_t) :=
  B.zdc_cmd_handler z s d.query node

def fold {s : LcsfStack} (ds : List (Delivery s)) (m : EntityMap) : EntityMap :=
  ds.foldl (fun m d => d.request.apply m) m

namespace B

open zdc_info_t

variable {z : Zenoh} {s : LcsfStack} {info info' : zdc_info_t} {node : node_t} {i : Nat} {c : Cell}

/-! ## The abstraction -/

/-- A state that is neither OFF nor ON has no place in the map. -/
def onOff (state : Int8) : Option Bool :=
  if state = 0 then some false else if state = 1 then some true else none

def Cell.abstract (c : Cell) : Option Entity :=
  (onOff c.entity.state).map fun on => ⟨c.entity.type, on, c.entity.keyexpr⟩

def zdc_info_t.abstract (info : zdc_info_t) : EntityMap := fun i => (info.cell i).bind Cell.abstract

/-- The live declarations are those of the map. -/
def zdc_info_t.Declares (info : zdc_info_t) (m : EntityMap) : Prop :=
  ∀ i, (part Decl.entity i info.session).map (fun d => (d.kind, d.keyexpr)) = (m i).elim 0 Entity.declared

theorem Cell.Tidy.abstract (h : c.Tidy z i) :
    c.abstract = some ⟨c.entity.type, decide c.entity.isOn, c.entity.keyexpr⟩ := by
  have hon : onOff c.entity.state = some (decide c.entity.isOn) := by
    rcases h.state with hs | hs
    · have hoff : ¬ c.entity.isOn := by rw [zdc_entity_t.isOn, hs]; decide
      rw [hs, decide_eq_false hoff]
      rfl
    · have hon : c.entity.isOn := by rw [zdc_entity_t.isOn, hs]; rfl
      rw [hs, decide_eq_true hon]
      rfl
  rw [Cell.abstract, hon, Option.map_some]

theorem abstract_turn (h : c.Tidy z i) (on : Bool) :
    (c.turn z i (if on then 1 else 0)).abstract = c.abstract.map fun e => { e with on } := by
  have hb : (if on then 1 else 0 : UInt8) = 0 ∨ (if on then 1 else 0 : UInt8) = 1 := by
    cases on <;> simp
  rw [(h.turn hb).abstract, h.abstract, Option.map_some]
  simp only [Cell.turn_type, Cell.turn_keyexpr, Cell.turn_isOn]
  cases on <;> rfl

theorem abstract_rename (h : c.Tidy z i) (ke : CString) :
    (c.rename z i ke).abstract = c.abstract.map fun e => { e with keyexpr := ke } := by
  rw [h.rename.abstract, h.abstract, Option.map_some]
  simp only [Cell.rename_type, Cell.rename_keyexpr, Cell.rename_isOn]

theorem tidy_act (r : Request) (h : c.Tidy z i) : (r.command.act z i c).Tidy z i := by
  cases r with
  | state eid on =>
    rw [Request.command, Command.act]
    split
    · exact h.turn (by cases on <;> simp)
    · exact h
  | keyexpr eid suffix =>
    rw [Request.command, Command.act]
    split
    · exact h.rename
    · exact h

theorem Stepped.abstract {r : Request} (h : Stepped z r.command info info')
    (ht : info.Cells (Cell.Tidy z)) : info'.abstract = r.apply info.abstract := by
  have hcell : ∀ i, info'.abstract i = (info.cell i).bind fun c => (r.command.act z i c).abstract := by
    intro i
    rw [zdc_info_t.abstract, h.cell, Option.bind_map]
    rfl
  -- The cell of another entity stays as it is.
  have hkeep : ∀ i, (∀ c, r.command.act z i c = c) → info'.abstract i = info.abstract i := by
    intro i hact
    rw [hcell, zdc_info_t.abstract]
    exact Option.bind_congr fun c _ => by rw [hact]
  -- The cell of the entity that the request is for gets the new value.
  have hset : ∀ (i : Nat) (f : Entity → Entity), (∀ c, info.cell i = some c →
      (r.command.act z i c).abstract = c.abstract.map f) → info'.abstract i = (info.abstract i).map f := by
    intro i f hact
    rw [hcell, zdc_info_t.abstract, Option.map_bind]
    exact Option.bind_congr hact
  funext i
  cases r with
  | state eid on =>
    rw [Request.apply]
    split
    · rename_i h0
      subst h0
      exact hkeep i fun c => if_neg (by rintro ⟨rfl, hne⟩; exact hne rfl)
    · rename_i h0
      have hne : eid.toNat ≠ 0 := fun he => h0 (UInt8.toNat_inj.mp he)
      by_cases hi : i = eid.toNat
      · subst hi
        rw [Function.update_self]
        apply hset
        intro c hc
        rw [Request.command, Command.act, if_pos ⟨UInt8.toNat_toUInt16 eid, hne⟩]
        exact abstract_turn (ht _ c hc) on
      · rw [Function.update_of_ne hi]
        exact hkeep i fun c => if_neg fun hid => hi (hid.1.symm.trans (UInt8.toNat_toUInt16 eid))
  | keyexpr eid suffix =>
    rw [Request.apply]
    by_cases hi : i = eid.toNat
    · subst hi
      rw [Function.update_self]
      refine hset _ _ fun c hc => ?_
      rw [Request.command, Command.act, if_pos (UInt8.toNat_toUInt16 eid)]
      exact abstract_rename (ht _ c hc) suffix
    · rw [Function.update_of_ne hi]
      exact hkeep i fun c => if_neg fun hid => hi (hid.symm.trans (UInt8.toNat_toUInt16 eid))

/-! ## Live declarations -/

theorem Cell.Tidy.declares_iff (h : c.Tidy z i) {e : Entity} (he : c.abstract = some e) :
    c.live.map (fun d => (d.kind, d.keyexpr)) = e.declared ↔
      (e.on = true → ∀ k, e.type.kind = some k → z.accepts e.keyexpr = true) := by
  rw [h.abstract] at he
  obtain rfl := Option.some.inj he
  simp only [h.live, h.data, Entity.declared, decide_eq_true_eq]
  cases hk : c.entity.type.kind with
  | none =>
    rw [wanted_of_no_kind hk, ite_self]
    exact iff_of_true rfl (by rintro - k ⟨⟩)
  | some k =>
    by_cases hon : c.entity.isOn
    · simp only [hon, if_true, forall_const, Option.some.injEq, forall_eq']
      cases hz : z.accepts c.entity.keyexpr with
      | true =>
        rw [wanted_eq_some.mpr ⟨hz, k, hk, rfl⟩]
        exact iff_of_true rfl rfl
      | false =>
        rw [wanted_of_refused hz]
        exact iff_of_false (Multiset.singleton_ne_zero _).symm (by decide)
    · simp only [hon, if_false, false_imp_iff, iff_true]
      rfl

theorem declares_iff_taken (hw : info.WF) (ht : info.Cells (Cell.Tidy z)) :
    info.Declares info.abstract ↔ Taken z info.abstract := by
  constructor
  · intro h i e he
    obtain ⟨c, hc, hce⟩ := Option.bind_eq_some_iff.mp he
    apply ((ht i c hc).declares_iff hce).mp
    have hi := h i
    rwa [he, ← (cell_eq_some.mp hc).2] at hi
  · intro h i
    cases hc : info.cell i with
    | none =>
      rw [hw.part_of_no_cell hc, zdc_info_t.abstract, hc]
      rfl
    | some c =>
      have hce := (ht i c hc).abstract
      have he : info.abstract i = c.abstract := by rw [zdc_info_t.abstract, hc, Option.bind_some]
      rw [hce] at he
      rw [he, ← (cell_eq_some.mp hc).2]
      exact ((ht i c hc).declares_iff hce).mpr (h i _ he)

/-! ## One message -/

/-- Between two messages: all entities are off or on, nothing waits to be sent, and no message has
left a high byte in the id. -/
structure Ready (z : Zenoh) (node : node_t) : Prop where
  full : node.zdcInfo.Full
  tidy : node.zdcInfo.Cells (Cell.Tidy z)
  quiet : node.zdcInfo.curr_msg_size = 0
  narrow : node.CmdPayload.entity_id < 256

theorem Started.ready (h : Started z info) : Ready z ⟨info, .zero⟩ :=
  ⟨h.full, h.filled.tidy, h.filled.quiet, show zdc_cmd_payload_t.zero.entity_id < 256 by decide⟩

def Sendable (info : zdc_info_t) : Prop := info.curr_msg_size = 0 ∨ ∃ msg, info.reply = some msg

theorem send_status_sendable (info : zdc_info_t) (hquiet : info.curr_msg_size = 0) (status : UInt8) :
    Sendable (send_status s status info).2 := by
  obtain ⟨p, hp⟩ := send_status_eq s info status
  rw [hp]
  by_cases hfit : s.Fits (statusCmd status) info.buff_size.toNat
  · obtain ⟨-, msg, -, -, -, hreply⟩ := send_fits { info with SendCmdPayload := p } hfit
    exact Or.inr ⟨msg, hreply⟩
  · have hsize := (send_not_fits { info with SendCmdPayload := p } hfit).2
    exact Or.inl (hsize.trans hquiet)

theorem execute_request (hf : info.Full) (htidy : info.Cells (Cell.Tidy z))
    (hquiet : info.curr_msg_size = 0) (r : Request) :
    ∃ b info', execute z s r.command info = .ok (b, info') ∧ Sendable info' := by
  have hid : r.command.entity_id = some r.eid.toUInt16 := by cases r <;> rfl
  rcases execute_set (z := z) (s := s) hf hid (htidy.not_badHandle _) with ⟨-, hexec⟩ | ⟨-, mid, hexec, -, hsize, -⟩
  · exact ⟨_, _, hexec, Or.inl hquiet⟩
  · exact ⟨_, _, hexec, send_status_sendable mid (hsize.trans hquiet) _⟩

theorem handler_takes {query : query_t} (hne : query.payload.length ≠ 0) {b : Bool} {mid : node_t}
    (h : LCSF_TranscoderReceive z s query.payload node = .ok (b, mid)) (hs : Sendable mid.zdcInfo) :
    ∃ reply, zdc_cmd_handler z s query node =
      .ok (reply, { mid with zdcInfo := { mid.zdcInfo with curr_msg_size := 0 } }) := by
  by_cases hsize : mid.zdcInfo.curr_msg_size = 0
  · rw [handler_silent hne h hsize, ← hsize]
    exact ⟨none, rfl⟩
  · obtain ⟨msg, hreply⟩ := hs.resolve_left hsize
    have hnat : mid.zdcInfo.curr_msg_size.toNat ≠ 0 := fun h0 => hsize (UInt16.toNat_inj.mp h0)
    rw [zdc_info_t.reply, if_neg hnat] at hreply
    rw [handler_eq hne h, if_pos hnat, hreply, orFault_some, ok_bind]
    exact ⟨_, rfl⟩

theorem Ready.next {cmd : Command} {query : query_t} {reply : Option reply_t} {node' : node_t}
    {p : zdc_cmd_payload_t} (h : Ready z node) (hhanded : handed s query node = some (cmd.name, p))
    (hcarried : cmd.CarriedBy p) (hnarrow : p.entity_id < 256)
    (htidy : ∀ i c, c.Tidy z i → (cmd.act z i c).Tidy z i)
    (hhandler : zdc_cmd_handler z s query node = .ok (reply, node')) : Ready z node' := by
  have hd := Hands.stepped ⟨p, hhanded, hcarried⟩ h.full.toWF hhandler
  obtain ⟨r, mid, hmid, -, hquiet, hpayload⟩ := handler_mid (handed_some hhanded).1 hhandler
  refine ⟨hd.full h.full, hd.cells h.tidy fun i c _ => htidy i c, hquiet, ?_⟩
  rw [transcoder_eq z hhanded] at hmid
  obtain ⟨_, -, hmid⟩ := Result.bind_ok hmid
  cases hmid
  rw [hpayload]
  exact hnarrow

theorem delivered_handed (d : Delivery s) (h : Ready z node) : ∃ p,
    handed s d.query node = some (d.request.command.name, p) ∧ d.request.command.CarriedBy p ∧
      p.entity_id < 256 := by
  obtain ⟨zdcInfo, zdcInfo', hencode⟩ := d.encoded
  obtain ⟨hne, hreceive⟩ := Request.receive_encoded hencode
  obtain ⟨cmd, p, hsent, hname, hget, hcarried, hnarrow⟩ :=
    d.request.decoded s h.narrow zdcInfo.SendCmdPayload
  refine ⟨p, ?_, hcarried, hnarrow⟩
  simp only [handed, List.length_eq_zero_iff, hne, if_false, hreceive.trans hsent, hget, hname]

theorem deliver_stepped (d : Delivery s) (h : Ready z node) :
    Hands s d.request.command d.query node ∧ ∃ reply node', d.step z node = .ok (reply, node') ∧
      Ready z node' ∧ Stepped z d.request.command node.zdcInfo node'.zdcInfo := by
  obtain ⟨p, hhanded, hcarried, hnarrow⟩ := delivered_handed d h
  obtain ⟨b, info', hexec, hsendable⟩ := execute_request (s := s) h.full h.tidy h.quiet d.request
  have htranscoder : LCSF_TranscoderReceive z s d.query.payload node = .ok (b, ⟨info', p⟩) := by
    rw [transcoder_eq z hhanded, execute_of_carried hcarried, hexec]
    rfl
  obtain ⟨reply, hhandler⟩ := handler_takes (handed_some hhanded).1 htranscoder hsendable
  have hhands : Hands s d.request.command d.query node := ⟨p, hhanded, hcarried⟩
  exact ⟨hhands, reply, _, hhandler,
    h.next hhanded hcarried hnarrow (fun i c => tidy_act d.request) hhandler,
    hhands.stepped h.full.toWF hhandler⟩

theorem deliver_spec (d : Delivery s) (h : Ready z node) :
    ∃ reply node', d.step z node = .ok (reply, node') ∧ Ready z node' ∧
      node'.zdcInfo.abstract = d.request.apply node.zdcInfo.abstract := by
  obtain ⟨-, reply, node', hstep, hready, hstepped⟩ := deliver_stepped d h
  exact ⟨reply, node', hstep, hready, hstepped.abstract h.tidy⟩

/-! ## Runs -/

/-- Whatever the controller has sent and whatever of it arrives, the node's table is the fold of the
delivered requests. Its declarations are those of the table all along exactly when no request leaves
a subscriber or queryable on with a keyexpr that Zenoh refuses. -/
theorem table_is_fold (hstart : Started z info) (deliveries : List (Delivery s)) :
    (∃ node', Run.run (Delivery.step z) deliveries ⟨info, .zero⟩ = .ok node' ∧
      node'.zdcInfo.abstract = fold deliveries info.abstract) ∧
    (Run.Always (Delivery.step z) (fun node => node.zdcInfo.Declares node.zdcInfo.abstract) deliveries
        ⟨info, .zero⟩ ↔
      ∀ delivered, delivered <+: deliveries → Taken z (fold delivered info.abstract)) := by
  have hsim : ∀ ds : List (Delivery s), ∃ node', Run.run (Delivery.step z) ds ⟨info, .zero⟩ = .ok node' ∧
      Ready z node' ∧ node'.zdcInfo.abstract = fold ds info.abstract := fun ds =>
    Run.run_simulates (I := Ready z) (fun node => node.zdcInfo.abstract) (fun m d => d.request.apply m)
      (fun d node hready => deliver_spec d hready) ds _ hstart.ready
  refine ⟨?_, ?_⟩
  · obtain ⟨node', hrun, -, hfold⟩ := hsim deliveries
    exact ⟨node', hrun, hfold⟩
  · rw [Run.always_iff_prefix]
    refine forall₂_congr fun ds hds => ?_
    obtain ⟨node', hrun, hready, hfold⟩ := hsim ds
    rw [← hfold, ← declares_iff_taken hready.full.toWF hready.tidy]
    constructor
    · exact fun h => h node' hrun
    · intro h t ht
      rw [hrun] at ht
      exact Except.ok.inj ht ▸ h

theorem table_is_fold_reordered : ∃ info, Started World.acceptAll info ∧
    ∃ renamed switched : Delivery World.stack,
      renamed.request = .keyexpr 1 (World.str [0x62]) ∧ switched.request = .state 1 false ∧
      (∃ node', Run.run (Delivery.step World.acceptAll) [switched, renamed] ⟨info, .zero⟩ = .ok node' ∧
        node'.zdcInfo.abstract = fold [switched, renamed] info.abstract) ∧
      Run.Always (Delivery.step World.acceptAll)
        (fun node => node.zdcInfo.Declares node.zdcInfo.abstract) [switched, renamed] ⟨info, .zero⟩ := by
  obtain ⟨info, -, h⟩ := setup_started World.acceptAll 64 (World.str [0x7a])
    [.sub true (World.str [0x61]) none (.application 0)] (by decide)
  let renamed : Delivery World.stack := ⟨.keyexpr 1 (World.str [0x62]), ⟨_, true⟩, .zero, _, rfl⟩
  let switched : Delivery World.stack := ⟨.state 1 false, ⟨_, true⟩, .zero, _, rfl⟩
  obtain ⟨hrun, hiff⟩ := table_is_fold h [switched, renamed]
  exact ⟨info, h, renamed, switched, rfl, rfl, hrun, hiff.mpr fun _ _ _ _ _ _ _ _ => rfl⟩

/-- The keyexpr `a//b` for a subscriber that is on stands in the table, and nothing is declared. -/
theorem refused_keyexpr_not_declared : ∃ info msg zdcInfo' reply node',
    setup World.noEmptyChunk 1 64 (World.str [0x7a])
      [.sub true (World.str [0x61]) none (.application 0)] = .ok info ∧
    A.zdc_encode_keyexpr World.stack 1 (World.str [0x61, 0x2f, 0x2f, 0x62]) .zero =
      .ok (some msg, zdcInfo') ∧
    zdc_cmd_handler World.noEmptyChunk World.stack ⟨msg, true⟩ ⟨info, .zero⟩ = .ok (reply, node') ∧
    node'.zdcInfo.abstract 1 = some ⟨.ZDC_TYPE_SUB, true, World.str [0x61, 0x2f, 0x2f, 0x62]⟩ ∧
    part Decl.entity 1 node'.zdcInfo.session = 0 :=
  ⟨_, _, _, _, _, rfl, rfl, rfl, rfl, rfl⟩

end B

end ZdcPoc
