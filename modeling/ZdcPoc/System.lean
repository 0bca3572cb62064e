import ZdcPoc.Code.System
import ZdcPoc.CommandLine
import ZdcPoc.Dispatch
import ZdcPoc.Lib.Linear
import ZdcPoc.Lib.Pool
import ZdcPoc.Report

/-!
# Any number of controllers

Controllers run at the same time, and their messages pass each other or are lost. Still each of them sees
the node as if all requests had come one after the other.
-/

namespace ZdcPoc

/-! ## One controller at a time -/

/-- What a controller asks the node for. -/
inductive Ask where
  | set (r : Request)
  | list
deriving DecidableEq, Repr

def Entity.text (e : Entity) : A.entity_text :=
  ⟨A.ZDC_TYPE_TO_STR.getD e.type.toUInt8.toNat "", if e.on then "on" else "off", e.keyexpr.chars⟩

namespace Ask

def apply (m : EntityMap) : Ask → EntityMap
  | set r => r.apply m
  | list => m

def command : Ask → B.Command
  | set r => r.command
  | list => .list_entities_req

/-- What is printed, of `nb` entities. Only the state of entity 0 is not to be set. -/
def answer (nb : Nat) (m : EntityMap) : Ask → Option A.printed_t
  | set (.state eid _) => if eid.toNat < nb then some (.cmd_status (eid ≠ 0)) else none
  | set (.keyexpr eid _) => if eid.toNat < nb then some (.cmd_status true) else none
  | list => some (.entities nb ((List.range nb).filterMap fun i => (m i).map Entity.text))

/-- The message is one that the controller encodes for this. -/
def Sends (s : LcsfStack) (payload : List UInt8) : Ask → Prop
  | set r => ∃ a a', r.encode s a = .ok (some payload, a')
  | list => ∃ a a', A.zdc_encode_list_entity s a = .ok (some payload, a')

/-- The request is of an entity that there is, and the send buffer holds the response. -/
def Answerable (s : LcsfStack) (info : B.zdc_info_t) : Ask → Prop
  | set r => r.eid.toNat < info.el_size.toNat ∧ s.Fits (B.statusCmd r.command.status) info.buff_size.toNat
  | list => s.Fits (B.listCmd info.records info.el_size.toNat) info.buff_size.toNat

end Ask

def table (nb : Nat) : Linear.Object EntityMap Ask A.printed_t := ⟨Ask.apply, Ask.answer nb⟩

namespace Tx

/-- What the command line asks for, if anything. -/
def asked (argv : List opt_t) : Option Ask :=
  match getopt_loop argv .init with
  | .ok args => if args.cmd = some CMD_ENTITY then some .list else (request args).map .set
  | .error _ => none

variable {s : LcsfStack} {argv : List opt_t} {args : args_t} {r : Request} {get : z_get_t}

theorem request_cmd (h : request args = some r) : args.cmd ≠ some CMD_ENTITY := by
  intro hentity
  unfold request at h
  obtain ⟨cmd, hcmd, h⟩ := Option.bind_eq_some_iff.mp h
  obtain ⟨value, -, h⟩ := Option.bind_eq_some_iff.mp h
  rw [hentity] at hcmd
  cases hcmd
  rw [if_neg (by decide), if_neg (by decide)] at h
  cases h

theorem send_command_sent {buffer : Option (List UInt8)} {status : Int}
    (h : send_command args buffer = (status, some get)) : buffer = some get.payload := by
  unfold send_command at h
  split at h
  · cases h
  · split at h <;> cases h
    rfl

theorem main_asked (s : LcsfStack) (argv : List opt_t) : ∃ status sent, main s argv = .ok (status, sent) ∧
    ∀ get, sent = some get → ∃ ask, asked argv = some ask ∧ ask.Sends s get.payload := by
  cases hargs : getopt_loop argv .init with
  | error status => exact ⟨status, none, by rw [main, hargs]; rfl, nofun⟩
  | ok args =>
    rw [main_eq s hargs]
    rcases process_cases s args with ⟨r, buffer, a', hr, hencode, hrun⟩ |
      ⟨hentity, buffer, a', hencode, hrun⟩ | ⟨-, status, hrun⟩
    · refine ⟨_, _, hrun, fun get hget => ⟨.set r, ?_, ?_⟩⟩
      · simp only [asked, hargs, if_neg (request_cmd hr), hr, Option.map_some]
      · rw [send_command_sent (Prod.ext rfl hget)] at hencode
        exact ⟨_, _, hencode⟩
    · refine ⟨_, _, hrun, fun get hget => ⟨.list, ?_, ?_⟩⟩
      · simp only [asked, hargs, if_pos hentity]
      · rw [send_command_sent (Prod.ext rfl hget)] at hencode
        exact ⟨_, _, hencode⟩
    · exact ⟨status, none, hrun, nofun⟩

end Tx

/-- What is printed of a reply of a node with `nb` entities, when no high byte is left of an earlier one. -/
def Tx.Prints (s : LcsfStack) (nb : Nat) (value : List UInt8) (shown : A.printed_t) : Prop :=
  ∀ p : zdc_cmd_payload_t, p.entity_nb / 256 = 0 → ∃ p', Tx.reply_handler s (some value) p = .ok (shown, p') ∧
    (nb < 256 → p'.entity_nb / 256 = 0)

/-! ## One request -/

namespace B

open zdc_info_t

variable {z : Zenoh} {s : LcsfStack} {info : zdc_info_t} {node node' : node_t} {i : Nat} {c : Cell}
  {payload : List UInt8} {ask : Ask}

theorem Cell.Tidy.text (h : c.Tidy z i) : c.abstract.map Entity.text = some c.entity.text := by
  rw [h.abstract, Option.map_some, Entity.text, zdc_entity_t.text]
  rcases h.state with hs | hs <;> simp only [zdc_entity_t.isOn, hs] <;> rfl

theorem table_text (hf : info.Full) (ht : info.Cells (Cell.Tidy z)) : info.text =
    .entities info.el_size.toNat
      ((List.range info.el_size.toNat).filterMap fun i => (info.abstract i).map Entity.text) := by
  have hcell : ∀ i ∈ List.range info.el_size.toNat, (info.abstract i).map Entity.text =
      some (info.entities.getD i fresh_slot).text := by
    intro i hi
    rw [List.mem_range, ← hf.entities_length] at hi
    obtain ⟨c, hc, he⟩ := hf.cell_of_lt hi
    rw [zdc_info_t.abstract, hc, Option.bind_some, (ht i c hc).text, List.getD_eq_getElem?_getD,
      List.getElem?_eq_getElem hi, Option.getD_some, he]
  rw [zdc_info_t.text, List.filterMap_congr hcell, A.printed_t.entities.injEq]
  refine ⟨rfl, ?_⟩
  apply List.ext_getElem?
  intro i
  rw [List.filterMap_eq_map', ← hf.entities_length]
  rcases Nat.lt_or_ge i info.entities.length with hi | hi
  · simp [hi]
  · simp [hi]

theorem deliver_replies (d : Delivery s) (h : Ready z node) {reply : Option reply_t}
    (hstep : d.step z node = .ok (reply, node')) :
    (reply.isSome ↔ (Ask.set d.request).Answerable s node.zdcInfo) ∧
      ∀ rep, reply = some rep → s.wire (statusCmd d.request.command.status) = some rep.bytes := by
  obtain ⟨p, hhanded, hcarried, -⟩ := delivered_handed d h
  have hne := (handed_some hhanded).1
  have hid : d.request.command.entity_id = some d.request.eid.toUInt16 := by cases d.request <;> rfl
  have htranscoder : ∀ r info', execute z s d.request.command node.zdcInfo = .ok (r, info') →
      LCSF_TranscoderReceive z s d.query.payload node = .ok (r, ⟨info', p⟩) := by
    intro r info' hexec
    rw [transcoder_eq z hhanded, execute_of_carried hcarried, hexec]
    rfl
  have hsilent : ∀ r info', execute z s d.request.command node.zdcInfo = .ok (r, info') →
      info'.curr_msg_size = 0 → reply = none := by
    intro r info' hexec hquiet
    rw [Delivery.step, handler_silent hne (htranscoder r info' hexec) hquiet] at hstep
    cases hstep
    rfl
  rcases execute_set (z := z) (s := s) h.full hid (Cells.not_badHandle h.tidy _) with
    ⟨hge, hexec⟩ | ⟨hlt, mid, hexec, hbuff, hsize, hmid⟩
  · rw [UInt8.toNat_toUInt16] at hge
    rw [hsilent _ _ hexec h.quiet]
    exact ⟨iff_of_false (by simp) fun hanswer => absurd hanswer.1 (Nat.not_lt.mpr hge), nofun⟩
  · rw [UInt8.toNat_toUInt16] at hlt
    by_cases hfit : s.Fits (statusCmd d.request.command.status) node.zdcInfo.buff_size.toNat
    · obtain ⟨msg, hwire, hhandler⟩ := handler_waits hne (htranscoder _ _ hexec)
        (waits_status hbuff hfit fun hst => by
          rw [hmid fun hok => hst (congrArg statusCmd hok)]
          exact .refl _)
      rw [Delivery.step, hhandler] at hstep
      cases hstep
      refine ⟨iff_of_true rfl ⟨hlt, hfit⟩, ?_⟩
      rintro rep ⟨⟩
      exact hwire
    · obtain ⟨q, hq⟩ := send_status_eq s mid d.request.command.status
      have hquiet := (send_not_fits (s := s) { mid with SendCmdPayload := q } (hbuff ▸ hfit)).2
      rw [← hq] at hquiet
      rw [hsilent _ _ hexec (hquiet.trans (hsize.trans h.quiet))]
      exact ⟨iff_of_false (by simp) fun hanswer => hfit hanswer.2, nofun⟩

theorem answer_set (r : Request) {nb : Nat} (hlt : r.eid.toNat < nb) (m : EntityMap) :
    (Ask.set r).answer nb m = some (.cmd_status (r.command.status = 0)) := by
  cases r with
  | keyexpr eid suffix => exact if_pos hlt
  | state eid on =>
    rw [Request.eid] at hlt
    rw [Ask.answer, if_pos hlt, Request.command, Command.status, UInt8.toNat_toUInt16]
    by_cases h0 : eid.toNat = 0
    · have hzero : eid = 0 := UInt8.toNat_inj.mp h0
      rw [if_pos h0, hzero]
      rfl
    · have hne : eid ≠ 0 := fun he => h0 (congrArg UInt8.toNat he)
      simp [h0, hne, ZDC_STATUS_OK]

/-- A list that comes now is written inside its buffer, and read where it was written. -/
def zdc_info_t.Listable (info : zdc_info_t) : Prop :=
  info.records.length ≤ 64 * info.el_size.toNat ∧ ∀ e ∈ info.entities, e.ke_size ≤ 255

theorem list_steps (hw : info.WF) {info' : zdc_info_t} (hsame : SameTable info info') :
    Stepped z .list_entities_req info info' :=
  .of_same hw hsame fun _ _ _ => rfl

theorem Stepped.same_abstract {info' : zdc_info_t} (h : Stepped z .list_entities_req info info') :
    info'.abstract = info.abstract := by
  funext i
  rw [zdc_info_t.abstract, h.cell, zdc_info_t.abstract]
  cases info.cell i <;> rfl

theorem list_sends (h : Ask.list.Sends s payload) : payload ≠ [] ∧ s.receive payload = some ⟨0x0, none⟩ := by
  obtain ⟨a, a', hencode⟩ := h
  exact Request.list_sent hencode

theorem states_known (hf : info.Full) (ht : info.Cells (Cell.Tidy z)) :
    ∀ e ∈ info.entities, e.StateKnown := by
  intro e he
  obtain ⟨i, hi, rfl⟩ := List.mem_iff_getElem.mp he
  obtain ⟨c, hc, hce⟩ := hf.cell_of_lt hi
  rw [← hce]
  rcases (ht i c hc).state with hs | hs
  · exact (stateKnown_toInt8 (b := 0) hs).mpr (by decide)
  · exact (stateKnown_toInt8 (b := 1) hs).mpr (by decide)

theorem ask_handled (h : Ready z node) (hserved : Served z node.zdcInfo) (hsends : ask.Sends s payload)
    (reply_ok : Bool) (hlist : ask = .list → node.zdcInfo.Listable) :
    ∃ reply node', zdc_cmd_handler z s ⟨payload, reply_ok⟩ node = .ok (reply, node') ∧ Ready z node' ∧
      Stepped z ask.command node.zdcInfo node'.zdcInfo ∧
      node'.zdcInfo.abstract = ask.apply node.zdcInfo.abstract ∧
      (reply.isSome ↔ ask.Answerable s node.zdcInfo) ∧
      ∀ rep, reply = some rep → ∃ shown, Tx.Prints s node.zdcInfo.el_size.toNat rep.bytes shown ∧
        ask.answer node.zdcInfo.el_size.toNat node.zdcInfo.abstract = some shown := by
  cases ask with
  | set r =>
    obtain ⟨a, a', hencode⟩ := hsends
    let d : Delivery s := ⟨r, ⟨payload, reply_ok⟩, a, a', hencode⟩
    obtain ⟨-, reply, node', hstep, hready, hd⟩ := deliver_stepped d h
    obtain ⟨hanswers, hwire⟩ := deliver_replies d h hstep
    refine ⟨reply, node', hstep, hready, hd, hd.abstract h.tidy, hanswers, ?_⟩
    rintro rep rfl
    refine ⟨_, fun p hp => ?_, answer_set r (hanswers.mp rfl).1 _⟩
    obtain ⟨p', hprinted, hnb⟩ := Tx.status_printed (hwire rep rfl) p
    exact ⟨p', hprinted, fun _ => by rwa [hnb]⟩
  | list =>
    obtain ⟨hne, hreceive⟩ := list_sends hsends
    obtain ⟨hroom, hsize⟩ := hlist rfl
    obtain ⟨reply, node', hhandler, hsame, hfits, hwire⟩ := list_handled ⟨hserved, h.quiet⟩
      (show (⟨payload, reply_ok⟩ : query_t).payload ≠ [] from hne) hreceive hroom
    have hd := list_steps (z := z) h.full.toWF hsame
    refine ⟨reply, node', hhandler, Tx.list_ready h hne hreceive hhandler, hd, hd.same_abstract, hfits, ?_⟩
    refine fun rep hrep => ⟨node.zdcInfo.text, fun p hp => ?_, by rw [table_text h.full h.tidy]; rfl⟩
    obtain ⟨hcompletes, hshown⟩ := list_printed_iff h.full hroom hsize (Or.inr hp) (hwire rep hrep)
    obtain ⟨⟨shown, p'⟩, hprinted⟩ := hcompletes.mpr (states_known h.full h.tidy)
    obtain ⟨rfl, hnb⟩ := hshown shown p' hprinted
    exact ⟨p', hprinted, fun hlt => by rw [hnb, Nat.div_eq_of_lt hlt]⟩

end B

/-! ## The whole system -/

namespace System

open Linear B

variable {net : Net} {s : LcsfStack} {rs : List Registration} {info : zdc_info_t} {m₀ : EntityMap}
  {hist : List (Event Nat Ask A.printed_t)} {done : List (Nat × Ask)} {sys : system_t} {k n : Nat}
  {zdc_suffix : CString}

def output_t.event : output_t → Option (Event Nat Ask A.printed_t)
  | .silent => none
  | .invoked n argv => (Tx.asked argv).map (.call n)
  | .printed n shown => some (.ret n shown)

/-- What the users of the controllers see. -/
def history (os : List output_t) : List (Event Nat Ask A.printed_t) := os.filterMap output_t.event

/-- The query that comes is no list, or one that the node and the controllers can deal with. -/
def ListsWell (s : LcsfStack) (event : event_t) (sys : system_t) : Prop :=
  ∀ k reply_ok n get, event = .arrive k reply_ok → sys.queries[k]? = some (n, get) →
    s.receive get.payload = some ⟨0x0, none⟩ → sys.node.zdcInfo.Listable

/-- `done` are the requests that the node has carried out. A query on its way is of none of them, and a
reply on its way is the answer that one of them had. -/
structure NodeInv (net : Net) (s : LcsfStack) (rs : List Registration) (m₀ : EntityMap)
    (hist : List (Event Nat Ask A.printed_t)) (done : List (Nat × Ask)) (sys : system_t) : Prop where
  ready : Ready net.toZenoh sys.node
  reached : Reached net.toZenoh rs sys.node
  nb : sys.node.zdcInfo.el_size.toNat = rs.length + 1
  linearizes : Linearizes (table (rs.length + 1)) m₀ hist done
  abstract : sys.node.zdcInfo.abstract = (table (rs.length + 1)).after m₀ done
  numbered : ∀ n ask, .call n ask ∈ hist → n < sys.controllers.length
  queries : ∀ q ∈ sys.queries, q.1 ∉ done.map Prod.fst ∧ ∃ ask, .call q.1 ask ∈ hist ∧ ask.Sends s q.2.payload
  queries_nodup : (sys.queries.map Prod.fst).Nodup
  replies : ∀ r ∈ sys.replies, (∀ shown, .ret r.1 shown ∉ hist) ∧ ∃ shown,
    Tx.Prints s (rs.length + 1) r.2 shown ∧ (table (rs.length + 1)).Answers m₀ done r.1 shown
  replies_nodup : (sys.replies.map Prod.fst).Nodup

/-- A process that has no reply yet has its payload as at the start. -/
structure Inv (net : Net) (s : LcsfStack) (rs : List Registration) (m₀ : EntityMap)
    (hist : List (Event Nat Ask A.printed_t)) (done : List (Nat × Ask)) (sys : system_t) : Prop
    extends NodeInv net s rs m₀ hist done sys where
  fresh : ∀ n, (∀ shown, .ret n shown ∉ hist) → sys.controllers.getD n .zero = .zero

theorem getD_concat (controllers : List zdc_cmd_payload_t) (n : Nat) :
    (controllers ++ [zdc_cmd_payload_t.zero]).getD n .zero = controllers.getD n .zero := by
  rw [List.getD_eq_getElem?_getD, List.getD_eq_getElem?_getD]
  rcases Nat.lt_trichotomy n controllers.length with hlt | heq | hgt
  · rw [List.getElem?_append_left hlt]
  · rw [heq, List.getElem?_concat_length, List.getElem?_eq_none (Nat.le_refl _)]
    rfl
  · rw [List.getElem?_eq_none (by rw [List.length_append, List.length_singleton]; omega),
      List.getElem?_eq_none (by omega)]

/-! ### What each event keeps -/

theorem NodeInv.lose_query (h : NodeInv net s rs m₀ hist done sys) (k : Nat) :
    NodeInv net s rs m₀ hist done { sys with queries := sys.queries.eraseIdx k } :=
  { h with
    queries := fun q hq => h.queries q (Pool.mem_of_eraseIdx hq)
    queries_nodup := Pool.nodup_eraseIdx h.queries_nodup k }

theorem NodeInv.lose_reply (h : NodeInv net s rs m₀ hist done sys) (k : Nat) :
    NodeInv net s rs m₀ hist done { sys with replies := sys.replies.eraseIdx k } :=
  { h with
    replies := fun r hr => h.replies r (Pool.mem_of_eraseIdx hr)
    replies_nodup := Pool.nodup_eraseIdx h.replies_nodup k }

theorem NodeInv.spawn (h : NodeInv net s rs m₀ hist done sys) :
    NodeInv net s rs m₀ hist done { sys with controllers := sys.controllers ++ [.zero] } :=
  { h with
    numbered := fun n ask hcall => by
      rw [List.length_append]
      exact Nat.lt_add_right _ (h.numbered n ask hcall) }

theorem NodeInv.controllers {controllers : List zdc_cmd_payload_t} (h : NodeInv net s rs m₀ hist done sys)
    (hlength : controllers.length = sys.controllers.length) :
    NodeInv net s rs m₀ hist done { sys with controllers } :=
  { h with numbered := fun n ask hcall => hlength ▸ h.numbered n ask hcall }

theorem NodeInv.send {ask : Ask} {get : Tx.z_get_t} (h : NodeInv net s rs m₀ hist done sys)
    (hsends : ask.Sends s get.payload) : NodeInv net s rs m₀ (hist ++ [.call sys.controllers.length ask]) done
      { sys with controllers := sys.controllers ++ [.zero]
                 queries := sys.queries ++ [(sys.controllers.length, get)] } := by
  have hnew : ∀ a, .call sys.controllers.length a ∉ hist :=
    fun a hcall => Nat.lt_irrefl _ (h.numbered _ a hcall)
  have hret : ∀ n shown, .ret n shown ∈ hist ++ [.call sys.controllers.length ask] → .ret n shown ∈ hist := by
    intro n shown hmem
    rcases List.mem_append.mp hmem with hmem | hmem
    · exact hmem
    · cases List.mem_singleton.mp hmem
  refine ⟨h.ready, h.reached, h.nb, h.linearizes.call hnew, h.abstract, fun n a hcall => ?_,
    fun q hq => ?_, ?_, fun r hr => ?_, h.replies_nodup⟩
  · rw [List.length_append, List.length_singleton]
    rcases List.mem_append.mp hcall with hcall | hcall
    · exact Nat.lt_add_right _ (h.numbered n a hcall)
    · cases List.mem_singleton.mp hcall
      exact Nat.lt_succ_self _
  · rcases List.mem_append.mp hq with hq | hq
    · obtain ⟨hplace, a, hcall, hpayload⟩ := h.queries q hq
      exact ⟨hplace, a, List.mem_append_left _ hcall, hpayload⟩
    · cases List.mem_singleton.mp hq
      refine ⟨fun hdone => ?_, ask, List.mem_append_right _ List.mem_cons_self, hsends⟩
      obtain ⟨d, hd, (hnumber : d.1 = sys.controllers.length)⟩ := List.mem_map.mp hdone
      exact hnew d.2 (hnumber ▸ h.linearizes.called d hd)
  · rw [List.map_append]
    refine h.queries_nodup.append (List.nodup_singleton _) (List.disjoint_singleton.mpr fun hmem => ?_)
    obtain ⟨q, hq, (hnumber : q.1 = sys.controllers.length)⟩ := List.mem_map.mp hmem
    obtain ⟨-, a, hcall, -⟩ := h.queries q hq
    exact hnew a (hnumber ▸ hcall)
  · obtain ⟨hno, hanswer⟩ := h.replies r hr
    exact ⟨fun shown hmem => hno shown (hret _ _ hmem), hanswer⟩

theorem mem_sent {reply : Option reply_t} {r : Nat × List UInt8}
    (h : r ∈ (reply.toList.filter (·.delivered)).map fun reply => (n, reply.bytes)) :
    ∃ rep, reply = some rep ∧ r = (n, rep.bytes) := by
  obtain ⟨rep, hrep, rfl⟩ := List.mem_map.mp h
  exact ⟨rep, Option.mem_toList.mp (List.mem_of_mem_filter hrep), rfl⟩

theorem sent_nodup (reply : Option reply_t) : (((reply.toList.filter (·.delivered)).map
    fun reply => (n, reply.bytes)).map Prod.fst).Nodup := by
  cases reply with
  | none => exact List.nodup_nil
  | some rep => cases h : rep.delivered <;> simp [h]

theorem NodeInv.carry_out {get : Tx.z_get_t} {ask : Ask} {reply : Option reply_t} {node : node_t}
    (h : NodeInv net s rs m₀ hist done sys) (hq : sys.queries[k]? = some (n, get)) (hcall : .call n ask ∈ hist)
    (hplace : n ∉ done.map Prod.fst) (hready : Ready net.toZenoh node) (hreached : Reached net.toZenoh rs node)
    (hd : Stepped net.toZenoh ask.command sys.node.zdcInfo node.zdcInfo)
    (habs : node.zdcInfo.abstract = ask.apply sys.node.zdcInfo.abstract)
    (hanswers : ∀ rep, reply = some rep → ∃ shown, Tx.Prints s sys.node.zdcInfo.el_size.toNat rep.bytes shown ∧
      ask.answer sys.node.zdcInfo.el_size.toNat sys.node.zdcInfo.abstract = some shown) :
    NodeInv net s rs m₀ hist (done ++ [(n, ask)]) { sys with
      node, queries := sys.queries.eraseIdx k
      replies := sys.replies ++ (reply.toList.filter (·.delivered)).map fun reply => (n, reply.bytes) } := by
  have hmem : ∀ {m : Nat}, m ∈ (done ++ [(n, ask)]).map Prod.fst ↔ m ∈ done.map Prod.fst ∨ m = n := by
    simp
  refine ⟨hready, hreached, by rw [hd.el_size]; exact h.nb, h.linearizes.place hcall hplace,
    ?_, h.numbered, fun q hmemq => ?_, Pool.nodup_eraseIdx h.queries_nodup k, fun r hr => ?_, ?_⟩
  · rw [Object.after_concat, ← h.abstract]
    exact habs
  · obtain ⟨hq', hask⟩ := h.queries q (Pool.mem_of_eraseIdx hmemq)
    exact ⟨fun hdone => (hmem.mp hdone).elim hq' (Pool.eraseIdx_other h.queries_nodup hq hmemq), hask⟩
  · rcases List.mem_append.mp hr with hr | hr
    · obtain ⟨hno, shown, hprints, hanswer⟩ := h.replies r hr
      exact ⟨hno, shown, hprints, hanswer.concat⟩
    · obtain ⟨rep, rfl, rfl⟩ := mem_sent hr
      obtain ⟨shown, hprints, hanswer⟩ := hanswers rep rfl
      rw [h.nb] at hprints
      rw [h.nb, h.abstract] at hanswer
      refine ⟨fun shown' hret => hplace (h.linearizes.answers n shown' hret).mem, shown, hprints, ?_⟩
      exact Object.answers_last hanswer
  · rw [List.map_append]
    refine h.replies_nodup.append (sent_nodup reply) fun m hold hnew => ?_
    obtain ⟨r, hr, rfl⟩ := List.mem_map.mp hold
    obtain ⟨-, shown, -, hanswer⟩ := h.replies r hr
    obtain ⟨r', hr', heq⟩ := List.mem_map.mp hnew
    obtain ⟨rep, -, rfl⟩ := mem_sent hr'
    have hn : n = r.1 := heq
    exact hplace (hn ▸ hanswer.mem)

theorem NodeInv.arrive {get : Tx.z_get_t} (h : NodeInv net s rs m₀ hist done sys) (hq : sys.queries[k]? = some (n, get))
    (hwell : s.receive get.payload = some ⟨0x0, none⟩ → sys.node.zdcInfo.Listable) (reply_ok : Bool) :
    ∃ replies node, dispatch net s get.keyexpr ⟨get.payload, reply_ok⟩ sys.node = .ok (replies, node) ∧
      (node = sys.node ∨ ∃ ask, .call n ask ∈ hist ∧
        Stepped net.toZenoh ask.command sys.node.zdcInfo node.zdcInfo) ∧
      ∃ done', NodeInv net s rs m₀ hist done' { sys with
        node, queries := sys.queries.eraseIdx k
        replies := sys.replies ++ (replies.filter (·.delivered)).map fun reply => (n, reply.bytes) } := by
  obtain ⟨hplace, ask, hcall, hsends⟩ := h.queries _ (List.mem_of_getElem? hq)
  obtain ⟨c, -, hdispatch⟩ := h.reached.runs_once (s := s) ⟨get.keyexpr, ⟨get.payload, reply_ok⟩⟩
  change dispatch net s get.keyexpr ⟨get.payload, reply_ok⟩ sys.node = _ at hdispatch
  by_cases hreaches : net.accepts c.entity.keyexpr = true ∧ net.intersects get.keyexpr c.entity.keyexpr = true
  · rw [if_pos hreaches] at hdispatch
    obtain ⟨reply, node, hhandler, hready, hd, habs, -, hanswers⟩ := ask_handled (s := s) h.ready h.reached.served
      hsends reply_ok fun hlist => hwell (list_sends (hlist ▸ hsends)).2
    rw [hhandler] at hdispatch
    have hreached : Reached net.toZenoh rs node := h.reached.arrive
      (show B.arrive net s ⟨get.keyexpr, ⟨get.payload, reply_ok⟩⟩ sys.node = .ok (reply.toList, node)
        from hdispatch)
    exact ⟨reply.toList, node, hdispatch, Or.inr ⟨ask, hcall, hd⟩, _,
      h.carry_out hq hcall hplace hready hreached hd habs hanswers⟩
  · rw [if_neg hreaches] at hdispatch
    refine ⟨[], sys.node, hdispatch, Or.inl rfl, done, ?_⟩
    have := h.lose_query k
    rwa [List.filter_nil, List.map_nil, List.append_nil]

theorem NodeInv.report {value : List UInt8} {shown : A.printed_t} (h : NodeInv net s rs m₀ hist done sys)
    (hr : sys.replies[k]? = some (n, value)) (hanswer : (table (rs.length + 1)).Answers m₀ done n shown)
    (p : zdc_cmd_payload_t) : NodeInv net s rs m₀ (hist ++ [.ret n shown]) done
      { sys with controllers := sys.controllers.set n p, replies := sys.replies.eraseIdx k } := by
  have hno := (h.replies _ (List.mem_of_getElem? hr)).1
  have hcall : ∀ m a, .call m a ∈ hist ++ [.ret n shown] → .call m a ∈ hist := by
    intro m a hmem
    rcases List.mem_append.mp hmem with hmem | hmem
    · exact hmem
    · cases List.mem_singleton.mp hmem
  refine ⟨h.ready, h.reached, h.nb, h.linearizes.ret hanswer hno, h.abstract, fun m a hmem => ?_,
    fun q hq => ?_, h.queries_nodup, fun r hmemr => ?_, Pool.nodup_eraseIdx h.replies_nodup k⟩
  · rw [List.length_set]
    exact h.numbered m a (hcall m a hmem)
  · obtain ⟨hq', a, hmem, hsends⟩ := h.queries q hq
    exact ⟨hq', a, List.mem_append_left _ hmem, hsends⟩
  · obtain ⟨hno', hanswer'⟩ := h.replies r (Pool.mem_of_eraseIdx hmemr)
    refine ⟨fun shown' hmem => ?_, hanswer'⟩
    rcases List.mem_append.mp hmem with hmem | hmem
    · exact hno' shown' hmem
    · cases List.mem_singleton.mp hmem
      exact Pool.eraseIdx_other h.replies_nodup hr hmemr rfl

theorem Inv.report {value : List UInt8} (h : Inv net s rs m₀ hist done sys)
    (hr : sys.replies[k]? = some (n, value)) : ∃ shown p',
      Tx.reply_handler s (some value) (sys.controllers.getD n .zero) = .ok (shown, p') ∧
      Inv net s rs m₀ (hist ++ [.ret n shown]) done
        { sys with controllers := sys.controllers.set n p', replies := sys.replies.eraseIdx k } := by
  obtain ⟨hno, shown, hprints, hanswer⟩ := h.replies _ (List.mem_of_getElem? hr)
  obtain ⟨p', hprinted, -⟩ := hprints .zero rfl
  refine ⟨shown, p', by rwa [h.fresh n hno], h.toNodeInv.report hr hanswer p', fun m hret => ?_⟩
  have hne : n ≠ m := by
    rintro rfl
    exact hret shown (List.mem_append_right _ List.mem_cons_self)
  rw [List.getD_eq_getElem?_getD, List.getElem?_set_ne hne, ← List.getD_eq_getElem?_getD]
  exact h.fresh m fun shown' hmem => hret shown' (List.mem_append_left _ hmem)

/-! ### Runs -/

theorem history_concat (os : List output_t) (o : output_t) :
    history (os ++ [o]) = history os ++ o.event.toList := by
  rw [history, List.filterMap_append, ← history]
  cases h : o.event <;> simp [h]

/-- What an event does to the node, and which request it adds to the history. -/
structure Changes (net : Net) (hist : List (Event Nat Ask A.printed_t)) (event : event_t) (sys : system_t)
    (o : output_t) (sys' : system_t) : Prop where
  node : sys'.node = sys.node ∨ ∃ n ask, .call n ask ∈ hist ∧
    Stepped net.toZenoh ask.command sys.node.zdcInfo sys'.node.zdcInfo
  calls : ∀ n ask, .call n ask ∈ o.event.toList → ∃ argv, event = .invoke argv ∧ Tx.asked argv = some ask

theorem Changes.silent {event : event_t} {sys' : system_t} (hnode : sys'.node = sys.node) :
    Changes net hist event sys .silent sys' :=
  ⟨Or.inl hnode, by simp [output_t.event]⟩

/-- The event is dealt with, and the invariant is kept. -/
def Goes (net : Net) (s : LcsfStack) (rs : List Registration) (m₀ : EntityMap)
    (hist : List (Event Nat Ask A.printed_t)) (event : event_t) (sys : system_t) : Prop :=
  ∃ o sys', step net s event sys = .ok (o, sys') ∧
    (∃ done', Inv net s rs m₀ (hist ++ o.event.toList) done' sys') ∧ Changes net hist event sys o sys'

theorem Inv.silent {event : event_t} {sys' : system_t} (h : Inv net s rs m₀ hist done sys')
    (hstep : System.step net s event sys = .ok (.silent, sys')) (hchanges : Changes net hist event sys .silent sys') :
    Goes net s rs m₀ hist event sys := by
  refine ⟨.silent, sys', hstep, ⟨done, ?_⟩, hchanges⟩
  rwa [output_t.event, Option.toList_none, List.append_nil]

theorem Inv.invoke (h : Inv net s rs m₀ hist done sys) (argv : List Tx.opt_t) :
    Goes net s rs m₀ hist (.invoke argv) sys := by
  obtain ⟨status, sent, hmain, hsent⟩ := Tx.main_asked s argv
  cases sent with
  | none =>
    have hspawn : Inv net s rs m₀ hist done { sys with controllers := sys.controllers ++ [.zero] } :=
      ⟨h.toNodeInv.spawn, fun n hno => (getD_concat ..).trans (h.fresh n hno)⟩
    exact hspawn.silent (by rw [step, hmain]; rfl) (.silent rfl)
  | some get =>
    obtain ⟨ask, hask, hsends⟩ := hsent get rfl
    have hevent : (output_t.invoked sys.controllers.length argv).event =
        some (.call sys.controllers.length ask) := by rw [output_t.event, hask, Option.map_some]
    refine ⟨.invoked sys.controllers.length argv, _, by rw [step, hmain]; rfl,
      ⟨done, ?_⟩, Or.inl ?_, fun n a hcall => ?_⟩
    · rw [hevent]
      exact ⟨h.toNodeInv.send hsends, fun n hno =>
        (getD_concat ..).trans (h.fresh n fun shown hret => hno shown (List.mem_append_left _ hret))⟩
    · rfl
    · rw [hevent] at hcall
      cases List.mem_singleton.mp hcall
      exact ⟨argv, rfl, hask⟩

theorem Inv.step (h : Inv net s rs m₀ hist done sys) (event : event_t) (hwell : ListsWell s event sys) :
    Goes net s rs m₀ hist event sys := by
  cases event with
  | invoke argv => exact h.invoke argv
  | arrive k reply_ok =>
    cases hq : sys.queries[k]? with
    | none => exact h.silent (by rw [System.step, hq]; rfl) (.silent rfl)
    | some q =>
      obtain ⟨n, get⟩ := q
      obtain ⟨replies, node, hdispatch, hnode, done', h'⟩ :=
        h.toNodeInv.arrive hq (hwell k reply_ok n get rfl hq) reply_ok
      refine Inv.silent ⟨h', h.fresh⟩ (by simp only [System.step, hq, hdispatch, ok_bind]; rfl)
        ⟨hnode.imp_right fun ⟨ask, hcall, hd⟩ => ⟨n, ask, hcall, hd⟩, by simp [output_t.event]⟩
  | lose_query k => exact Inv.silent ⟨h.toNodeInv.lose_query k, h.fresh⟩ rfl (.silent rfl)
  | report k =>
    cases hr : sys.replies[k]? with
    | none => exact h.silent (by rw [System.step, hr]; rfl) (.silent rfl)
    | some r =>
      obtain ⟨n, value⟩ := r
      obtain ⟨shown, p', hprinted, h'⟩ := h.report hr
      exact ⟨.printed n shown, _, by simp only [System.step, hr, hprinted, ok_bind]; rfl, ⟨done, h'⟩, Or.inl rfl,
        by simp [output_t.event]⟩
  | lose_reply k => exact Inv.silent ⟨h.toNodeInv.lose_reply k, h.fresh⟩ rfl (.silent rfl)

theorem setup_el_size {z : Zenoh} {buff_size : Nat}
    (hsetup : setup z rs.length buff_size zdc_suffix rs = .ok info) (hlen : rs.length ≤ 255) :
    info.el_size.toNat = rs.length + 1 := by
  obtain ⟨first, hinit, hadd⟩ := Result.bind_ok hsetup
  obtain ⟨hfirst, hel⟩ := MainInit_filled hinit
  rw [(add_all_el_size hfirst.wf hadd).2.1, hel, UInt16.toNat_ofNat']
  omega

theorem NodeInv.start {buff_size : Nat}
    (hsetup : setup net.toZenoh rs.length buff_size zdc_suffix rs = .ok info) (hlen : rs.length ≤ 255) :
    NodeInv net s rs info.abstract [] [] (System.start info) := by
  refine ⟨(started_of_setup hsetup hlen).ready, .start hsetup hlen .zero, setup_el_size hsetup hlen, .nil, rfl,
    ?_, ?_, List.nodup_nil, ?_, List.nodup_nil⟩ <;> simp [System.start]

theorem Inv.start {buff_size : Nat} (hsetup : setup net.toZenoh rs.length buff_size zdc_suffix rs = .ok info)
    (hlen : rs.length ≤ 255) : Inv net s rs info.abstract [] [] (System.start info) :=
  ⟨.start hsetup hlen, fun _ _ => rfl⟩

theorem Inv.run {buff_size : Nat} (hsetup : setup net.toZenoh rs.length buff_size zdc_suffix rs = .ok info)
    (hlen : rs.length ≤ 255) {events : List event_t}
    (hlists : Run.Each (System.step net s) (fun event sys _ => ListsWell s event sys) events (System.start info)) :
    ∃ t done, Run.run (System.step net s) events (System.start info) = .ok t ∧
      Inv net s rs info.abstract (history (Run.outs (System.step net s) events (System.start info))) done t := by
  obtain ⟨t, hrun, done, h⟩ := Run.completes_with
    (I := fun os sys => ∃ done, Inv net s rs info.abstract (history os) done sys)
    (fun os event sys ⟨done, h⟩ hwell => by
      obtain ⟨o, sys', hstep, ⟨done', h'⟩, -⟩ := h.step event hwell
      exact ⟨o, sys', hstep, done', by rwa [history_concat]⟩) [] ⟨[], .start hsetup hlen⟩ hlists
  exact ⟨t, done, hrun, h⟩

/-! ## Short keyexprs -/

/-- A record with this keyexpr takes no more than the 64 bytes of its slot. -/
def Short (ke : CString) : Prop := 3 + ke.size ≤ 64

def ShortEvent (event : event_t) : Prop :=
  ∀ argv eid suffix, event = .invoke argv → Tx.asked argv = some (.set (.keyexpr eid suffix)) → Short suffix

structure AllShort (hist : List (Event Nat Ask A.printed_t)) (sys : system_t) : Prop where
  blocks : ∀ i c, sys.node.zdcInfo.cell i = some c → 3 + c.entity.ke_size ≤ 64
  calls : ∀ n eid suffix, .call n (.set (.keyexpr eid suffix)) ∈ hist → Short suffix

theorem listable_of_short (hf : info.Full)
    (h : ∀ i c, info.cell i = some c → 3 + c.entity.ke_size ≤ 64) : info.Listable := by
  have hentities : ∀ e ∈ info.entities, (∃ i, e.Sound i) ∧ 3 + e.ke_size ≤ 64 := by
    intro e he
    obtain ⟨i, hi, rfl⟩ := List.mem_iff_getElem.mp he
    obtain ⟨c, hc, hce⟩ := hf.cell_of_lt hi
    exact ⟨⟨i, hce ▸ (hf.sound i c hc).entity⟩, hce ▸ h i c hc⟩
  refine ⟨?_, fun e he => by have := (hentities e he).2; omega⟩
  rw [← hf.entities_length, zdc_info_t.records]
  generalize info.entities = es at hentities
  induction es with
  | nil => exact Nat.zero_le _
  | cons e es ih =>
    obtain ⟨⟨i, hi⟩, hsize⟩ := hentities e List.mem_cons_self
    have hrest := ih fun e' he' => hentities e' (List.mem_cons_of_mem _ he')
    rw [List.flatMap_cons, List.length_append, hi.record_length, List.length_cons]
    omega

theorem longest_le {kes : List CString} {n : Nat} (h : ∀ ke ∈ kes, ke.chars.length ≤ n) : longest kes ≤ n := by
  induction kes using List.reverseRecOn with
  | nil => exact Nat.zero_le n
  | append_singleton kes ke ih =>
    rw [longest_append]
    exact max_le (ih fun ke' hke' => h ke' (List.mem_append_left _ hke'))
      (h ke (List.mem_append_right _ List.mem_cons_self))

theorem AllShort.start {z : Zenoh} {buff_size : Nat}
    (hsetup : setup z rs.length buff_size zdc_suffix rs = .ok info) (hlen : rs.length ≤ 255)
    (hsuffix : Short zdc_suffix) (hrs : ∀ rg ∈ rs, Short rg.ke_suffix) : AllShort [] (System.start info) := by
  have hregistered : ∀ ke ∈ registered zdc_suffix (B.history rs []), Short ke := by
    intro ke hke
    rcases List.mem_cons.mp hke with rfl | hke
    · exact hsuffix
    · obtain ⟨event, hevent, hke⟩ := List.mem_filterMap.mp hke
      rw [B.history, List.map_nil, List.append_nil] at hevent
      obtain ⟨rg, hrg, rfl⟩ := List.mem_map.mp hevent
      cases hke
      exact hrs rg hrg
  refine ⟨fun i c hc => ?_, by simp⟩
  have hheld := (Sprung.start hsetup hlen).held i c hc
  have hlongest : longest (assigned zdc_suffix (B.history rs []) i) ≤ 60 := by
    apply longest_le
    intro ke hke
    rw [assigned, B.history, List.map_nil, List.append_nil] at hke
    have hnone : (rs.map B.Event.add).filterMap (B.Event.renames i) = [] :=
      List.filterMap_eq_nil_iff.mpr fun event hevent => by
        obtain ⟨rg, -, rfl⟩ := List.mem_map.mp hevent
        rfl
    rw [hnone, List.append_nil, Option.mem_toList] at hke
    have hshort : 3 + ke.size ≤ 64 := hregistered ke (by
      rw [B.history, List.map_nil, List.append_nil]
      exact List.mem_of_getElem? hke)
    rw [CString.size] at hshort
    omega
  rw [hheld.size]
  omega

theorem short_act {z : Zenoh} {ask : Ask} {i : Nat} {c : Cell} (hc : 3 + c.entity.ke_size ≤ 64)
    (hask : ∀ eid suffix, ask = .set (.keyexpr eid suffix) → Short suffix) :
    3 + (ask.command.act z i c).entity.ke_size ≤ 64 := by
  rw [act_ke_size]
  cases hname : ask.command.renames i with
  | none => exact hc
  | some ke =>
    have hke : Short ke := by
      cases ask with
      | list => cases hname
      | set r =>
        cases r with
        | state eid on => cases hname
        | keyexpr eid suffix =>
          rw [Ask.command, Request.command, Command.renames] at hname
          split at hname <;> cases hname
          exact hask eid _ rfl
    unfold Short at hke
    rw [Option.elim_some]
    omega

theorem AllShort.lists_well (h : AllShort hist sys) (hi : Inv net s rs m₀ hist done sys) (event : event_t) :
    ListsWell s event sys :=
  fun _ _ _ _ _ _ _ => listable_of_short hi.ready.full h.blocks

theorem AllShort.step {event : event_t} {o : output_t} {sys' : system_t} (h : AllShort hist sys)
    (hchanges : Changes net hist event sys o sys') (hevent : ShortEvent event) :
    AllShort (hist ++ o.event.toList) sys' := by
  refine ⟨fun i c' hc' => ?_, fun n eid suffix hcall => ?_⟩
  · rcases hchanges.node with hnode | ⟨n, ask, hcall, hd⟩
    · exact h.blocks i c' (hnode ▸ hc')
    · rw [hd.cell] at hc'
      obtain ⟨c, hc, rfl⟩ := Option.map_eq_some_iff.mp hc'
      exact short_act (h.blocks i c hc) fun eid suffix hask => h.calls n eid suffix (hask ▸ hcall)
  · rcases List.mem_append.mp hcall with hcall | hcall
    · exact h.calls n eid suffix hcall
    · obtain ⟨argv, rfl, hasked⟩ := hchanges.calls _ _ hcall
      exact hevent argv eid suffix rfl hasked

theorem AllShort.run {buff_size : Nat}
    (hsetup : setup net.toZenoh rs.length buff_size zdc_suffix rs = .ok info) (hlen : rs.length ≤ 255)
    (hsuffix : Short zdc_suffix) (hrs : ∀ rg ∈ rs, Short rg.ke_suffix) {events : List event_t}
    (hevents : ∀ event ∈ events, ShortEvent event) :
    Run.Each (System.step net s) (fun event sys _ => ListsWell s event sys) events (System.start info) := by
  refine Run.each_of_inputs
    (I := fun sys => ∃ hist done, Inv net s rs info.abstract hist done sys ∧ AllShort hist sys)
    ?_ ?_ hevents _ ⟨[], [], .start hsetup hlen, .start hsetup hlen hsuffix hrs⟩
  · rintro event sys o sys' ⟨hist, done, hi, h⟩ hevent hstep
    obtain ⟨o', sys'', hstep', ⟨done', hi'⟩, hchanges⟩ := hi.step event (h.lists_well hi event)
    rw [hstep] at hstep'
    cases hstep'
    exact ⟨_, done', hi', h.step hchanges hevent⟩
  · rintro event sys ⟨hist, done, hi, h⟩ -
    exact h.lists_well hi event

/-! ## What the controllers print -/

/-- Whatever order the messages come in and whichever are lost: there is one order of the requests that
the node has carried out, such that every controller prints the answer of its place and the node's table
is what the last one leaves. A request that is made after an answer was printed comes after the one that
was answered. -/
theorem linearizable {buff_size : Nat}
    (hsetup : setup net.toZenoh rs.length buff_size zdc_suffix rs = .ok info) (hlen : rs.length ≤ 255)
    (events : List event_t)
    (hlists : Run.Each (step net s) (fun event sys _ => ListsWell s event sys) events (start info)) :
    ∃ t done, Run.run (step net s) events (start info) = .ok t ∧
      Linearizes (table (rs.length + 1)) info.abstract (history (Run.outs (step net s) events (start info))) done ∧
      t.node.zdcInfo.abstract = (table (rs.length + 1)).after info.abstract done := by
  obtain ⟨t, done, hrun, h⟩ := Inv.run hsetup hlen hlists
  exact ⟨t, done, hrun, h.linearizes, h.abstract⟩

/-- A rename, and a list that overtakes it. -/
def crossed : List event_t :=
  [.invoke [.k (World.str [0x7a]), .c Tx.CMD_KEYEXPR, .i 1, .v (World.str [0x62])],
    .invoke [.k (World.str [0x7a]), .c Tx.CMD_ENTITY], .arrive 1 true, .arrive 0 true, .report 1, .report 0]

theorem crossed_short {event : event_t} (h : event ∈ crossed) : ShortEvent event := by
  rintro argv eid suffix rfl hasked
  simp only [crossed, List.mem_cons, event_t.invoke.injEq, reduceCtorEq, List.not_mem_nil, or_false] at h
  rcases h with rfl | rfl
  · cases hasked
    exact show 3 + 2 ≤ 64 by decide
  · cases hasked

theorem linearizable_crossed : ∃ info t done, setup World.acceptAll 1 64 (World.str [0x7a])
      [.sub true (World.str [0x61]) none (.application 0)] = .ok info ∧
    Run.run (step (plain World.acceptAll) World.stack) crossed (start info) = .ok t ∧
    Linearizes (table 2) info.abstract [.call 0 (.set (.keyexpr 1 (World.str [0x62]))), .call 1 .list,
      .ret 0 (.cmd_status true),
      .ret 1 (.entities 2 [⟨"queryable", "on", [0x7a]⟩, ⟨"sub", "on", [0x61]⟩])] done := by
  let rs : List Registration := [.sub true (World.str [0x61]) none (.application 0)]
  obtain ⟨info, hsetup, hhist⟩ : ∃ info, setup World.acceptAll 1 64 (World.str [0x7a]) rs = .ok info ∧
      history (Run.outs (step (plain World.acceptAll) World.stack) crossed (start info)) =
        [.call 0 (.set (.keyexpr 1 (World.str [0x62]))), .call 1 .list, .ret 0 (.cmd_status true),
          .ret 1 (.entities 2 [⟨"queryable", "on", [0x7a]⟩, ⟨"sub", "on", [0x61]⟩])] :=
    ⟨_, rfl, rfl⟩
  have hsetup' : setup (plain World.acceptAll).toZenoh rs.length 64 (World.str [0x7a]) rs = .ok info := hsetup
  have hrs : ∀ rg ∈ rs, Short rg.ke_suffix := fun rg hrg =>
    List.mem_singleton.mp hrg ▸ show 3 + 2 ≤ 64 by decide
  obtain ⟨t, done, hrun, hlin, -⟩ := linearizable hsetup' (by decide) crossed
    (AllShort.run (s := World.stack) hsetup' (by decide) (show 3 + 2 ≤ 64 by decide) hrs fun _ => crossed_short)
  rw [hhist] at hlin
  exact ⟨info, t, done, hsetup, hrun, hlin⟩

theorem answer_ne_failed {nb : Nat} {m : EntityMap} {ask : Ask} {shown : A.printed_t}
    (h : ask.answer nb m = some shown) : shown ≠ .failed := by
  cases ask with
  | list =>
    cases h
    nofun
  | set r =>
    cases r with
    | state eid on =>
      rw [Ask.answer, Option.ite_none_right_eq_some] at h
      cases h.2
      nofun
    | keyexpr eid suffix =>
      rw [Ask.answer, Option.ite_none_right_eq_some] at h
      cases h.2
      nofun

/-- With names of 60 characters at most, at the start and in all that is asked for, no run fails, and no
controller prints `Failed to process reply`. It may print an ERR, as for a state of entity 0. -/
theorem short_names_fault_free {buff_size : Nat}
    (hsetup : setup net.toZenoh rs.length buff_size zdc_suffix rs = .ok info) (hlen : rs.length ≤ 255)
    (hsuffix : Short zdc_suffix) (hrs : ∀ rg ∈ rs, Short rg.ke_suffix) (events : List event_t)
    (hevents : ∀ event ∈ events, ShortEvent event) :
    (∃ t, Run.run (step net s) events (start info) = .ok t) ∧
    ∀ o ∈ Run.outs (step net s) events (start info), ∀ n shown, o = .printed n shown → shown ≠ .failed := by
  obtain ⟨t, done, hrun, h⟩ := Inv.run hsetup hlen (AllShort.run (s := s) hsetup hlen hsuffix hrs hevents)
  refine ⟨⟨t, hrun⟩, ?_⟩
  rintro o ho n shown rfl
  have hret : .ret n shown ∈ history (Run.outs (step net s) events (start info)) :=
    List.mem_filterMap.mpr ⟨_, ho, rfl⟩
  obtain ⟨before, ask, rest, -, hanswer⟩ := h.linearizes.answers n shown hret
  exact answer_ne_failed hanswer

theorem short_names_fault_free_crossed : ∃ info t, setup World.acceptAll 1 64 (World.str [0x7a])
      [.sub true (World.str [0x61]) none (.application 0)] = .ok info ∧
    Run.run (step (plain World.acceptAll) World.stack) crossed (start info) = .ok t := by
  let rs : List Registration := [.sub true (World.str [0x61]) none (.application 0)]
  obtain ⟨info, hsetup, -⟩ := setup_started World.acceptAll 64 (World.str [0x7a]) rs (by decide)
  have hsetup' : setup (plain World.acceptAll).toZenoh rs.length 64 (World.str [0x7a]) rs = .ok info := hsetup
  have hrs : ∀ rg ∈ rs, Short rg.ke_suffix := fun rg hrg =>
    List.mem_singleton.mp hrg ▸ show 3 + 2 ≤ 64 by decide
  obtain ⟨⟨t, hrun⟩, -⟩ := short_names_fault_free (s := World.stack) hsetup' (by decide)
    (show 3 + 2 ≤ 64 by decide) hrs crossed fun _ => crossed_short
  exact ⟨info, t, hsetup, hrun⟩

end System

end ZdcPoc
