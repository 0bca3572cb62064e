import ZdcPoc.Code.Net
import ZdcPoc.Convergence
import ZdcPoc.Declarations
import ZdcPoc.Queries

/-!
# Which messages reach the node

A query runs the command handler through the queryable of entity 0, and a sample runs the callbacks of
the subscribers. Both depend on what the commands before have left declared.
-/

namespace ZdcPoc.B

open zdc_info_t

variable {net : Net} {z : Zenoh} {s : LcsfStack} {info info' : zdc_info_t} {node node' : node_t}
  {kind : DeclKind} {ke : Option CString} {zdc_suffix : CString} {rs : List Registration} {i : Nat} {c : Cell}

/-! ## The declarations that are reached -/

theorem part_reached (session : Session) : part Decl.entity i (net.reached kind ke session) =
    net.reached kind ke (part Decl.entity i session) := by
  rw [net.reached_eq, net.reached_eq]
  exact Multiset.filter_comm ..

theorem reached_zero : net.reached kind ke 0 = 0 := by
  rw [net.reached_eq, Multiset.filter_zero]

theorem Cell.Tidy.reached (h : c.Tidy net.toZenoh i) : net.reached kind ke c.live =
    if c.entity.type.kind = some kind ∧ c.entity.isOn ∧ net.accepts c.entity.keyexpr = true ∧
        net.intersects ke c.entity.keyexpr = true then
      {c.entity.decl i kind}
    else 0 := by
  rw [h.live, h.data, net.reached_eq]
  by_cases hon : c.entity.isOn
  · rw [if_pos hon]
    cases hwanted : c.entity.wanted net.toZenoh i with
    | none =>
      rw [if_neg]
      · rfl
      · rintro ⟨hkind, -, hz, -⟩
        rw [wanted_eq_some.mpr ⟨hz, kind, hkind, rfl⟩] at hwanted
        cases hwanted
    | some d =>
      obtain ⟨hz, k, hkind, rfl⟩ := wanted_eq_some.mp hwanted
      rw [held, Multiset.filter_singleton]
      simp only [hkind, hon, hz, true_and, zdc_entity_t.decl, Option.some.injEq]
      by_cases hk : k = kind
      · rw [hk]
        rfl
      · exact (if_neg fun hand => hk hand.1).trans (if_neg fun hand => hk hand.1).symm
  · rw [if_neg hon, if_neg fun hand => hon hand.2.1]
    rfl

theorem reached_none (hlive : ∀ d ∈ c.live, d.kind ≠ kind) : net.reached kind ke c.live = 0 := by
  rw [net.reached_eq]
  exact Multiset.filter_eq_nil.mpr fun d hd hk => hlive d hd hk.1

/-! ## The invariant -/

/-- Slot 0 has the declaration of its keyexpr and no other, and each slot declares as it was registered. -/
structure Wired (z : Zenoh) (rs : List Registration) (info : zdc_info_t) : Prop where
  channel : ∀ c, info.cell 0 = some c → c.Tidy z 0
  declares : ∀ i c, info.cell i = some c → c.entity.declares = slot_declares rs i
  live : ∀ i c, info.cell i = some c → ∃ kes, Springs z kes c

theorem started_of_setup {buff_size : Nat} (hsetup : setup z rs.length buff_size zdc_suffix rs = .ok info)
    (hlen : rs.length ≤ 255) : Started z info := by
  obtain ⟨info', hsetup', hstart⟩ := setup_started z buff_size zdc_suffix rs hlen
  rw [hsetup] at hsetup'
  cases hsetup'
  exact hstart

theorem Wired.start {buff_size : Nat} (hsetup : setup z rs.length buff_size zdc_suffix rs = .ok info)
    (hlen : rs.length ≤ 255) : Wired z rs info := by
  have hsprung := Sprung.start hsetup hlen
  exact ⟨fun c hc => setup_tidy hsetup hlen 0 c hc, hsprung.declares,
    fun i c hc => ⟨_, hsprung.springs i c hc⟩⟩

theorem Springs.mono {kes kes' : List CString} (h : Springs z kes c) (hsub : kes ⊆ kes') :
    Springs z kes' c := by
  intro d hd
  obtain ⟨hz, hke, hdecl⟩ := h d hd
  exact ⟨hz, hsub hke, hdecl⟩

theorem tidy_act_zero {cmd : Command} (h : c.Tidy z 0) : (cmd.act z 0 c).Tidy z 0 := by
  cases cmd with
  | list_entities_req => exact h
  | set_entity_config id config => exact h
  | set_entity_state id b =>
    rw [Command.act, if_neg fun hid => hid.2 rfl]
    exact h
  | set_entity_keyexpr id ke =>
    rw [Command.act]
    split
    · exact h.rename
    · exact h

theorem Stepped.wired {cmd : Command} (hd : Stepped z cmd info info') (h : Wired z rs info) :
    Wired z rs info' := by
  refine ⟨fun c' hc' => ?_, fun i c' hc' => ?_, fun i c' hc' => ?_⟩ <;>
    rw [hd.cell] at hc' <;> obtain ⟨c, hc, rfl⟩ := Option.map_eq_some_iff.mp hc'
  · exact tidy_act_zero (h.channel c hc)
  · rw [act_declares]
    exact h.declares i c hc
  · obtain ⟨kes, hkes⟩ := h.live i c hc
    exact ⟨_, (hkes.mono (List.subset_cons_self c.entity.keyexpr kes)).act List.mem_cons_self cmd⟩

theorem SameTable.wired (hsame : SameTable info info') (h : Wired z rs info) : Wired z rs info' :=
  ⟨fun c hc => h.channel c (hsame.cell 0 ▸ hc), fun i c hc => h.declares i c (hsame.cell i ▸ hc),
    fun i c hc => h.live i c (hsame.cell i ▸ hc)⟩

theorem handler_wired {query : query_t} {reply : Option reply_t} (hw : node.zdcInfo.WF)
    (h : Wired z rs node.zdcInfo) (hstep : zdc_cmd_handler z s query node = .ok (reply, node')) :
    Wired z rs node'.zdcInfo := by
  by_cases hany : ∃ cmd, Hands s cmd query node
  · obtain ⟨cmd, hhands⟩ := hany
    exact (hhands.stepped hw hstep).wired h
  · exact (same_of_not_hands (not_exists.mp hany) hstep).wired h

/-! ## Queries -/

/-- The other slots were registered as publishers and subscribers. -/
theorem Wired.not_queryable (h : Wired z rs info) (hi : i ≠ 0) (hc : info.cell i = some c) {d : Decl}
    (hd : d ∈ c.live) : d.kind ≠ .queryable := by
  intro hqueryable
  obtain ⟨i, rfl⟩ := Nat.exists_eq_succ_of_ne_zero hi
  obtain ⟨kes, hkes⟩ := h.live _ c hc
  obtain ⟨-, -, hdecl⟩ := hkes d hd
  rw [h.declares _ c hc, slot_declares] at hdecl
  obtain ⟨rg, -, hrg⟩ := Option.bind_eq_some_iff.mp hdecl
  cases rg with
  | pub start_on ke config => cases hrg
  | sub start_on ke config cb_ptr =>
    have hkind := congrArg Prod.fst (Option.some.inj hrg)
    rw [hqueryable] at hkind
    cases hkind

theorem reached_queryable (hw : info.WF) (h : Wired net.toZenoh rs info) (hc : info.cell 0 = some c)
    (hchannel : IsChannel c) : net.reached .queryable ke info.session =
      if net.accepts c.entity.keyexpr = true ∧ net.intersects ke c.entity.keyexpr = true then
        {c.entity.decl 0 .queryable}
      else 0 := by
  have hkind : c.entity.type.kind = some .queryable := by
    rw [hchannel.type]
    rfl
  apply eq_of_parts (f := Decl.entity)
  intro i
  rw [part_reached]
  cases i with
  | zero =>
    rw [← (cell_eq_some.mp hc).2, (h.channel c hc).reached]
    simp only [hkind, hchannel.on, true_and]
    split
    · exact (part_eq_self fun d hd => by rw [Multiset.mem_singleton.mp hd]; rfl).symm
    · rfl
  | succ i =>
    have hzero : net.reached .queryable ke (part Decl.entity (i + 1) info.session) = 0 := by
      cases hc' : info.cell (i + 1) with
      | none =>
        rw [hw.part_of_no_cell hc', reached_zero]
      | some c' =>
        rw [← (cell_eq_some.mp hc').2]
        exact reached_none fun d hd => h.not_queryable (Nat.succ_ne_zero i) hc' hd
    rw [hzero, eq_comm]
    split
    · exact part_eq_zero (fun d hd => by rw [Multiset.mem_singleton.mp hd]; rfl) (Nat.succ_ne_zero i)
    · rfl

theorem dispatch_eq {query : query_t} (hw : node.zdcInfo.WF) (h : Wired net.toZenoh rs node.zdcInfo)
    (hc : node.zdcInfo.cell 0 = some c) (hchannel : IsChannel c) : dispatch net s ke query node =
      if net.accepts c.entity.keyexpr = true ∧ net.intersects ke c.entity.keyexpr = true then
        (zdc_cmd_handler net.toZenoh s query node).map fun r => (r.1.toList, r.2)
      else .ok ([], node) := by
  split
  · rename_i hreaches
    apply net.queried_one
    have hcb : (c.entity.decl 0 .queryable).callback = some .zdc_cmd_handler := hchannel.cb_ptr
    rw [reached_queryable hw h hc hchannel, if_pos hreaches, ← Multiset.cons_zero,
      Multiset.countP_cons_of_pos (p := fun d : Decl => d.callback = _) _ hcb, Multiset.countP_zero]
  · rename_i hreaches
    apply net.queried_none
    rw [reached_queryable hw h hc hchannel, if_neg hreaches, Multiset.countP_zero]

structure arrival_t where
  keyexpr : Option CString
  query : query_t
deriving DecidableEq, Repr

def arrive (net : Net) (s : LcsfStack) (arrival : arrival_t) (node : node_t) :
    Result (List reply_t × node_t) :=
  dispatch net s arrival.keyexpr arrival.query node

def RunsOnce (net : Net) (s : LcsfStack) (arrival : arrival_t) (node : node_t)
    (res : Result (List reply_t × node_t)) : Prop :=
  ∃ c, node.zdcInfo.cell 0 = some c ∧ res =
    if net.accepts c.entity.keyexpr = true ∧ net.intersects arrival.keyexpr c.entity.keyexpr = true then
      (zdc_cmd_handler net.toZenoh s arrival.query node).map fun r => (r.1.toList, r.2)
    else .ok ([], node)

structure Reached (z : Zenoh) (rs : List Registration) (node : node_t) : Prop extends Resting z node where
  wired : Wired z rs node.zdcInfo

theorem Reached.start {buff_size : Nat} (hsetup : setup z rs.length buff_size zdc_suffix rs = .ok info)
    (hlen : rs.length ≤ 255) (p : zdc_cmd_payload_t) : Reached z rs ⟨info, p⟩ :=
  ⟨(started_of_setup hsetup hlen).resting p, .start hsetup hlen⟩

theorem Reached.runs_once (h : Reached net.toZenoh rs node) (arrival : arrival_t) :
    RunsOnce net s arrival node (arrive net s arrival node) := by
  obtain ⟨c, hc, hchannel⟩ := h.served.channel
  exact ⟨c, hc, dispatch_eq h.served.full.toWF h.wired hc hchannel⟩

theorem Reached.arrive {arrival : arrival_t} {replies : List reply_t} (h : Reached net.toZenoh rs node)
    (hstep : B.arrive net s arrival node = .ok (replies, node')) : Reached net.toZenoh rs node' := by
  obtain ⟨c, -, hres⟩ := h.runs_once (s := s) arrival
  rw [hstep] at hres
  split at hres
  · cases hhandler : zdc_cmd_handler net.toZenoh s arrival.query node with
    | error e =>
      rw [hhandler] at hres
      cases hres
    | ok r =>
      rw [hhandler] at hres
      cases hres
      exact ⟨h.toResting.next hhandler, handler_wired h.served.full.toWF h.wired hhandler⟩
  · cases hres
    exact h

/-- Whatever queries come, of any bytes and on any keyexprs: each runs the handler once if Zenoh takes
the keyexpr that entity 0 has by then and the query's intersects it, and else changes nothing. -/
theorem queries_run_once {buff_size : Nat}
    (hsetup : setup net.toZenoh rs.length buff_size zdc_suffix rs = .ok info) (hlen : rs.length ≤ 255)
    (p : zdc_cmd_payload_t) (arrivals : List arrival_t) :
    Run.Each (arrive net s) (RunsOnce net s) arrivals ⟨info, p⟩ :=
  Run.each_of_inv (I := Reached net.toZenoh rs) (fun _ _ _ _ h hstep => h.arrive hstep)
    (fun arrival _ h => h.runs_once arrival) arrivals _ (.start hsetup hlen p)

/-- A network without wildcards. -/
def plain (z : Zenoh) : Net := World.net z fun ke declared => ke = some declared

theorem queries_run_once_list : ∃ info, setup World.acceptAll 1 64 (World.str [0x7a])
      [.sub true (World.str [0x61]) none (.application 0)] = .ok info ∧
    Run.Each (arrive (plain World.acceptAll) World.stack) (RunsOnce (plain World.acceptAll) World.stack)
      [⟨some (World.str [0x7a]), ⟨[0x2e, 0x0, 0x0], true⟩⟩, ⟨none, ⟨[0x2e, 0x0, 0x0], true⟩⟩] ⟨info, .zero⟩ := by
  obtain ⟨info, hsetup, -⟩ := setup_started World.acceptAll 64 (World.str [0x7a])
    [.sub true (World.str [0x61]) none (.application 0)] (by decide)
  let rs : List Registration := [.sub true (World.str [0x61]) none (.application 0)]
  have hsetup' : setup (plain World.acceptAll).toZenoh rs.length 64 (World.str [0x7a]) rs = .ok info := hsetup
  exact ⟨info, hsetup, queries_run_once hsetup' (by decide) .zero _⟩

/-- Once entity 0 has a keyexpr that Zenoh refuses, no query reaches the node any more. -/
theorem cut_off_for_good {buff_size : Nat}
    (hsetup : setup net.toZenoh rs.length buff_size zdc_suffix rs = .ok info) (hlen : rs.length ≤ 255)
    (p : zdc_cmd_payload_t) {arrivals : List arrival_t}
    (hrun : Run.run (arrive net s) arrivals ⟨info, p⟩ = .ok node)
    (hcut : ∀ c, node.zdcInfo.cell 0 = some c → net.accepts c.entity.keyexpr = false)
    (later : List arrival_t) :
    Run.run (arrive net s) later node = .ok node ∧ ∀ replies ∈ Run.outs (arrive net s) later node, replies = [] := by
  have h : Reached net.toZenoh rs node :=
    Run.run_inv (fun _ _ _ _ h hstep => h.arrive hstep) hrun (.start hsetup hlen p)
  have hstep : ∀ arrival, arrive net s arrival node = .ok ([], node) := by
    intro arrival
    obtain ⟨c, hc, hres⟩ := h.runs_once (s := s) arrival
    rw [hres, if_neg (by rw [hcut c hc]; simp)]
  exact Run.run_still hstep later

theorem cut_off_for_good_renamed : ∃ info node, setup World.noEmptyChunk 0 64 (World.str [0x7a]) [] = .ok info ∧
    Run.run (arrive (plain World.noEmptyChunk) World.stack)
      [⟨some (World.str [0x7a]),
        ⟨World.encode ⟨0x3, some [⟨some 1, [0]⟩, ⟨some 5, [0x61, 0x2f, 0x2f, 0x62, 0]⟩]⟩, true⟩⟩] ⟨info, .zero⟩ =
      .ok node ∧
    Run.run (arrive (plain World.noEmptyChunk) World.stack)
      [⟨some (World.str [0x7a]), ⟨[0x2e, 0x0, 0x0], true⟩⟩] node = .ok node := by
  obtain ⟨info, node, hsetup, hrun, hcell⟩ : ∃ info node,
      setup World.noEmptyChunk 0 64 (World.str [0x7a]) [] = .ok info ∧
      Run.run (arrive (plain World.noEmptyChunk) World.stack)
        [⟨some (World.str [0x7a]),
          ⟨World.encode ⟨0x3, some [⟨some 1, [0]⟩, ⟨some 5, [0x61, 0x2f, 0x2f, 0x62, 0]⟩]⟩, true⟩⟩] ⟨info, .zero⟩ =
        .ok node ∧
      (node.zdcInfo.cell 0).map (fun c => World.noEmptyChunk.accepts c.entity.keyexpr) = some false :=
    ⟨_, _, rfl, rfl, rfl⟩
  have hsetup' : setup (plain World.noEmptyChunk).toZenoh ([] : List Registration).length 64 (World.str [0x7a]) [] =
    .ok info := hsetup
  refine ⟨info, node, hsetup, hrun, (cut_off_for_good hsetup' (by decide) .zero hrun (fun c hc => ?_) _).1⟩
  rw [hc] at hcell
  exact Option.some.inj hcell

theorem mem_strays {d : Decl} (h : d ∈ c.strays) : d ∈ c.live := by
  by_cases hon : c.entity.isOn
  · rw [strays_of_on hon] at h
    exact Multiset.mem_of_le (Multiset.sub_le_self _ _) h
  · rwa [strays_of_not_on hon] at h

theorem close_reached (h : Reached net.toZenoh rs node) : ∃ closed, zdc_close net.toZenoh node.zdcInfo = .ok closed ∧
    ∀ ke, net.reached .queryable ke closed.session = 0 := by
  obtain ⟨closed, hclosed, hleft⟩ := close_spec h.served
  refine ⟨closed, hclosed, fun ke => eq_zero_of_parts (f := Decl.entity) fun d _ => ?_⟩
  rw [part_reached, hleft]
  cases hc : node.zdcInfo.cell d.entity with
  | none => exact reached_zero
  | some c =>
    rw [Option.elim_some]
    by_cases hzero : d.entity = 0
    · rw [hzero] at hc
      rw [strays_of_tidy (h.wired.channel c hc), reached_zero]
    · rw [net.reached_eq]
      exact Multiset.filter_eq_nil.mpr fun d' hd' hk =>
        h.wired.not_queryable hzero hc (mem_strays hd') hk.1

/-- After a close no query runs the handler, which would find freed keyexprs. -/
theorem closed_for_good {buff_size : Nat}
    (hsetup : setup net.toZenoh rs.length buff_size zdc_suffix rs = .ok info) (hlen : rs.length ≤ 255)
    (p : zdc_cmd_payload_t) {arrivals : List arrival_t}
    (hrun : Run.run (arrive net s) arrivals ⟨info, p⟩ = .ok node) :
    ∃ closed, zdc_close net.toZenoh node.zdcInfo = .ok closed ∧ ∀ later q,
      Run.run (arrive net s) later ⟨closed, q⟩ = .ok ⟨closed, q⟩ ∧
      ∀ replies ∈ Run.outs (arrive net s) later ⟨closed, q⟩, replies = [] := by
  have h : Reached net.toZenoh rs node :=
    Run.run_inv (fun _ _ _ _ h hstep => h.arrive hstep) hrun (.start hsetup hlen p)
  obtain ⟨closed, hclosed, hnone⟩ := close_reached h
  refine ⟨closed, hclosed, fun later q => Run.run_still (fun arrival => ?_) later⟩
  exact net.queried_none (by rw [hnone, Multiset.countP_zero])

theorem closed_for_good_list : ∃ info node closed, setup World.acceptAll 1 64 (World.str [0x7a])
      [.sub true (World.str [0x61]) none (.application 0)] = .ok info ∧
    Run.run (arrive (plain World.acceptAll) World.stack) [⟨some (World.str [0x7a]), ⟨[0x2e, 0x0, 0x0], true⟩⟩]
      ⟨info, .zero⟩ = .ok node ∧
    zdc_close World.acceptAll node.zdcInfo = .ok closed ∧
    Run.run (arrive (plain World.acceptAll) World.stack) [⟨some (World.str [0x7a]), ⟨[0x2e, 0x0, 0x0], true⟩⟩]
      ⟨closed, .zero⟩ = .ok ⟨closed, .zero⟩ := by
  let rs : List Registration := [.sub true (World.str [0x61]) none (.application 0)]
  obtain ⟨info, node, hsetup, hrun⟩ : ∃ info node, setup World.acceptAll 1 64 (World.str [0x7a]) rs = .ok info ∧
      Run.run (arrive (plain World.acceptAll) World.stack) [⟨some (World.str [0x7a]), ⟨[0x2e, 0x0, 0x0], true⟩⟩]
        ⟨info, .zero⟩ = .ok node := ⟨_, _, rfl, rfl⟩
  have hsetup' : setup (plain World.acceptAll).toZenoh rs.length 64 (World.str [0x7a]) rs = .ok info := hsetup
  obtain ⟨closed, hclosed, hlater⟩ := closed_for_good hsetup' (by decide) .zero hrun
  exact ⟨info, node, closed, hsetup, hrun, hclosed, (hlater _ .zero).1⟩

/-! ## Samples -/

/-- The subscriber that a sample is for, going by the table. -/
def hears (net : Net) (rs : List Registration) (m : EntityMap) (ke : CString) : Nat → Session
  | 0 => 0
  | i + 1 =>
    match rs[i]?, m (i + 1) with
    | some (.sub _ _ config cb_ptr), some e =>
      if e.on = true ∧ net.accepts e.keyexpr = true ∧ net.intersects (some ke) e.keyexpr = true then
        {⟨i + 1, .subscriber, e.keyexpr, some cb_ptr, config⟩}
      else 0
    | _, _ => 0

theorem hears_of_cell {ke : CString} (h : c.Tidy net.toZenoh i) (hdecl : c.entity.declares = slot_declares rs i)
    {m : EntityMap} (hm : m i = c.abstract) : net.reached .subscriber (some ke) c.live = hears net rs m ke i := by
  rw [h.abstract] at hm
  rw [h.reached]
  have hkind : c.entity.type.kind = (slot_declares rs i).map Prod.fst := by
    rw [← hdecl, zdc_entity_t.declares, Option.map_map]
    exact (Option.map_id' ..).symm
  cases i with
  | zero =>
    refine if_neg fun hand => ?_
    rw [hkind] at hand
    cases hand.1
  | succ i =>
    rw [slot_declares] at hdecl hkind
    rw [hears, hm]
    cases hget : rs[i]? with
    | none =>
      refine if_neg fun hand => ?_
      rw [hkind, hget] at hand
      cases hand.1
    | some rg =>
      cases rg with
      | pub start_on ke config =>
        refine if_neg fun hand => ?_
        rw [hkind, hget] at hand
        cases hand.1
      | sub start_on ke config cb_ptr =>
        rw [hget] at hdecl hkind
        obtain ⟨k, -, hk⟩ := Option.map_eq_some_iff.mp hdecl
        simp only [Prod.mk.injEq] at hk
        obtain ⟨-, hcb, hconfig⟩ := hk
        have hsub : c.entity.type.kind = some .subscriber := hkind
        simp only [hsub, true_and, zdc_entity_t.decl, hcb, hconfig, decide_eq_true_eq]

/-- A sample goes to the subscribers that the table has on with a keyexpr that Zenoh takes and that the
sample's intersects, to each with the callback and the options of its registration. -/
theorem samples_follow_table {buff_size : Nat}
    (hsetup : setup net.toZenoh rs.length buff_size zdc_suffix rs = .ok info) (hlen : rs.length ≤ 255)
    (ds : List (Delivery s)) : ∃ node, Run.run (Delivery.step net.toZenoh) ds ⟨info, .zero⟩ = .ok node ∧
      ∀ ke i, part Decl.entity i (net.reached .subscriber (some ke) node.zdcInfo.session) =
        hears net rs (fold ds info.abstract) ke i := by
  obtain ⟨node, hrun, hready, hsame, habs⟩ := deliveries_run (started_of_setup hsetup hlen) ds
  refine ⟨node, hrun, fun ke i => ?_⟩
  rw [part_reached]
  have hi := hsame i
  cases hc : node.zdcInfo.cell i with
  | some c =>
    rw [hc, Option.map_some, eq_comm, Option.map_eq_some_iff] at hi
    obtain ⟨c₀, hc₀, hdecl⟩ := hi
    rw [← (cell_eq_some.mp hc).2]
    refine hears_of_cell (hready.tidy i c hc) (hdecl.symm.trans ((Wired.start hsetup hlen).declares i c₀ hc₀)) ?_
    rw [← habs, zdc_info_t.abstract, hc, Option.bind_some]
  | none =>
    have hm : fold ds info.abstract i = none := by
      rw [← habs, zdc_info_t.abstract, hc, Option.bind_none]
    rw [hready.full.toWF.part_of_no_cell hc, reached_zero]
    cases i with
    | zero => rfl
    | succ i =>
      rw [hears, hm]
      split
      · rename_i h
        cases h
      · rfl

theorem samples_follow_table_renamed : ∃ info node, setup World.acceptAll 1 64 (World.str [0x7a])
      [.sub false (World.str [0x61]) none (.application 0)] = .ok info ∧
    ∃ ds : List (Delivery World.stack), ds.map Delivery.request = [.keyexpr 1 (World.str [0x62]), .state 1 true] ∧
      Run.run (Delivery.step World.acceptAll) ds ⟨info, .zero⟩ = .ok node ∧
      part Decl.entity 1 ((plain World.acceptAll).reached .subscriber (some (World.str [0x62]))
        node.zdcInfo.session) = {⟨1, .subscriber, World.str [0x62], some (.application 0), none⟩} := by
  obtain ⟨info, hsetup, -⟩ := setup_started World.acceptAll 64 (World.str [0x7a])
    [.sub false (World.str [0x61]) none (.application 0)] (by decide)
  have hentity : info.abstract 1 = some ⟨.ZDC_TYPE_SUB, false, World.str [0x61]⟩ :=
    Result.of_map (f := fun info => info.abstract 1) hsetup rfl
  let named : Delivery World.stack := ⟨.keyexpr 1 (World.str [0x62]), ⟨_, true⟩, .zero, _, rfl⟩
  let on : Delivery World.stack := ⟨.state 1 true, ⟨_, true⟩, .zero, _, rfl⟩
  let rs : List Registration := [.sub false (World.str [0x61]) none (.application 0)]
  have hsetup' : setup (plain World.acceptAll).toZenoh rs.length 64 (World.str [0x7a]) rs = .ok info := hsetup
  obtain ⟨node, hrun, hreached⟩ := samples_follow_table hsetup' (by decide) [named, on]
  refine ⟨info, node, hsetup, [named, on], rfl, hrun, (hreached (World.str [0x62]) 1).trans ?_⟩
  have hmap : fold [named, on] info.abstract 1 = some ⟨.ZDC_TYPE_SUB, true, World.str [0x62]⟩ := by
    simp [fold, named, on, Request.apply, hentity]
  rw [hears, hmap]
  rfl

end ZdcPoc.B
