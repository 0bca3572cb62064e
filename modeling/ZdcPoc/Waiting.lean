import ZdcPoc.System

/-!
# Who waits for an answer

A request has its answer or one message on its way. It has neither when a message of it was lost, or when
its query came to the node and got no reply through.
-/

namespace ZdcPoc

open Linear

namespace B

variable {z : Zenoh} {s : LcsfStack} {query : query_t} {node node' : node_t} {rep : reply_t}

theorem handler_delivered (h : zdc_cmd_handler z s query node = .ok (some rep, node')) :
    rep.delivered = query.reply_ok := by
  unfold zdc_cmd_handler at h
  split at h
  · cases h
  · obtain ⟨⟨r, mid⟩, -, h⟩ := Result.bind_ok h
    simp only at h
    split at h
    · obtain ⟨bytes, -, h⟩ := Result.bind_ok h
      cases h
      rfl
    · cases h

end B

namespace System

open B

variable {net : Net} {s : LcsfStack} {rs : List Registration} {info : zdc_info_t} {m₀ : EntityMap}
  {hist : List (Event Nat Ask A.printed_t)} {done : List (Nat × Ask)} {sys sys' : system_t} {k n : Nat}
  {zdc_suffix : CString} {get : Tx.z_get_t} {reply_ok : Bool} {event : event_t} {o : output_t} {argv : List Tx.opt_t}

/-! ## Where a request is -/

def answered (hist : List (Event Nat Ask A.printed_t)) : List Nat :=
  hist.filterMap fun
    | .ret n _ => some n
    | .call _ _ => none

/-- The processes that have their answer, and those with a message on its way. -/
def places (hist : List (Event Nat Ask A.printed_t)) (sys : system_t) : List Nat :=
  answered hist ++ (sys.queries.map Prod.fst ++ sys.replies.map Prod.fst)

theorem mem_answered : n ∈ answered hist ↔ ∃ shown, .ret n shown ∈ hist := by
  unfold answered
  constructor
  · intro h
    obtain ⟨e, he, hn⟩ := List.mem_filterMap.mp h
    cases e with
    | call i a => cases hn
    | ret i shown =>
      cases hn
      exact ⟨shown, he⟩
  · rintro ⟨shown, h⟩
    exact List.mem_filterMap.mpr ⟨_, h, rfl⟩

theorem mem_places : n ∈ places hist sys ↔
    n ∈ answered hist ∨ n ∈ sys.queries.map Prod.fst ∨ n ∈ sys.replies.map Prod.fst := by
  unfold places
  rw [List.mem_append, List.mem_append]

theorem Inv.not_answered (h : Inv net s rs m₀ hist done sys) (hn : n ∈ sys.queries.map Prod.fst) :
    n ∉ answered hist := by
  obtain ⟨q, hq, rfl⟩ := List.mem_map.mp hn
  intro hret
  obtain ⟨shown, hret⟩ := mem_answered.mp hret
  exact (h.queries q hq).1 (h.linearizes.answers _ shown hret).mem

theorem Inv.reply_not_answered (h : Inv net s rs m₀ hist done sys) (hn : n ∈ sys.replies.map Prod.fst) :
    n ∉ answered hist := by
  obtain ⟨r, hr, rfl⟩ := List.mem_map.mp hn
  intro hret
  obtain ⟨shown, hret⟩ := mem_answered.mp hret
  exact (h.replies r hr).1 shown hret

theorem Inv.not_both (h : Inv net s rs m₀ hist done sys) (hn : n ∈ sys.queries.map Prod.fst) :
    n ∉ sys.replies.map Prod.fst := by
  obtain ⟨q, hq, rfl⟩ := List.mem_map.mp hn
  intro hreply
  obtain ⟨r, hr, heq⟩ := List.mem_map.mp hreply
  obtain ⟨-, shown, -, hanswer⟩ := h.replies r hr
  exact (h.queries q hq).1 (heq ▸ hanswer.mem)

theorem Inv.places_nodup (h : Inv net s rs m₀ hist done sys) : (places hist sys).Nodup := by
  have hanswered : (answered hist).Nodup := by
    refine List.pairwise_filterMap.mpr (h.linearizes.order.imp fun {e e'} hfollows n hn n' hn' => ?_)
    cases e <;> cases e' <;> cases hn <;> cases hn'
    exact hfollows
  refine hanswered.append (h.queries_nodup.append h.replies_nodup fun m => h.not_both) fun m hm hmem => ?_
  rcases List.mem_append.mp hmem with hmem | hmem
  · exact h.not_answered hmem hm
  · exact h.reply_not_answered hmem hm

/-! ## What is missed -/

/-- The query finds the node, and its reply goes back. -/
structure Gets (net : Net) (s : LcsfStack) (get : Tx.z_get_t) (reply_ok : Bool) (node : node_t) : Prop where
  reaches : ∀ c, node.zdcInfo.cell 0 = some c →
    net.accepts c.entity.keyexpr = true ∧ net.intersects get.keyexpr c.entity.keyexpr = true
  answerable : ∀ ask : Ask, ask.Sends s get.payload → ask.Answerable s node.zdcInfo
  delivered : reply_ok = true

/-- Process `n` has a message on its way, and nothing comes of it. -/
def Missed (net : Net) (s : LcsfStack) (n : Nat) (event : event_t) (sys : system_t) : Prop :=
  match event with
  | .lose_query k => ∃ get, sys.queries[k]? = some (n, get)
  | .lose_reply k => ∃ value, sys.replies[k]? = some (n, value)
  | .arrive k reply_ok => ∃ get, sys.queries[k]? = some (n, get) ∧ ¬ Gets net s get reply_ok sys.node
  | .invoke _ | .report _ => False

theorem Inv.handler_answers {reply : Option reply_t} {node : node_t} {ask : Ask}
    (h : Inv net s rs m₀ hist done sys)
    (hwell : s.receive get.payload = some ⟨0x0, none⟩ → sys.node.zdcInfo.Listable)
    (hhandler : zdc_cmd_handler net.toZenoh s ⟨get.payload, reply_ok⟩ sys.node = .ok (reply, node))
    (hsends : ask.Sends s get.payload) : reply.isSome ↔ ask.Answerable s sys.node.zdcInfo := by
  obtain ⟨reply', node', hhandler', -, -, -, hanswers, -⟩ := ask_handled (s := s) h.ready h.reached.served
    hsends reply_ok fun hlist => hwell (list_sends (hlist ▸ hsends)).2
  rw [hhandler] at hhandler'
  cases hhandler'
  exact hanswers

theorem sent_iff {reply : Option reply_t} (hdelivered : ∀ rep, reply = some rep → rep.delivered = reply_ok) :
    reply.toList.filter (·.delivered) ≠ [] ↔ reply.isSome ∧ reply_ok = true := by
  cases reply with
  | none => simp
  | some rep => simp [hdelivered rep rfl]

theorem Inv.gets_iff {replies : List reply_t} {node : node_t} (h : Inv net s rs m₀ hist done sys)
    (hq : sys.queries[k]? = some (n, get))
    (hwell : s.receive get.payload = some ⟨0x0, none⟩ → sys.node.zdcInfo.Listable)
    (hdispatch : dispatch net s get.keyexpr ⟨get.payload, reply_ok⟩ sys.node = .ok (replies, node)) :
    replies.filter (·.delivered) ≠ [] ↔ Gets net s get reply_ok sys.node := by
  obtain ⟨-, ask, -, hsends⟩ := h.queries _ (List.mem_of_getElem? hq)
  obtain ⟨c, hc, hd⟩ := h.reached.runs_once (s := s) ⟨get.keyexpr, ⟨get.payload, reply_ok⟩⟩
  change dispatch net s get.keyexpr ⟨get.payload, reply_ok⟩ sys.node = _ at hd
  rw [hdispatch] at hd
  by_cases hreaches : net.accepts c.entity.keyexpr = true ∧ net.intersects get.keyexpr c.entity.keyexpr = true
  · rw [if_pos hreaches] at hd
    cases hhandler : zdc_cmd_handler net.toZenoh s ⟨get.payload, reply_ok⟩ sys.node with
    | error e =>
      rw [hhandler] at hd
      cases hd
    | ok r =>
      obtain ⟨reply, node'⟩ := r
      rw [hhandler] at hd
      cases hd
      have hdelivered : ∀ rep, reply = some rep → rep.delivered = reply_ok :=
        fun rep hrep => handler_delivered (hrep ▸ hhandler)
      have hsent := sent_iff hdelivered
      refine hsent.trans ⟨fun ⟨hsome, hok⟩ => ⟨fun c' hc' => ?_, fun ask hsends => ?_, hok⟩, fun hgets => ?_⟩
      · rw [hc] at hc'
        cases hc'
        exact hreaches
      · exact (h.handler_answers hwell hhandler hsends).mp hsome
      · exact ⟨(h.handler_answers hwell hhandler hsends).mpr (hgets.answerable ask hsends), hgets.delivered⟩
  · rw [if_neg hreaches] at hd
    cases hd
    exact iff_of_false (by simp) fun hgets => hreaches (hgets.reaches c hc)

theorem Inv.missed_called (h : Inv net s rs m₀ hist done sys) (hmissed : Missed net s n event sys) :
    ∃ ask, .call n ask ∈ hist := by
  have hquery : ∀ {k : Nat} {get : Tx.z_get_t}, sys.queries[k]? = some (n, get) → ∃ ask, .call n ask ∈ hist := by
    intro k get hq
    obtain ⟨-, ask, hcall, -⟩ := h.queries _ (List.mem_of_getElem? hq)
    exact ⟨ask, hcall⟩
  cases event with
  | invoke argv => cases hmissed
  | report k => cases hmissed
  | lose_query k =>
    obtain ⟨get, hq⟩ := hmissed
    exact hquery hq
  | arrive k reply_ok =>
    obtain ⟨get, hq, -⟩ := hmissed
    exact hquery hq
  | lose_reply k =>
    obtain ⟨value, hr⟩ := hmissed
    obtain ⟨-, shown, -, hanswer⟩ := h.replies _ (List.mem_of_getElem? hr)
    obtain ⟨d, hd, rfl⟩ := List.mem_map.mp hanswer.mem
    exact ⟨d.2, h.linearizes.called d hd⟩

/-! ## What each event does -/

theorem answered_concat (hist : List (Event Nat Ask A.printed_t)) (e : Option (Event Nat Ask A.printed_t)) :
    n ∈ answered (hist ++ e.toList) ↔ n ∈ answered hist ∨ ∃ shown, e = some (.ret n shown) := by
  simp only [mem_answered, List.mem_append, Option.mem_toList, exists_or]

theorem mem_sent_fst {m : Nat} (sent : List reply_t) :
    n ∈ (sent.map fun reply => (m, reply.bytes)).map Prod.fst ↔ n = m ∧ sent ≠ [] := by
  rw [List.map_map]
  cases sent with
  | nil => simp
  | cons reply sent => simp [eq_comm]

theorem Inv.query_elsewhere (h : Inv net s rs m₀ hist done sys) (hq : ∃ get, sys.queries[k]? = some (n, get)) :
    n ∈ sys.queries.map Prod.fst ∧ n ∉ answered hist ∧ n ∉ sys.replies.map Prod.fst := by
  obtain ⟨get, hq⟩ := hq
  have hn : n ∈ sys.queries.map Prod.fst := List.mem_map_of_mem (List.mem_of_getElem? hq)
  exact ⟨hn, h.not_answered hn, h.not_both hn⟩

theorem Inv.reply_elsewhere (h : Inv net s rs m₀ hist done sys)
    (hr : ∃ value, sys.replies[k]? = some (n, value)) :
    n ∈ sys.replies.map Prod.fst ∧ n ∉ answered hist ∧ n ∉ sys.queries.map Prod.fst := by
  obtain ⟨value, hr⟩ := hr
  have hn : n ∈ sys.replies.map Prod.fst := List.mem_map_of_mem (List.mem_of_getElem? hr)
  exact ⟨hn, h.reply_not_answered hn, fun hq => h.not_both hq hn⟩

/-- Process `n` is where it was, or on to the next place, unless it is missed. A new one is on its way. -/
def Moves (net : Net) (s : LcsfStack) (n : Nat) (hist : List (Event Nat Ask A.printed_t)) (event : event_t)
    (sys : system_t) (o : output_t) (sys' : system_t) : Prop :=
  n ∈ places (hist ++ o.event.toList) sys' ↔
    n ∈ places hist sys ∧ ¬ Missed net s n event sys ∨ ∃ ask, o.event = some (.call n ask)

theorem Moves.still (hmissed : ¬ Missed net s n event sys) : Moves net s n hist event sys .silent sys := by
  unfold Moves
  simp [output_t.event, hmissed]

theorem invoke_moves (hstep : System.step net s (.invoke argv) sys = .ok (o, sys')) (n : Nat) :
    Moves net s n hist (.invoke argv) sys o sys' := by
  unfold Moves
  rw [mem_places, mem_places, answered_concat]
  obtain ⟨status, sent, hmain, hsent⟩ := Tx.main_asked s argv
  rw [System.step, hmain] at hstep
  cases sent with
  | none =>
    cases hstep
    simp [output_t.event, Missed]
  | some get =>
    obtain ⟨ask, hask, -⟩ := hsent get rfl
    cases hstep
    have hcall : (∃ ask', some (Event.call sys.controllers.length ask) =
        some (Event.call n ask' : Event Nat Ask A.printed_t)) ↔ n = sys.controllers.length := by simp [eq_comm]
    have hret : ¬ ∃ shown, some (Event.call sys.controllers.length ask) =
        some (Event.ret n shown : Event Nat Ask A.printed_t) := by simp
    simp only [output_t.event, hask, Option.map_some, hcall, hret, Missed, List.map_append, List.mem_append,
      List.map_cons, List.map_nil, List.mem_singleton]
    grind

theorem Inv.arrive_moves {m : Nat} {replies : List reply_t} {node : node_t} (h : Inv net s rs m₀ hist done sys)
    (hq : sys.queries[k]? = some (m, get))
    (hsent : replies.filter (·.delivered) ≠ [] ↔ Gets net s get reply_ok sys.node) (n : Nat) :
    Moves net s n hist (.arrive k reply_ok) sys .silent { sys with
      node, queries := sys.queries.eraseIdx k
      replies := sys.replies ++ (replies.filter (·.delivered)).map fun reply => (m, reply.bytes) } := by
  unfold Moves
  rw [mem_places, mem_places, answered_concat]
  have helsewhere := h.query_elsewhere ⟨get, hq⟩
  have hone : (∃ get, sys.queries[k]? = some (n, get)) ↔ n = m := by simp [hq, eq_comm]
  have hmissed : Missed net s n (.arrive k reply_ok) sys ↔ n = m ∧ ¬ Gets net s get reply_ok sys.node := by
    simp [Missed, hq, eq_comm]
  simp only [output_t.event, Pool.mem_eraseIdx_fst h.queries_nodup, hone, hmissed, List.map_append,
    List.mem_append, mem_sent_fst, hsent, reduceCtorEq, exists_false, or_false]
  by_cases hn : n = m
  · subst hn
    grind
  · grind

theorem Inv.report_moves {m : Nat} {value : List UInt8} {shown : A.printed_t} {p : zdc_cmd_payload_t}
    (h : Inv net s rs m₀ hist done sys) (hr : sys.replies[k]? = some (m, value)) (n : Nat) :
    Moves net s n hist (.report k) sys (.printed m shown)
      { sys with controllers := sys.controllers.set m p, replies := sys.replies.eraseIdx k } := by
  unfold Moves
  rw [mem_places, mem_places, answered_concat]
  have helsewhere := h.reply_elsewhere ⟨value, hr⟩
  have hone : (∃ value, sys.replies[k]? = some (n, value)) ↔ n = m := by simp [hr, eq_comm]
  have hret : (∃ shown', some (Event.ret m shown) = some (Event.ret n shown' : Event Nat Ask _)) ↔ n = m := by
    simp [eq_comm]
  have hcall : ¬ ∃ ask, some (Event.ret m shown) = some (Event.call n ask : Event Nat Ask _) := by simp
  simp only [output_t.event, Pool.mem_eraseIdx_fst h.replies_nodup, hone, hret, hcall, Missed, not_false_eq_true,
    and_true, or_false]
  by_cases hn : n = m
  · subst hn
    grind
  · grind

theorem Inv.moves (h : Inv net s rs m₀ hist done sys) (hwell : ListsWell s event sys)
    (hstep : System.step net s event sys = .ok (o, sys')) (n : Nat) : Moves net s n hist event sys o sys' := by
  cases event with
  | invoke argv => exact invoke_moves hstep n
  | arrive k reply_ok =>
    rw [System.step] at hstep
    cases hq : sys.queries[k]? with
    | none =>
      rw [hq] at hstep
      cases hstep
      exact .still (by simp [Missed, hq])
    | some q =>
      obtain ⟨m, get⟩ := q
      obtain ⟨replies, node, hdispatch, -⟩ := h.toNodeInv.arrive hq (hwell k reply_ok m get rfl hq) reply_ok
      have hsent := h.gets_iff hq (hwell k reply_ok m get rfl hq) hdispatch
      simp only [hq, hdispatch, ok_bind] at hstep
      cases hstep
      exact h.arrive_moves hq hsent n
  | lose_query k =>
    cases hstep
    have helsewhere := h.query_elsewhere (k := k) (n := n)
    unfold Moves
    rw [mem_places, mem_places, answered_concat]
    simp only [output_t.event, Pool.mem_eraseIdx_fst h.queries_nodup, Missed, reduceCtorEq, exists_false, or_false]
    grind
  | report k =>
    rw [System.step] at hstep
    cases hr : sys.replies[k]? with
    | none =>
      rw [hr] at hstep
      cases hstep
      exact .still (by simp [Missed])
    | some r =>
      obtain ⟨m, value⟩ := r
      obtain ⟨shown, p', hprinted, -⟩ := h.report hr
      simp only [hr, hprinted, ok_bind] at hstep
      cases hstep
      exact h.report_moves hr n
  | lose_reply k =>
    cases hstep
    have helsewhere := h.reply_elsewhere (k := k) (n := n)
    unfold Moves
    rw [mem_places, mem_places, answered_concat]
    simp only [output_t.event, Pool.mem_eraseIdx_fst h.replies_nodup, Missed, reduceCtorEq, exists_false, or_false]
    grind

/-! ## Runs -/

theorem Inv.next (h : Inv net s rs m₀ hist done sys) (hwell : ListsWell s event sys)
    (hstep : System.step net s event sys = .ok (o, sys')) :
    ∃ done', Inv net s rs m₀ (hist ++ o.event.toList) done' sys' := by
  obtain ⟨o', sys'', hstep', hnext, -⟩ := h.step event hwell
  rw [hstep] at hstep'
  cases hstep'
  exact hnext

theorem Inv.call_new {ask : Ask} (h : Inv net s rs m₀ (hist ++ o.event.toList) done sys)
    (hnew : o.event = some (.call n ask)) : ∀ a, .call n a ∉ hist := by
  intro a ha
  have horder := h.linearizes.order
  rw [hnew, Option.toList_some] at horder
  exact (List.pairwise_append.mp horder).2.2 _ ha _ List.mem_cons_self rfl

/-- Process `n` has made no request, or the request is somewhere. -/
def Accounted (n : Nat) (hist : List (Event Nat Ask A.printed_t)) (sys : system_t) : Prop :=
  ∀ ask, .call n ask ∈ hist → n ∈ places hist sys

theorem Inv.accounted_step (h : Inv net s rs m₀ hist done sys) (hwell : ListsWell s event sys)
    (hstep : System.step net s event sys = .ok (o, sys')) (n : Nat) :
    Accounted n (hist ++ o.event.toList) sys' ↔ Accounted n hist sys ∧ ¬ Missed net s n event sys := by
  obtain ⟨done', h'⟩ := h.next hwell hstep
  have hmoves : Moves net s n hist event sys o sys' := h.moves hwell hstep n
  unfold Moves at hmoves
  unfold Accounted
  simp only [hmoves, List.mem_append, Option.mem_toList]
  have hcalled : Missed net s n event sys → ∃ ask, .call n ask ∈ hist := h.missed_called
  constructor
  · intro hall
    refine ⟨fun ask hcall => ?_, fun hmissed => ?_⟩
    · rcases hall ask (Or.inl hcall) with hplace | ⟨ask', hnew⟩
      · exact hplace.1
      · exact absurd hcall (h'.call_new hnew ask)
    · obtain ⟨ask, hcall⟩ := hcalled hmissed
      rcases hall ask (Or.inl hcall) with hplace | ⟨ask', hnew⟩
      · exact hplace.2 hmissed
      · exact h'.call_new hnew ask hcall
  · rintro ⟨hall, hmissed⟩ ask (hcall | hnew)
    · exact Or.inl ⟨hall ask hcall, hmissed⟩
    · exact Or.inr ⟨ask, hnew⟩

/-- At any time, each process that made a request has at most one of an answer, a query on its way and a
reply on its way. It has one of them exactly when no event so far has missed it. So when nothing is on its
way, those that were not missed have their answers. -/
theorem accounted_unless_missed {buff_size : Nat}
    (hsetup : setup net.toZenoh rs.length buff_size zdc_suffix rs = .ok info) (hlen : rs.length ≤ 255)
    (events : List event_t)
    (hlists : Run.Each (step net s) (fun event sys _ => ListsWell s event sys) events (start info)) :
    ∃ t, Run.run (step net s) events (start info) = .ok t ∧
      (places (history (Run.outs (step net s) events (start info))) t).Nodup ∧
      ∀ n ask, .call n ask ∈ history (Run.outs (step net s) events (start info)) →
        (n ∈ places (history (Run.outs (step net s) events (start info))) t ↔
          Run.Each (step net s) (fun event sys _ => ¬ Missed net s n event sys) events (start info)) := by
  obtain ⟨t, done, hrun, h⟩ := Inv.run hsetup hlen hlists
  refine ⟨t, hrun, h.places_nodup, fun n ask hcall => ?_⟩
  have hlast := Run.last_iff_each
    (I := fun os sys => ∃ done, Inv net s rs info.abstract (history os) done sys)
    (P := fun os sys => Accounted n (history os) sys)
    (fun os event sys o sys' ⟨done, h⟩ hwell hstep => by
      rw [history_concat]
      exact h.next hwell hstep)
    (fun os event sys o sys' ⟨done, h⟩ hwell hstep => by
      rw [history_concat]
      exact h.accounted_step hwell hstep n) [] hlists hrun ⟨[], .start hsetup hlen⟩
  have hnone : Accounted n (history []) (start info) := fun ask hcall => absurd hcall List.not_mem_nil
  rw [List.nil_append, and_iff_right hnone] at hlast
  rw [← hlast]
  exact ⟨fun hplace _ _ => hplace, fun haccounted => haccounted ask hcall⟩

/-- Two renames, of which the second is lost. -/
def half_lost : List event_t :=
  [.invoke [.k (World.str [0x7a]), .c Tx.CMD_KEYEXPR, .i 1, .v (World.str [0x62])],
    .invoke [.k (World.str [0x7a]), .c Tx.CMD_KEYEXPR, .i 1, .v (World.str [0x63])],
    .lose_query 1, .arrive 0 true, .report 0]

theorem half_lost_short {event : event_t} (h : event ∈ half_lost) : ShortEvent event := by
  rintro argv eid suffix rfl hasked
  simp only [half_lost, List.mem_cons, event_t.invoke.injEq, reduceCtorEq, List.not_mem_nil, or_false] at h
  rcases h with rfl | rfl <;> cases hasked <;> exact show 3 + 2 ≤ 64 by decide

theorem accounted_unless_missed_lost : ∃ info t, setup World.acceptAll 1 64 (World.str [0x7a])
      [.sub true (World.str [0x61]) none (.application 0)] = .ok info ∧
    Run.run (step (plain World.acceptAll) World.stack) half_lost (start info) = .ok t ∧
    Run.Each (step (plain World.acceptAll) World.stack)
      (fun event sys _ => ¬ Missed (plain World.acceptAll) World.stack 0 event sys) half_lost (start info) ∧
    ¬ Run.Each (step (plain World.acceptAll) World.stack)
      (fun event sys _ => ¬ Missed (plain World.acceptAll) World.stack 1 event sys) half_lost (start info) := by
  let rs : List Registration := [.sub true (World.str [0x61]) none (.application 0)]
  obtain ⟨info, t, hsetup, hhist, hrun, hplaces⟩ : ∃ info t,
      setup World.acceptAll 1 64 (World.str [0x7a]) rs = .ok info ∧
      history (Run.outs (step (plain World.acceptAll) World.stack) half_lost (start info)) =
        [.call 0 (.set (.keyexpr 1 (World.str [0x62]))), .call 1 (.set (.keyexpr 1 (World.str [0x63]))),
          .ret 0 (.cmd_status true)] ∧
      Run.run (step (plain World.acceptAll) World.stack) half_lost (start info) = .ok t ∧
      places (history (Run.outs (step (plain World.acceptAll) World.stack) half_lost (start info))) t = [0] :=
    ⟨_, _, rfl, rfl, rfl, rfl⟩
  have hsetup' : setup (plain World.acceptAll).toZenoh rs.length 64 (World.str [0x7a]) rs = .ok info := hsetup
  have hrs : ∀ rg ∈ rs, Short rg.ke_suffix := fun rg hrg =>
    List.mem_singleton.mp hrg ▸ show 3 + 2 ≤ 64 by decide
  obtain ⟨t', hrun', -, hiff⟩ := accounted_unless_missed hsetup' (by decide) half_lost
    (AllShort.run (s := World.stack) hsetup' (by decide) (show 3 + 2 ≤ 64 by decide) hrs fun _ => half_lost_short)
  rw [hrun] at hrun'
  cases hrun'
  rw [hplaces, hhist] at hiff
  have hfirst := hiff 0 _ List.mem_cons_self
  have hsecond := hiff 1 _ (List.mem_cons_of_mem _ List.mem_cons_self)
  exact ⟨info, t, hsetup, hrun, hfirst.mp (by decide), fun hall => absurd (hsecond.mpr hall) (by decide)⟩

end System

end ZdcPoc
