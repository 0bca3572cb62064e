import ZdcPoc.System

/-!
# Several nodes

A query on a keyexpr with wildcards reaches several nodes, and its controller prints what each of them
replies. Every node is seen as if it was alone with the controllers.
-/

namespace ZdcPoc.Fleet

open Linear B

variable {N : Nat} {net : Net} {s : LcsfStack} {rs : Fin N → List Registration} {info : Fin N → zdc_info_t}
  {m₀ : Fin N → EntityMap} {fleet fleet' : fleet_t N} {os : List (output_t N)} {o : output_t N} {i j : Fin N}
  {k n : Nat} {event : System.event_t} {zdc_suffix : Fin N → CString} {buff_size : Fin N → Nat}

/-! ## What is seen of one node -/

def view (i : Fin N) (fleet : fleet_t N) : System.system_t :=
  ⟨fleet.nodes i, fleet.controllers, Pool.of i fleet.queries, Pool.of i fleet.replies⟩

/-- The answers of the other nodes are left out. -/
def output_t.seen (i : Fin N) : output_t N → System.output_t
  | .silent => .silent
  | .invoked n argv => .invoked n argv
  | .printed j n shown => if j = i then .printed n shown else .silent

def history (i : Fin N) (os : List (output_t N)) : List (Event Nat Ask A.printed_t) :=
  System.history (os.map (output_t.seen i))

theorem history_concat (i : Fin N) (os : List (output_t N)) (o : output_t N) :
    history i (os ++ [o]) = history i os ++ (o.seen i).event.toList := by
  unfold history
  rw [List.map_append, List.map_singleton, System.history_concat]

def ListsWell (s : LcsfStack) (event : System.event_t) (fleet : fleet_t N) : Prop :=
  ∀ k reply_ok i n get, event = .arrive k reply_ok → fleet.queries[k]? = some (i, n, get) →
    s.receive get.payload = some ⟨0x0, none⟩ → (fleet.nodes i).zdcInfo.Listable

/-- Each node has what it would have alone, and no payload has a high byte of a number of entities. -/
structure FleetInv (net : Net) (s : LcsfStack) (rs : Fin N → List Registration) (m₀ : Fin N → EntityMap)
    (os : List (output_t N)) (fleet : fleet_t N) : Prop where
  nodes : ∀ i, ∃ done, System.NodeInv net s (rs i) (m₀ i) (history i os) done (view i fleet)
  narrow : ∀ n, (fleet.controllers.getD n .zero).entity_nb / 256 = 0

theorem zero_narrow : zdc_cmd_payload_t.zero.entity_nb / 256 = 0 := rfl

/-! ## What each event does -/

/-- The invariant is kept, and each node sees a step of a node that is alone. -/
def Goes (net : Net) (s : LcsfStack) (rs : Fin N → List Registration) (m₀ : Fin N → EntityMap)
    (os : List (output_t N)) (event : System.event_t) (fleet : fleet_t N) : Prop :=
  ∃ o fleet', step net s event fleet = .ok (o, fleet') ∧ FleetInv net s rs m₀ (os ++ [o]) fleet' ∧
    ∀ i, System.Changes net (history i os) event (view i fleet) (o.seen i) (view i fleet')

theorem FleetInv.silent (h : FleetInv net s rs m₀ os fleet) (hstep : step net s event fleet = .ok (.silent, fleet'))
    (hnodes : ∀ i done, System.NodeInv net s (rs i) (m₀ i) (history i os) done (view i fleet) →
      System.NodeInv net s (rs i) (m₀ i) (history i os) done (view i fleet'))
    (hsame : fleet'.nodes = fleet.nodes) (hnarrow : ∀ n, (fleet'.controllers.getD n .zero).entity_nb / 256 = 0) :
    Goes net s rs m₀ os event fleet := by
  refine ⟨.silent, fleet', hstep, ⟨fun i => ?_, hnarrow⟩, fun i => .silent (congrFun hsame i)⟩
  obtain ⟨done, hi⟩ := h.nodes i
  rw [history_concat, output_t.seen, System.output_t.event, Option.toList_none, List.append_nil]
  exact ⟨done, hnodes i done hi⟩

theorem FleetInv.lose_query (h : FleetInv net s rs m₀ os fleet) (k : Nat) :
    Goes net s rs m₀ os (.lose_query k) fleet := by
  refine h.silent rfl (fun i done hi => ?_) rfl h.narrow
  obtain ⟨j, hj⟩ := Pool.of_eraseIdx i fleet.queries k
  rw [view, hj]
  exact hi.lose_query j

theorem FleetInv.lose_reply (h : FleetInv net s rs m₀ os fleet) (k : Nat) :
    Goes net s rs m₀ os (.lose_reply k) fleet := by
  refine h.silent rfl (fun i done hi => ?_) rfl h.narrow
  obtain ⟨j, hj⟩ := Pool.of_eraseIdx i fleet.replies k
  rw [view, hj]
  exact hi.lose_reply j

theorem FleetInv.invoke (h : FleetInv net s rs m₀ os fleet) (argv : List Tx.opt_t) :
    Goes net s rs m₀ os (.invoke argv) fleet := by
  have hnarrow : ∀ n, ((fleet.controllers ++ [zdc_cmd_payload_t.zero]).getD n .zero).entity_nb / 256 = 0 := by
    intro n
    rw [System.getD_concat]
    exact h.narrow n
  obtain ⟨status, sent, hmain, hsent⟩ := Tx.main_asked s argv
  cases sent with
  | none =>
    have hstep : step net s (.invoke argv) fleet =
        .ok (.silent, { fleet with controllers := fleet.controllers ++ [.zero] }) := by
      rw [step, hmain]
      rfl
    exact h.silent hstep (fun i done hi => hi.spawn) rfl hnarrow
  | some get =>
    obtain ⟨ask, hask, hsends⟩ := hsent get rfl
    have hevent : ∀ i : Fin N, ((output_t.invoked fleet.controllers.length argv).seen i).event =
        some (.call fleet.controllers.length ask) := by
      intro i
      rw [output_t.seen, System.output_t.event, hask, Option.map_some]
    have hstep : step net s (.invoke argv) fleet = .ok (.invoked fleet.controllers.length argv,
        { fleet with
          controllers := fleet.controllers ++ [.zero]
          queries := fleet.queries ++ (List.finRange N).map fun i => (i, fleet.controllers.length, get) }) := by
      rw [step, hmain]
      rfl
    refine ⟨_, _, hstep, ⟨fun i => ?_, hnarrow⟩, fun i => ⟨Or.inl rfl, fun n a hcall => ?_⟩⟩
    · obtain ⟨done, hi⟩ := h.nodes i
      have hcopy := Pool.of_each (List.nodup_finRange N) (List.mem_finRange i) (fleet.controllers.length, get)
      refine ⟨done, ?_⟩
      rw [history_concat, hevent, view, Pool.of_append, hcopy]
      exact hi.send hsends
    · rw [hevent] at hcall
      cases List.mem_singleton.mp hcall
      exact ⟨argv, rfl, hask⟩

theorem FleetInv.arrive {get : Tx.z_get_t} (h : FleetInv net s rs m₀ os fleet)
    (hq : fleet.queries[k]? = some (i, n, get))
    (hwell : s.receive get.payload = some ⟨0x0, none⟩ → (fleet.nodes i).zdcInfo.Listable) (reply_ok : Bool) :
    Goes net s rs m₀ os (.arrive k reply_ok) fleet := by
  obtain ⟨done, hi⟩ := h.nodes i
  obtain ⟨place, hplace, herase⟩ := Pool.of_eraseIdx_self hq
  obtain ⟨replies, node, hdispatch, hnode, done', hi'⟩ := hi.arrive hplace hwell reply_ok
  change dispatch net s get.keyexpr ⟨get.payload, reply_ok⟩ (fleet.nodes i) = _ at hdispatch
  let sent := (replies.filter (·.delivered)).map fun reply => (n, reply.bytes)
  have hstep : step net s (.arrive k reply_ok) fleet = .ok (.silent,
      { fleet with
        nodes := Function.update fleet.nodes i node
        queries := fleet.queries.eraseIdx k
        replies := fleet.replies ++ sent.map (Prod.mk i) }) := by
    simp only [step, hq, hdispatch, ok_bind]
    rfl
  refine ⟨_, _, hstep, ⟨fun j => ?_, h.narrow⟩, fun j => ?_⟩
  · rw [history_concat, output_t.seen, System.output_t.event, Option.toList_none, List.append_nil]
    by_cases hj : i = j
    · subst hj
      refine ⟨done', ?_⟩
      simp only [view, Function.update_self, herase, Pool.of_append, Pool.of_map_self]
      exact hi'
    · obtain ⟨done, hother⟩ := h.nodes j
      refine ⟨done, ?_⟩
      simp only [view, Function.update_of_ne (Ne.symm hj), Pool.of_eraseIdx_ne hq hj, Pool.of_append,
        Pool.of_map_ne hj, List.append_nil]
      exact hother
  · refine ⟨?_, by simp [output_t.seen, System.output_t.event]⟩
    by_cases hj : i = j
    · subst hj
      simp only [view, Function.update_self]
      rcases hnode with hnode | ⟨ask, hcall, hd⟩
      · exact Or.inl hnode
      · exact Or.inr ⟨n, ask, hcall, hd⟩
    · exact Or.inl (Function.update_of_ne (Ne.symm hj) ..)

theorem FleetInv.report {value : List UInt8} (h : FleetInv net s rs m₀ os fleet) (hlen : ∀ i, (rs i).length ≤ 254)
    (hr : fleet.replies[k]? = some (i, n, value)) : Goes net s rs m₀ os (.report k) fleet := by
  obtain ⟨done, hi⟩ := h.nodes i
  obtain ⟨place, hplace, herase⟩ := Pool.of_eraseIdx_self hr
  obtain ⟨-, shown, hprints, hanswer⟩ := hi.replies _ (List.mem_of_getElem? hplace)
  obtain ⟨p, hprinted, hp⟩ := hprints _ (h.narrow n)
  have hstep : step net s (.report k) fleet = .ok (.printed i n shown,
      { fleet with controllers := fleet.controllers.set n p, replies := fleet.replies.eraseIdx k }) := by
    simp only [step, hr, hprinted, ok_bind]
    rfl
  refine ⟨_, _, hstep, ⟨fun j => ?_, fun m => ?_⟩, fun j => ⟨Or.inl rfl, ?_⟩⟩
  · rw [history_concat, output_t.seen]
    by_cases hj : i = j
    · subst hj
      rw [if_pos rfl]
      refine ⟨done, ?_⟩
      simp only [view, herase]
      exact hi.report hplace hanswer p
    · obtain ⟨done, hother⟩ := h.nodes j
      rw [if_neg hj]
      refine ⟨done, ?_⟩
      simp only [view, Pool.of_eraseIdx_ne hr hj, System.output_t.event, Option.toList_none, List.append_nil]
      exact hother.controllers (List.length_set ..)
  · have hnb := hlen i
    rw [List.getD_eq_getElem?_getD, List.getElem?_set]
    split
    · split
      -- A list of 256 entities would leave the high byte of their number behind.
      · exact hp (by omega)
      · exact zero_narrow
    · rw [← List.getD_eq_getElem?_getD]
      exact h.narrow m
  · rw [output_t.seen]
    split <;> simp [System.output_t.event]

theorem FleetInv.step (h : FleetInv net s rs m₀ os fleet) (hlen : ∀ i, (rs i).length ≤ 254)
    (hwell : ListsWell s event fleet) : Goes net s rs m₀ os event fleet := by
  cases event with
  | invoke argv => exact h.invoke argv
  | arrive k reply_ok =>
    cases hq : fleet.queries[k]? with
    | none => exact h.silent (by simp only [Fleet.step, hq]; rfl) (fun _ _ hi => hi) rfl h.narrow
    | some q =>
      obtain ⟨i, n, get⟩ := q
      exact h.arrive hq (hwell k reply_ok i n get rfl hq) reply_ok
  | lose_query k => exact h.lose_query k
  | report k =>
    cases hr : fleet.replies[k]? with
    | none => exact h.silent (by simp only [Fleet.step, hr]; rfl) (fun _ _ hi => hi) rfl h.narrow
    | some r =>
      obtain ⟨i, n, value⟩ := r
      exact h.report hlen hr
  | lose_reply k => exact h.lose_reply k

theorem FleetInv.start
    (hsetup : ∀ i, setup net.toZenoh (rs i).length (buff_size i) (zdc_suffix i) (rs i) = .ok (info i))
    (hlen : ∀ i, (rs i).length ≤ 254) :
    FleetInv net s rs (fun i => (info i).abstract) [] (Fleet.start info) :=
  ⟨fun i => ⟨[], .start (hsetup i) (Nat.le_succ_of_le (hlen i))⟩, fun _ => zero_narrow⟩

theorem short_run
    (hsetup : ∀ i, setup net.toZenoh (rs i).length (buff_size i) (zdc_suffix i) (rs i) = .ok (info i))
    (hlen : ∀ i, (rs i).length ≤ 254) (hsuffix : ∀ i, System.Short (zdc_suffix i))
    (hrs : ∀ i, ∀ rg ∈ rs i, System.Short rg.ke_suffix) {events : List System.event_t}
    (hevents : ∀ event ∈ events, System.ShortEvent event) :
    Run.Each (step net s) (fun event fleet _ => ListsWell s event fleet) events (start info) := by
  have hlists : ∀ {os : List (output_t N)} {fleet : fleet_t N},
      FleetInv net s rs (fun i => (info i).abstract) os fleet →
      (∀ i, System.AllShort (history i os) (view i fleet)) → ∀ event, ListsWell s event fleet := by
    intro os fleet h hshort event k reply_ok i n get _ _ _
    obtain ⟨done, hi⟩ := h.nodes i
    exact System.listable_of_short hi.ready.full (hshort i).blocks
  refine Run.each_of_inputs
    (I := fun fleet => ∃ os, FleetInv net s rs (fun i => (info i).abstract) os fleet ∧
      ∀ i, System.AllShort (history i os) (view i fleet))
    ?_ ?_ hevents _ ⟨[], .start hsetup hlen, fun i => .start (hsetup i) (Nat.le_succ_of_le (hlen i)) (hsuffix i) (hrs i)⟩
  · rintro event fleet o fleet' ⟨os, h, hshort⟩ hevent hstep
    obtain ⟨o', fleet'', hstep', h', hchanges⟩ := h.step hlen (hlists h hshort event)
    rw [hstep] at hstep'
    cases hstep'
    refine ⟨_, h', fun i => ?_⟩
    rw [history_concat]
    exact (hshort i).step (hchanges i) hevent
  · rintro event fleet ⟨os, h, hshort⟩ -
    exact hlists h hshort event

/-- Every node is linearizable by itself, whatever the others do and reply, when none has more than 255
entities. -/
theorem fleet_linearizable
    (hsetup : ∀ i, setup net.toZenoh (rs i).length (buff_size i) (zdc_suffix i) (rs i) = .ok (info i))
    (hlen : ∀ i, (rs i).length ≤ 254) (events : List System.event_t)
    (hlists : Run.Each (step net s) (fun event fleet _ => ListsWell s event fleet) events (start info)) :
    ∃ t, Run.run (step net s) events (start info) = .ok t ∧ ∀ i, ∃ done,
      Linearizes (table ((rs i).length + 1)) (info i).abstract
        (history i (Run.outs (step net s) events (start info))) done ∧
      (t.nodes i).zdcInfo.abstract = (table ((rs i).length + 1)).after (info i).abstract done := by
  obtain ⟨t, hrun, h⟩ := Run.completes_with
    (I := fun os fleet => FleetInv net s rs (fun i => (info i).abstract) os fleet)
    (fun os event fleet h hwell => by
      obtain ⟨o, fleet', hstep, h', -⟩ := h.step hlen hwell
      exact ⟨o, fleet', hstep, h'⟩) [] (.start hsetup hlen) hlists
  refine ⟨t, hrun, fun i => ?_⟩
  obtain ⟨done, hi⟩ := h.nodes i
  exact ⟨done, hi.linearizes, hi.abstract⟩

/-- A list that reaches both of two nodes. -/
def both : List System.event_t :=
  [.invoke [.k (World.str [0x2a]), .c Tx.CMD_ENTITY], .arrive 1 true, .arrive 0 true, .report 0, .report 0]

def wild : Net := World.net World.acceptAll fun _ _ => true

theorem fleet_linearizable_both : ∃ info t, setup World.acceptAll 1 64 (World.str [0x7a])
      [.sub true (World.str [0x61]) none (.application 0)] = .ok info ∧
    Run.run (step (N := 2) wild World.stack) both (start fun _ => info) = .ok t ∧
    ∀ i : Fin 2, ∃ done, Linearizes (table 2) info.abstract
      [.call 0 .list, .ret 0 (.entities 2 [⟨"queryable", "on", [0x7a]⟩, ⟨"sub", "on", [0x61]⟩])] done ∧
      (t.nodes i).zdcInfo.abstract = (table 2).after info.abstract done := by
  let rs : List Registration := [.sub true (World.str [0x61]) none (.application 0)]
  obtain ⟨info, hsetup, hzero, hone⟩ : ∃ info, setup World.acceptAll 1 64 (World.str [0x7a]) rs = .ok info ∧
      history (0 : Fin 2) (Run.outs (step wild World.stack) both (start fun _ => info)) =
        [.call 0 .list, .ret 0 (.entities 2 [⟨"queryable", "on", [0x7a]⟩, ⟨"sub", "on", [0x61]⟩])] ∧
      history (1 : Fin 2) (Run.outs (step wild World.stack) both (start fun _ => info)) =
        [.call 0 .list, .ret 0 (.entities 2 [⟨"queryable", "on", [0x7a]⟩, ⟨"sub", "on", [0x61]⟩])] :=
    ⟨_, rfl, rfl, rfl⟩
  have hsetup' : ∀ _ : Fin 2, setup wild.toZenoh rs.length 64 (World.str [0x7a]) rs = .ok info := fun _ => hsetup
  have hrs : ∀ _ : Fin 2, ∀ rg ∈ rs, System.Short rg.ke_suffix := fun _ rg hrg =>
    List.mem_singleton.mp hrg ▸ show 3 + 2 ≤ 64 by decide
  have hshort : ∀ event ∈ both, System.ShortEvent event := by
    rintro event hevent argv eid suffix rfl hasked
    simp only [both, List.mem_cons, System.event_t.invoke.injEq, reduceCtorEq, List.not_mem_nil, or_false] at hevent
    rw [hevent] at hasked
    cases hasked
  obtain ⟨t, hrun, hnodes⟩ := fleet_linearizable (s := World.stack) hsetup'
    (fun _ => by decide) both
    (short_run hsetup' (fun _ => by decide) (fun _ => show 3 + 2 ≤ 64 by decide) hrs hshort)
  refine ⟨info, t, hsetup, hrun, fun i => ?_⟩
  obtain ⟨done, hlin, habs⟩ := hnodes i
  have hhist : history i (Run.outs (step wild World.stack) both (start fun _ => info)) =
      [.call 0 .list, .ret 0 (.entities 2 [⟨"queryable", "on", [0x7a]⟩, ⟨"sub", "on", [0x61]⟩])] := by
    match i with
    | 0 => exact hzero
    | 1 => exact hone
  rw [hhist] at hlin
  exact ⟨done, hlin, habs⟩

end ZdcPoc.Fleet
