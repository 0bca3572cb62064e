import ZdcPoc.Slots

/-!
# The block of a keyexpr

A rename copies into the block, and reallocates it only for a longer string, so that its size is
that of the longest keyexpr so far. The table is filled slot by slot, and what was assigned to a
slot can be read off the events. A rename that comes before its slot is registered has no block.
-/

namespace ZdcPoc.B

open zdc_info_t

variable {z : Zenoh} {s : LcsfStack} {info info' : zdc_info_t} {zdc_suffix ke : CString}
  {events : List Event} {event : Event} {kes : List CString} {c : Cell} {i : Nat} {r : Bool}

/-! ## What was assigned -/

def Event.registers : Event → Option CString
  | .add rg => some rg.ke_suffix
  | .exec _ => none

def Command.renames (i : Nat) : Command → Option CString
  | set_entity_keyexpr id ke => if id.toNat = i then some ke else none
  | _ => none

def Event.renames (i : Nat) : Event → Option CString
  | .add _ => none
  | .exec cmd => cmd.renames i

/-- The first keyexprs of the slots, in their order. -/
def registered (zdc_suffix : CString) (events : List Event) : List CString :=
  zdc_suffix :: events.filterMap Event.registers

/-- The keyexprs of slot `i`, the current one last. -/
def assigned (zdc_suffix : CString) (events : List Event) (i : Nat) : List CString :=
  (registered zdc_suffix events)[i]?.toList ++ events.filterMap (Event.renames i)

def longest (kes : List CString) : Nat := kes.foldl (fun n ke => max n ke.chars.length) 0

theorem longest_append (kes : List CString) (ke : CString) :
    longest (kes ++ [ke]) = max (longest kes) ke.chars.length := by
  simp only [longest, List.foldl_append, List.foldl_cons, List.foldl_nil]

theorem registered_add (zdc_suffix : CString) (events : List Event) (rg : Registration) :
    registered zdc_suffix (events ++ [.add rg]) = registered zdc_suffix events ++ [rg.ke_suffix] := by
  simp only [registered, List.filterMap_append, List.cons_append]
  rfl

theorem registered_exec (zdc_suffix : CString) (events : List Event) (cmd : Command) :
    registered zdc_suffix (events ++ [.exec cmd]) = registered zdc_suffix events := by
  simp only [registered, List.filterMap_append]
  exact congrArg (zdc_suffix :: ·) (List.append_nil _)

theorem renames_append (events : List Event) (event : Event) (i : Nat) :
    (events ++ [event]).filterMap (Event.renames i) =
      events.filterMap (Event.renames i) ++ (event.renames i).toList := by
  rw [List.filterMap_append, List.append_right_inj, List.filterMap_cons, List.filterMap_nil]
  cases event.renames i <;> rfl

theorem assigned_add_lt (rg : Registration) (hi : i < (registered zdc_suffix events).length) :
    assigned zdc_suffix (events ++ [.add rg]) i = assigned zdc_suffix events i := by
  unfold assigned
  rw [registered_add, List.getElem?_append_left hi, renames_append]
  exact congrArg _ (List.append_nil _)

theorem assigned_add_self (rg : Registration)
    (hnone : events.filterMap (Event.renames (registered zdc_suffix events).length) = []) :
    assigned zdc_suffix (events ++ [.add rg]) (registered zdc_suffix events).length = [rg.ke_suffix] := by
  unfold assigned
  rw [registered_add, List.getElem?_concat_length, renames_append, hnone]
  rfl

theorem assigned_exec (cmd : Command) : assigned zdc_suffix (events ++ [.exec cmd]) i =
    assigned zdc_suffix events i ++ (cmd.renames i).toList := by
  unfold assigned
  rw [registered_exec, renames_append, List.append_assoc]
  rfl

/-! ## What a block holds -/

/-- The block of an entity to which `kes` were assigned. -/
structure Holds (kes : List CString) (e : zdc_entity_t) : Prop where
  block : e.ke_suffix.length = e.ke_size
  size : e.ke_size = 1 + longest kes
  written : ∀ b ∈ e.ke_suffix, ∃ v, b = some v
  last : ∃ ke rest, kes.getLast? = some ke ∧ e.ke_suffix = Block.ofBytes ke.bytes ++ rest

theorem Holds.first {e : zdc_entity_t} (hblock : e.ke_suffix = Block.ofBytes ke.bytes)
    (hsize : e.ke_size = ke.size) : Holds [ke] e := by
  refine ⟨by rw [hblock, Block.ofBytes_length, CString.bytes_length, hsize], ?_, ?_, ?_⟩
  · rw [hsize, CString.size, longest, List.foldl_cons, List.foldl_nil]
    omega
  · rw [hblock]
    exact fun b hb => Block.written_of_mem hb
  · exact ⟨ke, [], rfl, by rw [hblock, List.append_nil]⟩

theorem Holds.turn (h : Holds kes c.entity) (b : UInt8) : Holds kes (c.turn z i b).entity := by
  refine ⟨?_, ?_, ?_, ?_⟩ <;> simp only [Cell.turn_ke_suffix, Cell.turn_ke_size]
  exacts [h.block, h.size, h.written, h.last]

theorem Holds.rename (h : Holds kes c.entity) (ke : CString) :
    Holds (kes ++ [ke]) (c.rename z i ke).entity := by
  refine ⟨?_, ?_, fun b hb => ?_, ?_⟩
  · rw [Cell.rename_ke_suffix, Cell.rename_ke_size, List.length_append, Block.ofBytes_length,
      CString.bytes_length, List.length_drop, h.block]
    omega
  · rw [Cell.rename_ke_size, h.size, longest_append, CString.size]
    omega
  · rw [Cell.rename_ke_suffix] at hb
    rcases List.mem_append.mp hb with hb | hb
    · exact Block.written_of_mem hb
    · exact h.written b (List.mem_of_mem_drop hb)
  · exact ⟨ke, _, List.getLast?_concat, Cell.rename_ke_suffix z i ke c⟩

theorem act_ke_size (cmd : Command) : (cmd.act z i c).entity.ke_size =
    (cmd.renames i).elim c.entity.ke_size (max ·.size c.entity.ke_size) := by
  cases cmd with
  | list_entities_req => rfl
  | set_entity_config id config => rfl
  | set_entity_state id b =>
    rw [Command.act]
    split
    · exact Cell.turn_ke_size ..
    · rfl
  | set_entity_keyexpr id ke =>
    rw [Command.act, Command.renames]
    split
    · exact Cell.rename_ke_size ..
    · rfl

theorem Holds.act (h : Holds kes c.entity) (cmd : Command) :
    Holds (kes ++ (cmd.renames i).toList) (cmd.act z i c).entity := by
  have hnone : ∀ e, Holds kes e → Holds (kes ++ (none : Option CString).toList) e := by
    intro e he
    rwa [Option.toList_none, List.append_nil]
  cases cmd with
  | list_entities_req => exact hnone _ h
  | set_entity_config id config => exact hnone _ h
  | set_entity_state id b =>
    rw [Command.act]
    split
    · exact hnone _ (h.turn b)
    · exact hnone _ h
  | set_entity_keyexpr id ke =>
    rw [Command.act, Command.renames]
    split
    · exact h.rename ke
    · exact hnone _ h

/-! ## Runs -/

/-- A registration goes to a slot inside the table that is not registered. -/
def AddsFresh (event : Event) (info : zdc_info_t) : Prop :=
  ∀ rg, event = .add rg →
    info.el_idx.toNat < info.el_size.toNat ∧ info.cell info.el_idx.toNat = none

/-- The slots that were registered are the first ones, and each block holds what was assigned to
its slot. -/
structure Traced (zdc_suffix : CString) (events : List Event) (info : zdc_info_t) : Prop where
  wf : info.WF
  filled : ∀ i, (∃ c, info.cell i = some c) ↔ i < (registered zdc_suffix events).length
  el_idx : info.el_idx = UInt8.ofNat (registered zdc_suffix events).length
  few : (registered zdc_suffix events).length ≤ 256
  held : ∀ i c, info.cell i = some c → Holds (assigned zdc_suffix events i) c.entity
  unnamed : ∀ i, (registered zdc_suffix events).length ≤ i → i < info.el_size.toNat →
    events.filterMap (Event.renames i) = []

theorem Traced.init {entity_nb buff_size : Nat}
    (h : zdc_MainInit z 0 entity_nb buff_size zdc_suffix = .ok info) : Traced zdc_suffix [] info := by
  obtain ⟨hf, -⟩ := MainInit_filled h
  refine ⟨hf.wf, hf.filled, hf.el_idx, Nat.le_add_left 1 255, fun i c hc => ?_, fun _ _ _ => rfl⟩
  rw [MainInit_cell h] at hc
  split at hc
  · rename_i hi
    subst hi
    obtain rfl := Option.some.inj hc
    exact Holds.turn (.first rfl rfl) 1
  · cases hc

theorem Traced.el_idx_fresh (h : Traced zdc_suffix events info)
    (hfree : info.cell info.el_idx.toNat = none) :
    info.el_idx.toNat = (registered zdc_suffix events).length ∧
      (registered zdc_suffix events).length < 256 := by
  have hidx : info.el_idx.toNat = (registered zdc_suffix events).length % 256 := by
    rw [h.el_idx, UInt8.toNat_ofNat']
  rcases Nat.lt_or_ge (registered zdc_suffix events).length 256 with hlt | hfull
  · exact ⟨by omega, hlt⟩
  · -- `el_idx` would be 0, where the command channel is.
    have hzero : info.el_idx.toNat = 0 := by rw [hidx, Nat.le_antisymm h.few hfull]
    obtain ⟨c, hc⟩ := (h.filled 0).mpr (by omega)
    rw [hzero, hc] at hfree
    cases hfree

theorem Traced.add {rg : Registration} (h : Traced zdc_suffix events info)
    (hfresh : AddsFresh (.add rg) info) (hadd : rg.add z info = .ok info') :
    Traced zdc_suffix (events ++ [.add rg]) info' := by
  obtain ⟨hin, hfree⟩ := hfresh rg rfl
  obtain ⟨hidx, hlt⟩ := h.el_idx_fresh hfree
  rw [hidx] at hin
  have hcell := Registration.add_cell h.wf hadd
  rw [hidx] at hcell
  have hlen : (registered zdc_suffix (events ++ [.add rg])).length =
      (registered zdc_suffix events).length + 1 := by
    rw [registered_add, List.length_append, List.length_singleton]
  have hnone := h.unnamed _ (Nat.le_refl _) hin
  refine ⟨Registration.add_wf h.wf hadd, fun j => ?_, ?_, by omega, fun j c hc => ?_, fun j hj hsize => ?_⟩
  · rw [hcell, hlen]
    split
    · exact iff_of_true ⟨_, rfl⟩ (by omega)
    · rw [h.filled j]
      omega
  · obtain ⟨-, rfl⟩ := Registration.add_cases h.wf hadd
    rw [hlen, UInt8.ofNat_add, ← h.el_idx]
    rfl
  · rw [hcell] at hc
    split at hc
    · rename_i hj
      subst hj
      obtain rfl := Option.some.inj hc
      rw [assigned_add_self rg hnone]
      exact .first (Registration.cell_ke_suffix _ _ rg) (Registration.cell_ke_size _ _ rg)
    · rw [assigned_add_lt rg ((h.filled j).mp ⟨c, hc⟩)]
      exact h.held j c hc
  · rw [hlen] at hj
    rw [Registration.add_el_size h.wf hadd] at hsize
    rw [renames_append, h.unnamed j (by omega) hsize]
    rfl

theorem names_of_renames {cmd : Command} (h : cmd.renames i = some ke) : cmd.names = some i := by
  cases cmd with
  | set_entity_keyexpr id ke' =>
    rw [Command.renames] at h
    split at h
    · rename_i hid
      exact congrArg some hid
    · cases h
  | _ => cases h

theorem uses_of_execute {cmd : Command} (hw : info.WF) (hzero : ∃ c, info.cell 0 = some c)
    (h : execute z s cmd info = .ok (r, info')) : UsesRegistered (.exec cmd) info := by
  cases cmd with
  | list_entities_req => exact (execute_list_full hw h).1.registered
  | set_entity_config id config =>
    intro i hname
    cases hname
  | set_entity_state id b =>
    rintro i hname hi
    cases hname
    rcases execute_state_cases hw h with ⟨hge, -⟩ | ⟨-, h0, -⟩ | ⟨-, -, c, hc, -⟩
    · omega
    · rwa [h0]
    · exact ⟨c, hc⟩
  | set_entity_keyexpr id ke =>
    rintro i hname hi
    cases hname
    rcases execute_keyexpr_cases hw h with ⟨hge, -⟩ | ⟨-, c, hc, -⟩
    · omega
    · exact ⟨c, hc⟩

theorem Traced.uses {cmd : Command} (h : Traced zdc_suffix events info)
    (hexec : execute z s cmd info = .ok (r, info')) : UsesRegistered (.exec cmd) info :=
  uses_of_execute h.wf ((h.filled 0).mpr (Nat.succ_pos _)) hexec

theorem Traced.exec {cmd : Command} (h : Traced zdc_suffix events info)
    (hexec : execute z s cmd info = .ok (r, info')) :
    Traced zdc_suffix (events ++ [.exec cmd]) info' := by
  have hd := execute_stepped h.wf hexec
  refine ⟨hd.wf, fun j => ?_, ?_, ?_, fun j c' hc' => ?_, fun j hj hsize => ?_⟩
  · rw [registered_exec, hd.cell, ← h.filled j]
    cases info.cell j <;> simp
  · rw [registered_exec, hd.el_idx, h.el_idx]
  · rw [registered_exec]
    exact h.few
  · rw [hd.cell] at hc'
    obtain ⟨c, hc, rfl⟩ := Option.map_eq_some_iff.mp hc'
    rw [assigned_exec]
    exact (h.held j c hc).act cmd
  · rw [registered_exec] at hj
    rw [hd.el_size] at hsize
    have hnot : cmd.renames j = none := by
      by_contra hne
      obtain ⟨ke, hke⟩ := Option.ne_none_iff_exists'.mp hne
      obtain ⟨c, hc⟩ := (h.uses hexec).cell (names_of_renames hke) hsize
      exact absurd ((h.filled j).mp ⟨c, hc⟩) (by omega)
    rw [renames_append, h.unnamed j hj hsize]
    exact congrArg Option.toList hnot

theorem Traced.step (h : Traced zdc_suffix events info) (hfresh : AddsFresh event info)
    (hstep : event.step z s info = .ok (r, info')) : Traced zdc_suffix (events ++ [event]) info' := by
  cases event with
  | add rg =>
    obtain ⟨mid, hadd, hmid⟩ := Result.bind_ok hstep
    cases hmid
    exact h.add hfresh hadd
  | exec cmd => exact h.exec hstep

/-- A rename of the entity does not leave its block, and a list finds `ke_size` bytes in it. -/
structure CopiesInside (z : Zenoh) (s : LcsfStack) (info : zdc_info_t) (i : Nat) (e : zdc_entity_t) :
    Prop where
  strcpy : ∀ id ke, id.toNat = i → ∃ res, execute z s (.set_entity_keyexpr id ke) info = .ok res
  memcpy : ∃ bs, e.ke_suffix.read e.ke_size = some bs

theorem copies_inside (hw : info.WF) (hc : info.cell i = some c) :
    CopiesInside z s info i c.entity := by
  have hs := hw.sound i c hc
  constructor
  · rintro id ke rfl
    exact ⟨_, execute_keyexpr_spec (hw.lt_of_cell hc) hc hs⟩
  · exact ⟨_, hs.entity.read⟩

/-- A command names no slot of the table that is not registered, undeclares no handle that was never
written, and if it is a list, the table is full and its records fit. -/
structure Defined (event : Event) (info : zdc_info_t) : Prop where
  registered : UsesRegistered event info
  written : ∀ cmd, event = .exec cmd → ¬ cmd.BadHandle info
  fits : event = .exec .list_entities_req → info.records.length ≤ 64 * info.el_size.toNat

theorem execute_completes {cmd : Command} (hw : info.WF) (h : Defined (.exec cmd) info) :
    ∃ res, execute z s cmd info = .ok res := by
  rcases execute_outcome (z := z) (s := s) hw h.registered with hok | ⟨hbad, -⟩ | ⟨rfl, hbig, -⟩
  · exact hok
  · exact absurd hbad (h.written cmd rfl)
  · exact absurd (h.fits rfl) (Nat.not_le.mpr hbig)

theorem Traced.defined (h : Traced zdc_suffix events info) (hstep : event.step z s info = .ok (r, info')) :
    Defined event info := by
  cases event with
  | add rg => exact ⟨trivial, by rintro _ ⟨⟩, by rintro ⟨⟩⟩
  | exec cmd =>
    refine ⟨h.uses hstep, ?_, ?_⟩
    · rintro _ ⟨⟩ hbad
      rw [Event.step, execute_badHandle h.wf hbad] at hstep
      cases hstep
    · rintro ⟨⟩
      exact (execute_list_full h.wf hstep).2

theorem Traced.completes (h : Traced zdc_suffix events info)
    (hgood : AddsFresh event info ∧ Defined event info) :
    ∃ r info', event.step z s info = .ok (r, info') ∧ Traced zdc_suffix (events ++ [event]) info' := by
  obtain ⟨⟨r, info'⟩, hstep⟩ : ∃ res, event.step z s info = .ok res := by
    cases event with
    | add rg =>
      have hin : info.el_idx.toNat < info.entity_list.length := h.wf.length ▸ (hgood.1 rg rfl).1
      rw [Event.step, Registration.add_spec rg h.wf hin]
      exact ⟨_, rfl⟩
    | exec cmd => exact execute_completes h.wf hgood.2
  exact ⟨r, info', hstep, h.step hgood.1 hstep⟩

theorem Traced.defined_of_run (h : Traced zdc_suffix events info) {rest : List Event} {t : zdc_info_t}
    (hfresh : Run.Each (Event.step z s) (fun event t _ => AddsFresh event t) rest info)
    (hrun : Run.run (Event.step z s) rest info = .ok t) :
    Run.Each (Event.step z s) (fun event t _ => Defined event t) rest info :=
  Run.good_of_completes (I := Traced zdc_suffix) (fun _ _ _ _ _ ht hgood hstep => ht.step hgood hstep)
    (fun _ _ _ _ _ ht hstep => ht.defined hstep) events hfresh hrun h

/-- The run completes, in each of its states the blocks hold what was assigned to their slots, and no
copy leaves its block. -/
def BlocksHold (z : Zenoh) (s : LcsfStack) (zdc_suffix : CString) (events : List Event)
    (info : zdc_info_t) : Prop :=
  ∀ done, done <+: events → ∃ t, Run.run (Event.step z s) done info = .ok t ∧
    ∀ i c, t.cell i = some c →
      Holds (assigned zdc_suffix done i) c.entity ∧ CopiesInside z s t i c.entity

/-- In a run that registers into fresh slots only, each block is at all times as large as the longest
keyexpr that was assigned to its entity, written to its end, and starts with the last one, exactly when
the commands use registered slots. -/
theorem blocks_hold_iff_registered {entity_nb buff_size : Nat}
    (hinit : zdc_MainInit z 0 entity_nb buff_size zdc_suffix = .ok info) (events : List Event)
    (hfresh : Run.Each (Event.step z s) (fun event t _ => AddsFresh event t) events info) :
    BlocksHold z s zdc_suffix events info ↔
      Run.Each (Event.step z s) (fun event t _ => Defined event t) events info := by
  have hstart := Traced.init hinit
  constructor
  · intro h
    obtain ⟨t, hrun, -⟩ := h events (List.prefix_refl events)
    exact hstart.defined_of_run hfresh hrun
  · intro h done hpre
    have hgood := Run.each_prefix hpre (Run.each_and hfresh h)
    obtain ⟨t, hrun, ht⟩ := Run.completes_inputs
      (fun _ _ _ hd hgood => hd.completes (z := z) (s := s) hgood) [] hgood hstart
    exact ⟨t, hrun, fun i c hc => ⟨ht.held i c hc, copies_inside ht.wf hc⟩⟩

/-- A longer keyexpr, then a shorter one, then a rename that is refused and a list. -/
def renamed_twice : List Event :=
  [.add (.sub true (World.str [0x61]) none (.application 0)),
    .exec (.set_entity_keyexpr 1 (World.str [0x62, 0x63, 0x64])),
    .exec (.set_entity_state 1 0),
    .exec (.set_entity_keyexpr 1 (World.str [0x65])),
    .exec (.set_entity_keyexpr 2 (World.str [0x66])),
    .exec .list_entities_req]

theorem blocks_hold_renamed : ∃ info,
    zdc_MainInit World.acceptAll 0 1 256 (World.str [0x7a]) = .ok info ∧
    BlocksHold World.acceptAll World.stack (World.str [0x7a]) renamed_twice info := by
  obtain ⟨info, hinit⟩ : ∃ info, zdc_MainInit World.acceptAll 0 1 256 (World.str [0x7a]) = .ok info :=
    ⟨_, rfl⟩
  obtain ⟨hf, hsize⟩ := MainInit_filled hinit
  have hfresh : AddsFresh (.add (.sub true (World.str [0x61]) none (.application 0))) info := by
    rintro rg ⟨⟩
    rw [hf.el_idx, hsize]
    refine ⟨by decide, ?_⟩
    rw [MainInit_cell hinit, if_neg (by decide)]
  have hexec : ∀ cmd t, AddsFresh (.exec cmd) t := by rintro cmd t rg ⟨⟩
  have hall : Run.Each (Event.step World.acceptAll World.stack) (fun event t _ => AddsFresh event t)
      renamed_twice info :=
    ⟨hfresh, fun _ _ _ => ⟨hexec _ _, fun _ _ _ => ⟨hexec _ _, fun _ _ _ => ⟨hexec _ _,
      fun _ _ _ => ⟨hexec _ _, fun _ _ _ => ⟨hexec _ _, fun _ _ _ => trivial⟩⟩⟩⟩⟩⟩
  refine ⟨info, hinit, (blocks_hold_iff_registered hinit _ hall).mpr ?_⟩
  obtain ⟨t, hrun⟩ : ∃ t, Run.run (Event.step World.acceptAll World.stack) renamed_twice info = .ok t := by
    cases hinit
    exact ⟨_, rfl⟩
  exact (Traced.init hinit).defined_of_run hall hrun

/-- Entity 1 is renamed before it is registered: its `ke_size` and `ke_suffix` are what `malloc` left. -/
theorem fresh_block_renamed : ∃ info,
    zdc_MainInit World.acceptAll 0 1 256 (World.str [0x7a]) = .ok info ∧
    Run.run (Event.step World.acceptAll World.stack)
      [.exec (.set_entity_keyexpr 1 (World.str [0x62])),
        .add (.sub true (World.str [0x61]) none (.application 0))] info = .error (.uninitialised 1) ∧
    ¬ BlocksHold World.acceptAll World.stack (World.str [0x7a])
      [.exec (.set_entity_keyexpr 1 (World.str [0x62])),
        .add (.sub true (World.str [0x61]) none (.application 0))] info := by
  refine ⟨_, rfl, rfl, fun h => ?_⟩
  obtain ⟨t, hrun, -⟩ := h _ (List.prefix_refl _)
  cases hrun

end ZdcPoc.B
