import ZdcPoc.ListBuffer
import ZdcPoc.Reorder

/-!
# Where declarations come from, and which are left

Whatever Zenoh takes and whatever bytes come as states: a declaration is on a keyexpr that its slot
was given, and one that no entity that is on holds goes back to a state byte that is no switch.
-/

namespace ZdcPoc.B

open zdc_info_t

variable {z : Zenoh} {s : LcsfStack} {info info' t : zdc_info_t} {r : Bool} {i : Nat} {b : UInt8}
  {ke zdc_suffix : CString} {kes : List CString} {rs done : List Registration} {cmds : List Command} {c : Cell}

/-! ## Where they come from -/

/-- The kind, the callback and the options of the declarations of an entity. -/
def zdc_entity_t.declares (e : zdc_entity_t) : Option (DeclKind × Option Callback × Option Nat) :=
  e.type.kind.map fun k => (k, e.cb_ptr, e.config)

def Registration.declares : Registration → Option (DeclKind × Option Callback × Option Nat)
  | pub _ _ _ => none
  | sub _ _ config cb_ptr => some (.subscriber, some cb_ptr, config)

/-- Slot 0 is the command channel, the others are as the application registers them. -/
def slot_declares (rs : List Registration) : Nat → Option (DeclKind × Option Callback × Option Nat)
  | 0 => some (.queryable, some .zdc_cmd_handler, none)
  | i + 1 => rs[i]?.bind Registration.declares

/-- Each declaration is on one of these keyexprs, and else as the entity has it. -/
def Springs (z : Zenoh) (kes : List CString) (c : Cell) : Prop :=
  ∀ d ∈ c.live, z.accepts d.keyexpr = true ∧ d.keyexpr ∈ kes ∧
    c.entity.declares = some (d.kind, d.callback, d.config)

theorem declares_congr {e e' : zdc_entity_t} (ht : e'.type = e.type) (hcb : e'.cb_ptr = e.cb_ptr)
    (hconf : e'.config = e.config) : e'.declares = e.declares := by
  rw [zdc_entity_t.declares, ht, hcb, hconf, zdc_entity_t.declares]

theorem turn_declares : (c.turn z i b).entity.declares = c.entity.declares :=
  declares_congr (Cell.turn_type ..) (Cell.turn_cb_ptr ..) (Cell.turn_config ..)

theorem act_declares (cmd : Command) : (cmd.act z i c).entity.declares = c.entity.declares := by
  cases cmd with
  | list_entities_req => rfl
  | set_entity_config id config => rfl
  | set_entity_state id b =>
    rw [Command.act]
    split
    · exact turn_declares
    · rfl
  | set_entity_keyexpr id ke =>
    rw [Command.act]
    split
    · exact declares_congr (Cell.rename_type ..) (Cell.rename_cb_ptr ..) (Cell.rename_config ..)
    · rfl

/-! ### One cell -/

theorem springs_held (hke : c.entity.keyexpr ∈ kes) {d : Decl} (hd : c.entity.wanted z i = some d) :
    z.accepts d.keyexpr = true ∧ d.keyexpr ∈ kes ∧
      c.entity.declares = some (d.kind, d.callback, d.config) := by
  obtain ⟨hz, k, hk, rfl⟩ := wanted_eq_some.mp hd
  refine ⟨hz, hke, ?_⟩
  rw [zdc_entity_t.declares, hk]
  rfl

theorem undeclare_eq_sub (data : handle_t) (live : Session) :
    (z_undeclare data live).getD live = live - held data.decl := by
  cases data with
  | unwritten => exact (Multiset.sub_zero live).symm
  | null => exact (Multiset.sub_zero live).symm
  | declared d => exact (Multiset.sub_singleton d live).symm

theorem live_turn {d : Decl} (hd : d ∈ (c.turn z i b).live) :
    d ∈ c.live ∨ c.entity.wanted z i = some d := by
  rcases Cell.turn_cases z i b c with ⟨h, -⟩ | ⟨h, -⟩ | ⟨h, -⟩ | ⟨h, -⟩ <;> rw [h] at hd
  · exact Or.inl hd
  · cases hk : c.entity.type.kind with
    | none => rw [Cell.declare_of_no_kind hk] at hd; exact Or.inl hd
    | some k =>
      rw [Cell.withState, (Cell.declare_of_kind (z := z) (i := i) hk).2] at hd
      rcases Multiset.mem_add.mp hd with hd | hd
      · exact Or.inr (mem_held.mp hd)
      · exact Or.inl hd
  · cases hk : c.entity.type.kind with
    | none => rw [Cell.undeclare_of_no_kind hk] at hd; exact Or.inl hd
    | some k =>
      rw [Cell.withState, (Cell.undeclare_of_kind hk).2] at hd
      rw [undeclare_eq_sub] at hd
      exact Or.inl (Multiset.mem_of_le (Multiset.sub_le_self _ _) hd)
  · exact Or.inl hd

theorem Springs.turn (h : Springs z kes c) (hke : c.entity.keyexpr ∈ kes) :
    Springs z kes (c.turn z i b) := by
  intro d hd
  rw [turn_declares]
  rcases live_turn hd with hd | hd
  · exact h d hd
  · exact springs_held hke hd

theorem Springs.rewrite (h : Springs z kes c) : Springs z (kes ++ [ke]) (c.rewrite ke) := by
  intro d hd
  obtain ⟨hz, hke, hdecl⟩ := h d hd
  exact ⟨hz, List.mem_append_left _ hke, hdecl⟩

theorem Springs.rename (h : Springs z kes c) (hke : c.entity.keyexpr ∈ kes) :
    Springs z (kes ++ [ke]) (c.rename z i ke) := by
  unfold Cell.rename
  split
  · refine (h.turn hke).rewrite.turn ?_
    rw [Cell.rewrite_keyexpr]
    exact List.mem_append_right _ List.mem_cons_self
  · exact h.rewrite

theorem Springs.act (h : Springs z kes c) (hke : c.entity.keyexpr ∈ kes) (cmd : Command) :
    Springs z (kes ++ (cmd.renames i).toList) (cmd.act z i c) := by
  have hsame : ∀ c', Springs z kes c' → Springs z (kes ++ (none : Option CString).toList) c' := by
    intro c' h'
    rwa [Option.toList_none, List.append_nil]
  cases cmd with
  | list_entities_req => exact hsame _ h
  | set_entity_config id config => exact hsame _ h
  | set_entity_state id b =>
    rw [Command.act]
    split
    · exact hsame _ (h.turn hke)
    · exact hsame _ h
  | set_entity_keyexpr id ke =>
    rw [Command.act, Command.renames]
    split
    · exact h.rename hke
    · exact hsame _ h

theorem Holds.current (h : Holds kes c.entity) : c.entity.keyexpr ∈ kes := by
  obtain ⟨ke, rest, hlast, hblock⟩ := h.last
  have hke : c.entity.keyexpr = ke := by
    rw [zdc_entity_t.keyexpr, hblock, Block.str_bytes, Option.getD_some]
  rw [hke]
  exact List.mem_of_getLast? hlast

/-! ### Runs -/

/-- The node after these registrations and commands. -/
structure Sprung (z : Zenoh) (zdc_suffix : CString) (rs : List Registration) (cmds : List Command)
    (info : zdc_info_t) : Prop extends Traced zdc_suffix (history rs cmds) info where
  declares : ∀ i c, info.cell i = some c → c.entity.declares = slot_declares rs i
  springs : ∀ i c, info.cell i = some c → Springs z (assigned zdc_suffix (history rs cmds) i) c

/-- The cell of slot `i` as the set up leaves it. -/
def Made (z : Zenoh) (zdc_suffix : CString) (rs : List Registration) (i : Nat) (c : Cell) : Prop :=
  match i with
  | 0 => c = (selfCell zdc_suffix).turn z 0 1
  | i + 1 => ∃ rg mid, rs[i]? = some rg ∧ c = rg.cell z mid (i + 1)

theorem Made.add {rg : Registration} (h : Made z zdc_suffix done i c) : Made z zdc_suffix (done ++ [rg]) i c := by
  cases i with
  | zero => exact h
  | succ i =>
    obtain ⟨rg', mid, hget, hc⟩ := h
    refine ⟨rg', mid, ?_, hc⟩
    rw [List.getElem?_append_left (List.getElem?_eq_some_iff.mp hget).1, hget]

theorem add_all_made (done : List Registration) (hf : Filled z (done.length + 1) info)
    (hroom : done.length + 1 + rs.length ≤ 256)
    (h : ∀ i c, info.cell i = some c → Made z zdc_suffix done i c)
    (hadd : Registration.add_all z rs info = .ok t) :
    ∀ i c, t.cell i = some c → Made z zdc_suffix (done ++ rs) i c := by
  induction rs generalizing info done with
  | nil =>
    cases hadd
    rwa [List.append_nil]
  | cons rg rs ih =>
    rw [List.length_cons] at hroom
    obtain ⟨mid, ha, hadd⟩ := Result.bind_ok hadd
    have hidx : info.el_idx.toNat = done.length + 1 := by
      rw [hf.el_idx, UInt8.toNat_ofNat']
      omega
    have hmid := hf.add (by omega) (by omega) ha
    have hlen : (done ++ [rg]).length = done.length + 1 := by
      rw [List.length_append, List.length_singleton]
    rw [← hlen] at hmid
    rw [← List.singleton_append, ← List.append_assoc]
    refine ih _ hmid (by omega) (fun i c hc => ?_) hadd
    rw [Registration.add_cell hf.wf ha, hidx] at hc
    split at hc
    · rename_i hi
      subst hi
      obtain rfl := Option.some.inj hc
      exact ⟨rg, info, List.getElem?_concat_length, rfl⟩
    · exact (h i c hc).add

theorem setup_made {entity_nb buff_size : Nat}
    (hsetup : setup z entity_nb buff_size zdc_suffix rs = .ok info) (hlen : rs.length ≤ 255) :
    ∀ i c, info.cell i = some c → Made z zdc_suffix rs i c := by
  obtain ⟨first, hinit, hadd⟩ := Result.bind_ok hsetup
  refine add_all_made [] (MainInit_filled hinit).1 (by rw [List.length_nil]; omega)
    (fun i c hc => ?_) hadd
  rw [MainInit_cell hinit] at hc
  split at hc
  · rename_i hi
    subst hi
    exact (Option.some.inj hc).symm
  · cases hc

theorem Made.declares (h : Made z zdc_suffix rs i c) : c.entity.declares = slot_declares rs i := by
  cases i with
  | zero =>
    obtain rfl := h
    exact turn_declares
  | succ i =>
    obtain ⟨rg, mid, hget, rfl⟩ := h
    rw [slot_declares, hget, Registration.cell, turn_declares]
    cases rg <;> rfl

theorem setup_tidy {entity_nb buff_size : Nat}
    (hsetup : setup z entity_nb buff_size zdc_suffix rs = .ok info) (hlen : rs.length ≤ 255) :
    info.Cells (Cell.Tidy z) := by
  obtain ⟨first, hinit, hadd⟩ := Result.bind_ok hsetup
  exact ((MainInit_filled hinit).1.add_all (by omega) (by omega) hadd).tidy

theorem Sprung.start {entity_nb buff_size : Nat}
    (hsetup : setup z entity_nb buff_size zdc_suffix rs = .ok info) (hlen : rs.length ≤ 255) :
    Sprung z zdc_suffix rs [] info := by
  have htraced : Traced zdc_suffix (history rs []) info := by
    obtain ⟨first, hinit, hadd⟩ := Result.bind_ok hsetup
    have hroom : (registered zdc_suffix []).length + rs.length ≤ 256 := by
      rw [registered, List.filterMap_nil, List.length_singleton]
      omega
    rw [history, List.map_nil, List.append_nil, ← List.nil_append (rs.map Event.add)]
    exact (Traced.init hinit).add_all hroom hadd
  refine ⟨htraced, fun i c hc => (setup_made hsetup hlen i c hc).declares, fun i c hc d hd => ?_⟩
  have ht := setup_tidy hsetup hlen i c hc
  rw [ht.live, ht.data] at hd
  split at hd
  · exact springs_held (htraced.held i c hc).current (mem_held.mp hd)
  · exact absurd hd (Multiset.notMem_zero d)

theorem history_append (rs : List Registration) (cmds : List Command) (cmd : Command) :
    history rs (cmds ++ [cmd]) = history rs cmds ++ [.exec cmd] := by
  rw [history, List.map_append, ← List.append_assoc]
  rfl

theorem Sprung.exec {cmd : Command} (h : Sprung z zdc_suffix rs cmds info)
    (hexec : execute z s cmd info = .ok (r, info')) : Sprung z zdc_suffix rs (cmds ++ [cmd]) info' := by
  have hd := execute_stepped h.wf hexec
  have htraced := h.toTraced.exec hexec
  rw [← history_append] at htraced
  refine ⟨htraced, fun i c' hc' => ?_, fun i c' hc' => ?_⟩ <;>
    rw [hd.cell] at hc' <;> obtain ⟨c, hc, rfl⟩ := Option.map_eq_some_iff.mp hc'
  · rw [act_declares]
    exact h.declares i c hc
  · rw [history_append, assigned_exec]
    exact (h.springs i c hc).act (h.held i c hc).current cmd

/-- After any commands every live declaration is of a registered slot: on a keyexpr that was assigned
to this slot and that Zenoh took, with the kind, the callback and the options of its registration. -/
theorem declarations_traced {entity_nb buff_size : Nat}
    (hsetup : setup z entity_nb buff_size zdc_suffix rs = .ok info) (hlen : rs.length ≤ 255)
    (hrun : Run.run (execute z s) cmds info = .ok t) :
    ∀ d ∈ t.session, z.accepts d.keyexpr = true ∧
      d.keyexpr ∈ assigned zdc_suffix (history rs cmds) d.entity ∧
      slot_declares rs d.entity = some (d.kind, d.callback, d.config) := by
  have h : Sprung z zdc_suffix rs cmds t := Run.run_inputs (I := Sprung z zdc_suffix rs)
    (fun _ _ _ _ _ hdone hexec => hdone.exec hexec) [] hrun (.start hsetup hlen)
  intro d hd
  obtain ⟨c, hc⟩ := h.wf.stray d hd
  have hlive : d ∈ c.live := by
    rw [(cell_eq_some.mp hc).2]
    exact mem_part.mpr ⟨hd, rfl⟩
  obtain ⟨hz, hke, hdecl⟩ := h.springs _ c hc d hlive
  exact ⟨hz, hke, (h.declares _ c hc).symm.trans hdecl⟩

theorem declarations_traced_renamed : ∃ info t,
    setup World.acceptAll 1 64 (World.str [0x7a]) [.sub true (World.str [0x61]) none (.application 0)] =
      .ok info ∧
    Run.run (execute World.acceptAll World.stack)
      [.set_entity_state 1 7, .set_entity_keyexpr 1 (World.str [0x62])] info = .ok t ∧
    ∀ d ∈ t.session, World.acceptAll.accepts d.keyexpr = true ∧
      d.keyexpr ∈ assigned (World.str [0x7a]) (history [.sub true (World.str [0x61]) none (.application 0)]
        [.set_entity_state 1 7, .set_entity_keyexpr 1 (World.str [0x62])]) d.entity ∧
      slot_declares [.sub true (World.str [0x61]) none (.application 0)] d.entity =
        some (d.kind, d.callback, d.config) := by
  obtain ⟨info, t, hsetup, hrun⟩ : ∃ info t,
      setup World.acceptAll 1 64 (World.str [0x7a])
        [.sub true (World.str [0x61]) none (.application 0)] = .ok info ∧
      Run.run (execute World.acceptAll World.stack)
        [.set_entity_state 1 7, .set_entity_keyexpr 1 (World.str [0x62])] info = .ok t :=
    ⟨_, _, rfl, rfl⟩
  exact ⟨info, t, hsetup, hrun, declarations_traced hsetup (by decide) hrun⟩

/-! ## Which are left -/

/-- The declarations that no entity that is on accounts for. -/
def Cell.strays (c : Cell) : Session :=
  if c.entity.isOn then c.live - held c.entity.data.decl else c.live

/-- A state byte for the entity that is neither OFF nor ON. -/
def Command.confuses (i : Nat) : Command → Bool
  | set_entity_state id b => id.toNat = i ∧ b ≠ 0 ∧ b ≠ 1
  | _ => false

theorem strays_of_on (h : c.entity.isOn) : c.strays = c.live - held c.entity.data.decl := if_pos h

theorem strays_of_not_on (h : ¬ c.entity.isOn) : c.strays = c.live := if_neg h

theorem card_held (data : Option Decl) : (held data).card ≤ 1 := by
  cases data with
  | none => exact Nat.zero_le 1
  | some d => exact Nat.le_of_eq (Multiset.card_singleton d)

theorem undeclare_live (h : c.Inv z i) : c.undeclare.live = c.live - held c.entity.data.decl := by
  cases hk : c.entity.type.kind with
  | none => rw [Cell.undeclare_of_no_kind hk, h.silent hk, Multiset.zero_sub]
  | some k => rw [(Cell.undeclare_of_kind hk).2, undeclare_eq_sub]

theorem declare_strays (h : c.Inv z i) (hoff : ¬ c.entity.isOn) :
    ((c.declare z i).withState 1).strays = c.strays := by
  have hon : ((c.declare z i).withState 1).entity.isOn := (toInt8_eq_on 1).mpr rfl
  rw [strays_of_on hon, strays_of_not_on hoff]
  cases hk : c.entity.type.kind with
  | none =>
    rw [Cell.declare_of_no_kind hk]
    change c.live - held c.entity.data.decl = c.live
    rw [h.silent hk, Multiset.zero_sub]
  | some k =>
    obtain ⟨hdata, hlive⟩ := Cell.declare_of_kind (z := z) (i := i) hk
    change (c.declare z i).live - held (c.declare z i).entity.data.decl = c.live
    rw [hdata, hlive, Multiset.add_comm, Multiset.add_sub_cancel_right]

/-- Only a byte that is no switch adds a stray, and no more than the one that the entity held. -/
theorem strays_turn (h : c.Inv z i) :
    (c.turn z i b).strays.card ≤ c.strays.card + if b ≠ 0 ∧ b ≠ 1 then 1 else 0 := by
  rcases Cell.turn_cases z i b c with ⟨e, -⟩ | ⟨e, rfl, hoff⟩ | ⟨e, rfl, -⟩ | ⟨e, -, hinv, h1⟩ <;> rw [e]
  · exact Nat.le_add_right _ _
  · rw [declare_strays h hoff]
    exact Nat.le_add_right _ _
  · have hoff : ¬ (c.undeclare.withState 0).entity.isOn := fun hon => absurd ((toInt8_eq_on 0).mp hon) (by decide)
    rw [strays_of_not_on hoff]
    change c.undeclare.live.card ≤ _
    rw [undeclare_live h]
    by_cases hon : c.entity.isOn
    · rw [strays_of_on hon]
      exact Nat.le_add_right _ _
    · rw [strays_of_not_on hon]
      exact (Multiset.card_le_card (Multiset.sub_le_self _ _)).trans (Nat.le_add_right _ _)
  · have hoff : ¬ (c.withState b).entity.isOn := fun hon => h1 ((toInt8_eq_on b).mp hon)
    rw [strays_of_not_on hoff]
    change c.live.card ≤ _
    by_cases hon : c.entity.isOn
    · -- The byte 0 does not take an entity that is on here.
      have h0 : b ≠ 0 := fun hb => by
        have hstate := hinv hb
        rw [hon] at hstate
        cases hstate
      rw [if_pos ⟨h0, h1⟩, strays_of_on hon]
      have hcard := Multiset.card_le_card (Multiset.le_sub_add (s := c.live) (t := held c.entity.data.decl))
      have hheld := card_held c.entity.data.decl
      rw [Multiset.card_add] at hcard
      omega
    · rw [strays_of_not_on hon]
      exact Nat.le_add_right _ _

theorem strays_rename (h : c.Inv z i) : (c.rename z i ke).strays.card ≤ c.strays.card := by
  by_cases hon : c.entity.isOn
  · have hoff : ¬ (c.turn z i 0).entity.isOn := by rw [Cell.turn_isOn]; decide
    have hmid : ((c.turn z i 0).rewrite ke).Inv z i := h.turn.rewrite hoff
    have hstart := strays_turn (z := z) (i := i) (b := 0) h
    have hend := strays_turn (z := z) (i := i) (b := 1) hmid
    rw [if_neg (by decide), Nat.add_zero] at hstart hend
    rw [Cell.rename_of_on z i ke c hon]
    exact hend.trans hstart
  · rw [Cell.rename_of_not_on z i ke c hon]
    exact le_refl _

theorem strays_act (h : c.Inv z i) (cmd : Command) :
    (cmd.act z i c).strays.card ≤ c.strays.card + if cmd.confuses i then 1 else 0 := by
  cases cmd with
  | list_entities_req => exact Nat.le_add_right _ _
  | set_entity_config id config => exact Nat.le_add_right _ _
  | set_entity_keyexpr id ke =>
    rw [Command.act]
    split
    · exact (strays_rename h).trans (Nat.le_add_right _ _)
    · exact Nat.le_add_right _ _
  | set_entity_state id b =>
    rw [Command.act]
    split
    · rename_i hid
      have hturn := strays_turn (z := z) (i := i) (b := b) h
      simpa only [Command.confuses, hid.1, true_and, decide_eq_true_eq] using hturn
    · exact Nat.le_add_right _ _

theorem strays_of_tidy (h : c.Tidy z i) : c.strays = 0 := by
  by_cases hon : c.entity.isOn
  · have hself := Multiset.add_sub_cancel_right (s := 0) (t := held c.entity.data.decl)
    rw [Multiset.zero_add] at hself
    rw [strays_of_on hon, h.live, hself]
  · rw [strays_of_not_on hon]
    exact (h.off hon).2

theorem stop_live (h : c.Inv z i) : (c.stop z i).live = c.strays := by
  unfold Cell.stop Cell.strays
  split
  · rename_i hon
    rw [Cell.turn_off hon]
    exact undeclare_live h
  · rfl

theorem card_live (c : Cell) : c.live.card ≤ c.strays.card + 1 := by
  have hheld := card_held c.entity.data.decl
  by_cases hon : c.entity.isOn
  · have hcard := Multiset.card_le_card (Multiset.le_sub_add (s := c.live) (t := held c.entity.data.decl))
    rw [Multiset.card_add] at hcard
    rw [strays_of_on hon]
    omega
  · rw [strays_of_not_on hon]
    exact Nat.le_add_right _ _

theorem close_spec (h : Served z info) : ∃ closed, zdc_close z info = .ok closed ∧
    ∀ i, part Decl.entity i closed.session = (info.cell i).elim 0 Cell.strays := by
  obtain ⟨closed, hclosed, hout, hin⟩ := close_loop_spec z info
    (List.range info.el_size.toNat) List.nodup_range fun i hi => by
      obtain ⟨c, hc⟩ := h.full.registered i (List.mem_range.mp hi)
      exact ⟨c, hc, h.full.sound i c hc⟩
  refine ⟨closed, hclosed, fun i => ?_⟩
  cases hc : info.cell i with
  | none =>
    have hrange : i ∉ List.range info.el_size.toNat := by
      intro hi
      obtain ⟨c, hc'⟩ := h.full.registered i (List.mem_range.mp hi)
      rw [hc] at hc'
      cases hc'
    rw [hout i hrange, h.full.part_of_no_cell hc]
    rfl
  | some c =>
    rw [hin i (List.mem_range.mpr (h.full.lt_of_cell hc)) c hc, stop_live (h.cells i c hc)]
    rfl

/-! ### Runs -/

/-- The entity has at most one declaration more than these, and a close leaves at most these. -/
def LeavesAtMost (n i : Nat) (t closed : zdc_info_t) : Prop :=
  (part Decl.entity i t.session).card ≤ n + 1 ∧ (part Decl.entity i closed.session).card ≤ n

theorem strays_run (hstart : Started z info) (hrun : Run.run (execute z s) cmds info = .ok t) :
    Served z t ∧ ∀ i c, t.cell i = some c → c.strays.card ≤ cmds.countP (Command.confuses i) := by
  refine Run.run_inputs (I := fun done u => Served z u ∧ ∀ i c, u.cell i = some c →
    c.strays.card ≤ done.countP (Command.confuses i)) (fun done cmd u o u' hu hexec => ?_) [] hrun
    ⟨hstart.served, fun i c hc => ?_⟩
  · obtain ⟨hserved, hcount⟩ := hu
    have hd := execute_stepped hserved.full.toWF hexec
    refine ⟨hserved.step hexec, fun i c' hc' => ?_⟩
    rw [hd.cell] at hc'
    obtain ⟨c, hc, rfl⟩ := Option.map_eq_some_iff.mp hc'
    have hact := strays_act (hserved.cells i c hc) cmd
    have hold := hcount i c hc
    rw [List.countP_append, List.countP_singleton]
    omega
  · rw [strays_of_tidy (hstart.filled.tidy i c hc)]
    exact Nat.zero_le _

/-- After any commands a close completes and leaves, of each entity, at most one declaration for each
state byte of its commands that was neither OFF nor ON. Before it there is at most one more. -/
theorem close_leaves (hstart : Started z info) (hrun : Run.run (execute z s) cmds info = .ok t) :
    ∃ closed, zdc_close z t = .ok closed ∧
      ∀ i, LeavesAtMost (cmds.countP (Command.confuses i)) i t closed := by
  obtain ⟨hserved, hcount⟩ := strays_run hstart hrun
  obtain ⟨closed, hclosed, hleft⟩ := close_spec hserved
  refine ⟨closed, hclosed, fun i => ?_⟩
  rw [LeavesAtMost, hleft]
  cases hc : t.cell i with
  | none =>
    rw [hserved.full.part_of_no_cell hc]
    exact ⟨Nat.zero_le _, Nat.zero_le _⟩
  | some c =>
    rw [← (cell_eq_some.mp hc).2]
    exact ⟨(card_live c).trans (Nat.add_le_add_right (hcount i c hc) 1), hcount i c hc⟩

/-- One byte 7 for a subscriber that is on: a close leaves at most its declaration. -/
theorem close_leaves_confused : ∃ info t closed, Started World.noEmptyChunk info ∧
    Run.run (execute World.noEmptyChunk World.stack)
      [.set_entity_state 1 7, .set_entity_state 1 1, .set_entity_state 1 0] info = .ok t ∧
    zdc_close World.noEmptyChunk t = .ok closed ∧ ∀ i, LeavesAtMost (List.countP (Command.confuses i)
      [.set_entity_state 1 7, .set_entity_state 1 1, .set_entity_state 1 0]) i t closed := by
  obtain ⟨info, hsetup, h⟩ := setup_started World.noEmptyChunk 64 (World.str [0x7a])
    [.sub true (World.str [0x61]) none (.application 0)] (by decide)
  obtain ⟨t, hrun⟩ : ∃ t, Run.run (execute World.noEmptyChunk World.stack)
      [.set_entity_state 1 7, .set_entity_state 1 1, .set_entity_state 1 0] info = .ok t := by
    cases hsetup
    exact ⟨_, rfl⟩
  obtain ⟨closed, hclosed, hleaves⟩ := close_leaves h hrun
  exact ⟨info, t, closed, h, hrun, hclosed, hleaves⟩

end ZdcPoc.B
