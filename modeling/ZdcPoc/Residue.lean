import ZdcPoc.Declarations
import ZdcPoc.Lib.LastWrite

/-!
# What a list reveals of earlier keyexprs

A rename writes over the start of the block and leaves the rest, so a block is all the keyexprs of its
slot, laid over each other. A list sends the whole of it.
-/

namespace ZdcPoc.B

open zdc_info_t LastWrite

variable {z : Zenoh} {s : LcsfStack} {info info' t t' : zdc_info_t} {r : Bool} {i : Nat}
  {ke zdc_suffix : CString} {kes : List CString} {rs : List Registration} {cmds : List Command} {c : Cell}

/-! ## One block -/

/-- The block of an entity to which `kes` were assigned, byte by byte. -/
def Overlaid (kes : List CString) (e : zdc_entity_t) : Prop :=
  e.ke_suffix = Block.ofBytes (overlay (kes.map CString.bytes))

theorem Overlaid.first {e : zdc_entity_t} (h : e.ke_suffix = Block.ofBytes ke.bytes) : Overlaid [ke] e := by
  rw [Overlaid, List.map_cons, List.map_nil, overlay_singleton, h]

theorem Overlaid.turn (h : Overlaid kes c.entity) (b : UInt8) : Overlaid kes (c.turn z i b).entity := by
  rw [Overlaid, Cell.turn_ke_suffix]
  exact h

theorem Overlaid.rename (h : Overlaid kes c.entity) : Overlaid (kes ++ [ke]) (c.rename z i ke).entity := by
  rw [Overlaid, Cell.rename_ke_suffix, h, List.map_append, List.map_cons, List.map_nil, overlay_append,
    Block.ofBytes_append, Block.ofBytes_drop, CString.bytes_length]

theorem Overlaid.act (h : Overlaid kes c.entity) (cmd : Command) :
    Overlaid (kes ++ (cmd.renames i).toList) (cmd.act z i c).entity := by
  have hsame : ∀ e, Overlaid kes e → Overlaid (kes ++ (none : Option CString).toList) e := by
    intro e he
    rwa [Option.toList_none, List.append_nil]
  cases cmd with
  | list_entities_req => exact hsame _ h
  | set_entity_config id config => exact hsame _ h
  | set_entity_state id b =>
    rw [Command.act]
    split
    · exact hsame _ (h.turn b)
    · exact hsame _ h
  | set_entity_keyexpr id ke =>
    rw [Command.act, Command.renames]
    split
    · exact h.rename
    · exact hsame _ h

/-! ## Runs -/

theorem registered_history (rs : List Registration) :
    registered zdc_suffix (history rs []) = zdc_suffix :: rs.map Registration.ke_suffix := by
  rw [registered, history, List.map_nil, List.append_nil, List.filterMap_map]
  exact congrArg (zdc_suffix :: ·) (congrFun (List.filterMap_eq_map (f := Registration.ke_suffix)) rs)

theorem renames_history (rs : List Registration) (i : Nat) :
    (history rs []).filterMap (Event.renames i) = [] := by
  rw [history, List.map_nil, List.append_nil, List.filterMap_map]
  exact List.filterMap_eq_nil_iff.mpr fun _ _ => rfl

theorem Made.overlaid (h : Made z zdc_suffix rs i c) :
    Overlaid (assigned zdc_suffix (history rs []) i) c.entity := by
  rw [assigned, registered_history, renames_history, List.append_nil]
  cases i with
  | zero =>
    obtain rfl := h
    exact Overlaid.turn (.first rfl) 1
  | succ i =>
    obtain ⟨rg, mid, hget, rfl⟩ := h
    rw [List.getElem?_cons_succ, List.getElem?_map, hget]
    exact .first (Registration.cell_ke_suffix mid _ rg)

theorem run_overlaid {entity_nb buff_size : Nat}
    (hsetup : setup z entity_nb buff_size zdc_suffix rs = .ok info) (hlen : rs.length ≤ 255)
    (hrun : Run.run (execute z s) cmds info = .ok t) : t.WF ∧
      ∀ i c, t.cell i = some c → Overlaid (assigned zdc_suffix (history rs cmds) i) c.entity := by
  refine Run.run_inputs (I := fun done u => u.WF ∧ ∀ i c, u.cell i = some c →
    Overlaid (assigned zdc_suffix (history rs done) i) c.entity) (fun done cmd u o u' hu hexec => ?_) [] hrun
    ⟨(Sprung.start hsetup hlen).wf, fun i c hc => (setup_made hsetup hlen i c hc).overlaid⟩
  obtain ⟨hw, hcells⟩ := hu
  have hd := execute_stepped hw hexec
  refine ⟨hd.wf, fun i c' hc' => ?_⟩
  rw [hd.cell] at hc'
  obtain ⟨c, hc, rfl⟩ := Option.map_eq_some_iff.mp hc'
  rw [history_append, assigned_exec]
  exact (hcells i c hc).act cmd

/-- A list that comes after any commands sends the records of the table, and each byte of a keyexpr in
them is that of the last keyexpr of its slot that was long enough to have one there. -/
theorem list_reveals {entity_nb buff_size : Nat}
    (hsetup : setup z entity_nb buff_size zdc_suffix rs = .ok info) (hlen : rs.length ≤ 255)
    (hrun : Run.run (execute z s) cmds info = .ok t)
    (hlist : execute z s .list_entities_req t = .ok (r, t')) :
    t'.SendCmdPayload.ptr = some t.records ∧ ∀ i c, t.cell i = some c → ∀ j,
      c.entity.record[3 + j]? =
        ((assigned zdc_suffix (history rs cmds) i).filterMap fun ke => ke.bytes[j]?).getLast? := by
  obtain ⟨hw, hcells⟩ := run_overlaid hsetup hlen hrun
  obtain ⟨hf, hfit⟩ := execute_list_full hw hlist
  obtain ⟨r', t'', hlist', -, hptr, -⟩ := list_reply (s := s) z hf hfit
  rw [hlist] at hlist'
  cases hlist'
  refine ⟨hptr, fun i c hc j => ?_⟩
  have hbytes : c.entity.bytes = overlay ((assigned zdc_suffix (history rs cmds) i).map CString.bytes) := by
    rw [zdc_entity_t.bytes, hcells i c hc, reduceOption_ofBytes]
  rw [zdc_entity_t.record, hbytes, List.getElem?_append_right (Nat.le_add_right 3 j),
    show 3 + j - [c.entity.type.toUInt8, c.entity.state.toUInt8, UInt8.ofNat c.entity.ke_size].length = j
      from Nat.add_sub_cancel_left 3 j, overlay_getElem?, List.filterMap_map]
  rfl

/-- Renamed from `a` to `bcd` and on to `e`, entity 1 still shows `d`. -/
theorem list_reveals_renamed : ∃ info t r t',
    setup World.acceptAll 1 128 (World.str [0x7a]) [.sub true (World.str [0x61]) none (.application 0)] =
      .ok info ∧
    Run.run (execute World.acceptAll World.stack) [.set_entity_keyexpr 1 (World.str [0x62, 0x63, 0x64]),
      .set_entity_keyexpr 1 (World.str [0x65])] info = .ok t ∧
    execute World.acceptAll World.stack .list_entities_req t = .ok (r, t') ∧
    t'.SendCmdPayload.ptr = some t.records ∧ ∀ c, t.cell 1 = some c → c.entity.record[5]? = some 0x64 := by
  obtain ⟨info, t, r, t', hsetup, hrun, hlist⟩ : ∃ info t r t',
      setup World.acceptAll 1 128 (World.str [0x7a])
        [.sub true (World.str [0x61]) none (.application 0)] = .ok info ∧
      Run.run (execute World.acceptAll World.stack) [.set_entity_keyexpr 1 (World.str [0x62, 0x63, 0x64]),
        .set_entity_keyexpr 1 (World.str [0x65])] info = .ok t ∧
      execute World.acceptAll World.stack .list_entities_req t = .ok (r, t') :=
    ⟨_, _, _, _, rfl, rfl, rfl⟩
  obtain ⟨hptr, hbyte⟩ := list_reveals hsetup (by decide) hrun hlist
  exact ⟨info, t, r, t', hsetup, hrun, hlist, hptr, fun c hc => hbyte 1 c hc 2⟩

end ZdcPoc.B
