import ZdcPoc.Keyexprs
import ZdcPoc.Publisher
import ZdcPoc.Queries

/-!
# The faults of the publisher's program

The two tasks of `main_rx.c` share the table. A turn fails when a list overflows its buffer, when the
subscriber that was registered off is undeclared before it was declared, or when a put reads through a
pointer whose block a rename has moved.
-/

namespace ZdcPoc.Rx

open B zdc_info_t

variable {z : Zenoh} {s : LcsfStack} {info : zdc_info_t} {m m' t : main_t} {o : output_t} {turn : turn_t}
  {query : query_t} {c : Cell}

/-- The loop is before its put, and its pointer is not to the block that entity 1 has. -/
def Stale (m : main_t) : Prop :=
  ∃ buf ke, m.loop = .put buf ke ∧
    ∀ c, m.node.zdcInfo.cell 1 = some c → c.entity.ke_suffix.length ≠ ke.ke_suffix.size

structure Running (z : Zenoh) (m : main_t) : Prop extends Up z m where
  quiet : m.node.zdcInfo.curr_msg_size = 0

theorem Running.resting (h : Running z m) : Resting z m.node := ⟨h.served, h.quiet⟩

theorem Running.step (h : Running z m) (hstep : step z s turn m = .ok (o, m')) : Running z m' := by
  refine ⟨h.toUp.step hstep, ?_⟩
  cases turn with
  | publisher random =>
    obtain ⟨c, hc, -⟩ := h.cell
    rw [(publisher_cases h.toUp hc hstep).1]
    exact h.quiet
  | handler query =>
    obtain ⟨⟨reply, node⟩, hhandler, hstep⟩ := Result.bind_ok hstep
    cases hstep
    exact (h.resting.next hhandler).quiet

/-- A longer keyexpr for entity 1, between the retrieval and the put. -/
def longer : query_t := ⟨World.encode ⟨0x3, some [⟨some 1, [1]⟩, ⟨some 21, List.replicate 20 0x61 ++ [0]⟩]⟩, true⟩

theorem renames_one {cmd : Command} {ke : CString} (h : cmd.renames 1 = some ke) :
    cmd = .set_entity_keyexpr 1 ke := by
  cases cmd with
  | set_entity_keyexpr id ke' =>
    rw [Command.renames] at h
    split at h
    · rename_i hid
      cases h
      have hone : id = 1 := UInt16.toNat_inj.mp hid
      rw [hone]
    · cases h
  | _ => cases h

theorem block_grows (h : Up z m) (hc : m.node.zdcInfo.cell 1 = some c)
    (hstep : step z s (.handler query) m = .ok (o, m')) :
    ∃ c', m'.node.zdcInfo.cell 1 = some c' ∧ c.entity.ke_size ≤ c'.entity.ke_size ∧
      (c'.entity.ke_size = c.entity.ke_size ↔ KeepsBlock s (.handler query) m) := by
  obtain ⟨-, -, -, hexecutes, hnone⟩ := handler_turn_spec h hstep
  by_cases hkeep : KeepsBlock s (.handler query) m
  · obtain ⟨_, ⟨⟩, hkeep'⟩ := id hkeep
    suffices hsize : ∃ c', m'.node.zdcInfo.cell 1 = some c' ∧ c'.entity.ke_size = c.entity.ke_size by
      obtain ⟨c', hc', hsize⟩ := hsize
      exact ⟨c', hc', Nat.le_of_eq hsize.symm, iff_of_true hsize hkeep⟩
    by_cases hany : ∃ cmd, Executes s cmd (.handler query) m
    · obtain ⟨cmd, hexec⟩ := hany
      refine ⟨_, by rw [hexecutes cmd hexec, hc, Option.map_some], ?_⟩
      rw [act_ke_size]
      cases hname : cmd.renames 1 with
      | none => rfl
      | some ke =>
        obtain rfl := renames_one hname
        obtain ⟨_, ⟨⟩, hhands⟩ := hexec
        exact max_eq_right (hkeep' ke hhands c hc)
    · exact ⟨c, by rw [hnone (not_exists.mp hany), hc], rfl⟩
  · obtain ⟨ke, hhands, hlt⟩ : ∃ ke, Hands s (.set_entity_keyexpr 1 ke) query m.node ∧
        c.entity.ke_size < ke.size := by
      by_contra hno
      refine hkeep ⟨query, rfl, fun ke hhands c' hc' => ?_⟩
      rw [hc] at hc'
      cases hc'
      exact Nat.le_of_not_lt fun hlt => hno ⟨ke, hhands, hlt⟩
    have hsize := act_ke_size (z := z) (i := 1) (c := c) (.set_entity_keyexpr 1 ke)
    rw [Command.renames, if_pos (by decide), Option.elim_some, max_eq_left (Nat.le_of_lt hlt)] at hsize
    refine ⟨_, by rw [hexecutes _ ⟨query, rfl, hhands⟩, hc, Option.map_some], by omega, ?_⟩
    exact iff_of_false (by omega) hkeep

theorem handlers_grow {queries : List query_t} (h : Up z m) (hc : m.node.zdcInfo.cell 1 = some c)
    (hrun : Run.run (step z s) (queries.map .handler) m = .ok t) :
    Up z t ∧ t.loop = m.loop ∧ ∃ c', t.node.zdcInfo.cell 1 = some c' ∧ c.entity.ke_size ≤ c'.entity.ke_size ∧
      (c'.entity.ke_size = c.entity.ke_size ↔
        Run.Each (step z s) (Run.Completed (KeepsBlock s)) (queries.map .handler) m) := by
  induction queries generalizing m c with
  | nil =>
    cases hrun
    exact ⟨h, rfl, c, hc, le_refl _, iff_of_true rfl trivial⟩
  | cons query queries ih =>
    obtain ⟨o, mid, hstep, hrun⟩ := Run.run_cons_ok hrun
    obtain ⟨hup, hloop, -⟩ := handler_turn_spec h hstep
    obtain ⟨c₁, hc₁, hle₁, hiff₁⟩ := block_grows h hc hstep
    obtain ⟨hup', hloop', c₂, hc₂, hle₂, hiff₂⟩ := ih hup hc₁ hrun
    refine ⟨hup', hloop'.trans hloop, c₂, hc₂, hle₁.trans hle₂, ?_⟩
    constructor
    · intro hsame
      refine ⟨fun _ _ _ => hiff₁.mp (by omega), fun o' mid' hstep' => ?_⟩
      rw [hstep] at hstep'
      cases hstep'
      exact hiff₂.mp (by omega)
    · rintro ⟨hkeep, hrest⟩
      rw [hiff₂.mpr (hrest o mid hstep), hiff₁.mpr (hkeep o mid hstep)]

/-- The pointer that the loop has retrieved is stale exactly when one of the queries that were handled
since has grown the block of entity 1. -/
theorem stale_iff_grown (hstart : Started z info) (hone : 1 < info.el_size.toNat) (p : zdc_cmd_payload_t)
    (before : List turn_t) (random : UInt8) (queries : List query_t) {buf : buf_t}
    (hbefore : Run.run (step z s) before (start info p) = .ok m) (hloop : m.loop = .retrieve_keyexpr buf)
    (hstep : step z s (.publisher random) m = .ok (o, m'))
    (hrun : Run.run (step z s) (queries.map .handler) m' = .ok t) :
    Stale t ↔ ¬ Run.Each (step z s) (Run.Completed (KeepsBlock s)) (queries.map .handler) m' := by
  have hm : Up z m := Run.run_inv (fun _ _ _ _ hu hu' => hu.step hu') hbefore (start_up hstart hone p)
  obtain ⟨c, hc, hs⟩ := hm.cell
  have hm' := hm.step hstep
  obtain ⟨hnode, hput⟩ : m'.node = m.node ∧
      m'.loop = .put buf ⟨⟨1, c.entity.ke_suffix.length⟩, c.entity.keyexpr⟩ := by
    obtain ⟨hnode, hcases⟩ := publisher_cases hm hc hstep
    rcases hcases with ⟨h, -⟩ | ⟨buf', h, -, hnext⟩ | ⟨buf', ke, h, -⟩ <;> rw [hloop] at h <;> cases h
    exact ⟨hnode, hnext⟩
  obtain ⟨ht, hloop', c', hc', -, hiff⟩ := handlers_grow hm' (hnode ▸ hc) hrun
  have hs' := (ht.served.cells 1 c' hc').sound
  rw [← hiff, hs'.entity.size, hs.entity.size]
  constructor
  · rintro ⟨buf', size, hput', hall⟩
    rw [hloop', hput] at hput'
    cases hput'
    exact hall c' hc'
  · intro hne
    refine ⟨buf, _, hloop'.trans hput, fun c₂ hc₂ => ?_⟩
    rw [hc'] at hc₂
    cases hc₂
    exact hne

theorem stale_iff_grown_longer : ∃ info m m' t, set_up World.acceptAll = .ok info ∧
    Run.run (step World.acceptAll World.stack) [.publisher 0] (start info .zero) = .ok m ∧
    step World.acceptAll World.stack (.publisher 0) m = .ok (.silent, m') ∧
    Run.run (step World.acceptAll World.stack) ([longer].map .handler) m' = .ok t ∧
    ¬ Run.Each (step World.acceptAll World.stack) (Run.Completed (KeepsBlock World.stack))
      ([longer].map .handler) m' := by
  obtain ⟨info, hsetup, h⟩ := setup_started World.acceptAll ZDC_BUFFER_SIZE ZDC_DEF_CMD_KEYEXPR
    [.pub true ZDC_DEF_PUB_KEYEXPR none, .sub false ZDC_DEF_SUB_KEYEXPR none app_data_handler] (by decide)
  cases hsetup
  refine ⟨_, _, _, _, rfl, rfl, rfl, rfl, ?_⟩
  refine (stale_iff_grown h (by decide) .zero [.publisher 0] 0 [longer] rfl rfl rfl rfl).mp ?_
  exact ⟨⟨0, 0⟩, _, rfl, by rintro c ⟨⟩; decide⟩

end ZdcPoc.Rx
