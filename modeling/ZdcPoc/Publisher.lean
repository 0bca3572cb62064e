import ZdcPoc.Code.MainRx
import ZdcPoc.Handler
import ZdcPoc.World

/-!
# The publisher loop beside the command handler

The loop checks the state of entity 1, takes its keyexpr and publishes, and the handler may run
between any two of these steps. An OFF that comes after the check is too late for that one put.
-/

namespace ZdcPoc.Rx

open B zdc_info_t

variable {z : Zenoh} {s : LcsfStack} {info : zdc_info_t} {m m' : main_t} {o : output_t} {turn : turn_t}

/-! ## What a turn does -/

def Executes (s : LcsfStack) (cmd : Command) (turn : turn_t) (m : main_t) : Prop :=
  ∃ query, turn = .handler query ∧ Hands s cmd query m.node

/-- The application after set up, with entity 1 in its table. -/
structure Up (z : Zenoh) (m : main_t) : Prop where
  served : Served z m.node.zdcInfo
  one : 1 < m.node.zdcInfo.el_size.toNat
  pointer : ∀ buf ke, m.loop = .put buf ke → ke.ke_suffix.slot = 1

theorem Up.cell (h : Up z m) : ∃ c, m.node.zdcInfo.cell 1 = some c ∧ c.Sound 1 := by
  obtain ⟨c, hc⟩ := h.served.full.registered 1 h.one
  exact ⟨c, hc, (h.served.cells 1 c hc).sound⟩

theorem handler_turn_spec (h : Up z m) {query : query_t} (hstep : step z s (.handler query) m = .ok (o, m')) :
    Up z m' ∧ m'.loop = m.loop ∧ (∃ reply, o = .reply reply) ∧
    (∀ cmd, Executes s cmd (.handler query) m →
      m'.node.zdcInfo.cell 1 = (m.node.zdcInfo.cell 1).map (cmd.act z 1)) ∧
    ((∀ cmd, ¬ Executes s cmd (.handler query) m) →
      m'.node.zdcInfo.cell 1 = m.node.zdcInfo.cell 1) := by
  obtain ⟨⟨reply, node⟩, hhandler, hstep⟩ := Result.bind_ok hstep
  cases hstep
  have hw := h.served.full.toWF
  have hsame : (∀ cmd, ¬ Executes s cmd (.handler query) m) → SameTable m.node.zdcInfo node.zdcInfo :=
    fun hnot => same_of_not_hands (fun cmd hhands => hnot cmd ⟨query, rfl, hhands⟩) hhandler
  have hup : Up z { m with node } := by
    by_cases hnot : ∀ cmd, ¬ Executes s cmd (.handler query) m
    · exact ⟨(hsame hnot).served h.served, by simp only [(hsame hnot).el_size]; exact h.one, h.pointer⟩
    · simp only [not_forall, not_not] at hnot
      obtain ⟨cmd, _, ⟨⟩, hhands⟩ := hnot
      have hd := hhands.stepped hw hhandler
      exact ⟨hd.served h.served, by simp only [hd.el_size]; exact h.one, h.pointer⟩
  refine ⟨hup, rfl, ⟨_, rfl⟩, ?_, fun hnot => (hsame hnot).cell 1⟩
  rintro cmd ⟨_, ⟨⟩, hhands⟩
  exact (hhands.stepped hw hhandler).cell 1

theorem publisher_cases (h : Up z m) {c : Cell} (hc : m.node.zdcInfo.cell 1 = some c) {random : UInt8}
    (hstep : step z s (.publisher random) m = .ok (o, m')) :
    m'.node = m.node ∧
    ((m.loop = .check_state ∧ o = .silent ∧ (m'.loop ≠ .check_state → c.entity.isOn) ∧
        ∀ buf ke, m'.loop ≠ .put buf ke) ∨
      (∃ buf, m.loop = .retrieve_keyexpr buf ∧ o = .silent ∧
        m'.loop = .put buf ⟨⟨1, c.entity.ke_suffix.length⟩, c.entity.keyexpr⟩) ∨
      ∃ buf ke, m.loop = .put buf ke ∧ m'.loop = .check_state ∧
        c.entity.ke_suffix.length = ke.ke_suffix.size ∧
        o = .z_put (z.viewed ke.made c.entity.ke_suffix) buf) := by
  have hs := (h.served.cells 1 c hc).sound
  change publisher_step z random m = _ at hstep
  unfold publisher_step at hstep
  split at hstep
  · rename_i hloop
    rw [zdc_entity_state_spec 1 h.one hc, ok_bind] at hstep
    by_cases hon : c.entity.state.toInt = 1
    · rw [if_neg (not_not.mpr hon)] at hstep
      cases hstep
      exact ⟨rfl, Or.inl ⟨hloop, rfl, fun _ => hon, by simp⟩⟩
    · rw [if_pos hon] at hstep
      cases hstep
      exact ⟨rfl, Or.inl ⟨hloop, rfl, fun hne => absurd hloop hne, by simp [hloop]⟩⟩
  · rename_i buf hloop
    rw [zdc_entity_ke_suffix_spec 1 h.one hc, ok_bind, orFault_some, ok_bind,
      ke_ptr_str_spec hc hs rfl, ok_bind] at hstep
    cases hstep
    exact ⟨rfl, Or.inr (Or.inl ⟨buf, hloop, rfl, rfl⟩)⟩
  · rename_i buf ke hloop
    obtain ⟨block, hblock, hstep⟩ := Result.bind_ok hstep
    cases hstep
    rw [← h.pointer buf ke hloop] at hc
    rw [ke_ptr_block_spec hc] at hblock
    split at hblock
    · rename_i hsize
      cases hblock
      exact ⟨rfl, Or.inr (Or.inr ⟨buf, ke, hloop, rfl, hsize, rfl⟩)⟩
    · cases hblock

theorem Up.step (h : Up z m) (hstep : step z s turn m = .ok (o, m')) : Up z m' := by
  cases turn with
  | publisher random =>
    obtain ⟨c, hc, -⟩ := h.cell
    obtain ⟨hnode, hloop⟩ := publisher_cases h hc hstep
    refine ⟨hnode ▸ h.served, hnode ▸ h.one, fun buf ke hput => ?_⟩
    rcases hloop with ⟨-, -, -, hnext⟩ | ⟨buf', -, -, hnext⟩ | ⟨buf', ke', -, hnext, -⟩
    · exact absurd hput (hnext buf ke)
    · rw [hnext] at hput
      cases hput
      rfl
    · rw [hnext] at hput
      cases hput
  | handler query => exact (handler_turn_spec h hstep).1

/-! ## After an OFF -/

structure Silenced (z : Zenoh) (m : main_t) : Prop extends Up z m where
  off : ∀ c, m.node.zdcInfo.cell 1 = some c → ¬ c.entity.isOn

theorem off_stays {cmd : Command} {c : Cell} (hoff : ¬ c.entity.isOn)
    (hne : cmd ≠ .set_entity_state 1 1) : ¬ (cmd.act z 1 c).entity.isOn := by
  cases cmd with
  | list_entities_req => exact hoff
  | set_entity_state id b =>
    rw [Command.act]
    split
    · rename_i hid
      rw [Cell.turn_isOn]
      rintro rfl
      exact hne (congrArg (Command.set_entity_state · 1) (UInt16.toNat_inj.mp hid.1))
    · exact hoff
  | set_entity_keyexpr id ke =>
    rw [Command.act]
    split
    · rw [Cell.rename_isOn]
      exact hoff
    · exact hoff
  | set_entity_config id config => exact hoff

theorem Silenced.step (h : Silenced z m) (hgood : ¬ Executes s (.set_entity_state 1 1) turn m)
    (hstep : step z s turn m = .ok (o, m')) : Silenced z m' := by
  refine ⟨h.toUp.step hstep, fun c' hc' => ?_⟩
  obtain ⟨c, hc, -⟩ := h.cell
  cases turn with
  | publisher random =>
    rw [(publisher_cases h.toUp hc hstep).1] at hc'
    exact h.off c' hc'
  | handler query =>
    obtain ⟨-, -, -, hexecutes, hsame⟩ := handler_turn_spec h.toUp hstep
    by_cases hany : ∃ cmd, Executes s cmd (.handler query) m
    · obtain ⟨cmd, hexec⟩ := hany
      rw [hexecutes cmd hexec, hc, Option.map_some] at hc'
      rw [← Option.some.inj hc']
      apply off_stays (h.off c hc)
      rintro rfl
      exact hgood hexec
    · rw [hsame (not_exists.mp hany)] at hc'
      exact h.off c' hc'

/-- The loop is before a put through this view, and `P` holds of the block of entity 1. -/
structure Poised (z : Zenoh) (buf : buf_t) (ke : view_t) (P : Block → Prop) (m : main_t) : Prop
    extends Up z m where
  loop : m.loop = .put buf ke
  block : ∃ c, m.node.zdcInfo.cell 1 = some c ∧ P c.entity.ke_suffix

variable {buf : buf_t} {ke : view_t} {P : Block → Prop}

theorem Poised.handler (h : Poised z buf ke P m) {query : query_t}
    (hkeep : ∀ cmd c, Hands s cmd query m.node → m.node.zdcInfo.cell 1 = some c → P c.entity.ke_suffix →
      P (cmd.act z 1 c).entity.ke_suffix)
    (hstep : step z s (.handler query) m = .ok (o, m')) : Poised z buf ke P m' := by
  obtain ⟨c, hc, hP⟩ := h.block
  obtain ⟨hup, hloop, -, hexecutes, hnone⟩ := handler_turn_spec h.toUp hstep
  refine ⟨hup, hloop.trans h.loop, ?_⟩
  by_cases hany : ∃ cmd, Executes s cmd (.handler query) m
  · obtain ⟨cmd, hexec⟩ := hany
    obtain ⟨_, ⟨⟩, hhands⟩ := id hexec
    exact ⟨_, by rw [hexecutes cmd hexec, hc, Option.map_some], hkeep cmd c hhands hc hP⟩
  · exact ⟨c, by rw [hnone (not_exists.mp hany), hc], hP⟩

theorem put_cases (h : Up z m) {bytes : List UInt8}
    (hput : step z s turn m = .ok (.z_put bytes buf, m')) :
    ∃ ke c, m.loop = .put buf ke ∧ m.node.zdcInfo.cell 1 = some c ∧
      bytes = z.viewed ke.made c.entity.ke_suffix := by
  obtain ⟨c, hc, -⟩ := h.cell
  cases turn with
  | publisher random =>
    rcases (publisher_cases h hc hput).2 with
      ⟨-, hout, -⟩ | ⟨_, -, hout, -⟩ | ⟨buf', ke, hloop, -, -, hout⟩ <;> cases hout
    exact ⟨ke, c, hloop, hc, rfl⟩
  | handler query =>
    obtain ⟨-, -, ⟨reply, hout⟩, -⟩ := handler_turn_spec h hput
    cases hout

theorem Poised.current {c : Cell} (hs : c.Sound 1)
    (h : Poised z buf ⟨⟨1, c.entity.ke_suffix.length⟩, c.entity.keyexpr⟩ (· = c.entity.ke_suffix) m)
    {bytes : List UInt8} {buf' : buf_t} (hput : Rx.step z s turn m = .ok (.z_put bytes buf', m')) :
    ∃ c', m.node.zdcInfo.cell 1 = some c' ∧ bytes = c'.entity.keyexpr.chars := by
  obtain ⟨c', hc', hblock⟩ := h.block
  obtain ⟨ke, _, hloop, hc, rfl⟩ := put_cases h.toUp hput
  rw [h.loop] at hloop
  cases hloop
  rw [hc'] at hc
  cases hc
  have hstr : c'.entity.ke_suffix.str = some c.entity.keyexpr := by rw [hblock, hs.entity.string]
  refine ⟨c', hc', ?_⟩
  rw [z.viewed_str hstr, zdc_entity_t.keyexpr, zdc_entity_t.keyexpr, hblock]

/-- A run of the handler that does not grow the block of entity 1. -/
def KeepsBlock (s : LcsfStack) (turn : turn_t) (m : main_t) : Prop :=
  ∃ query, turn = .handler query ∧ ∀ ke, Hands s (.set_entity_keyexpr 1 ke) query m.node →
    ∀ c, m.node.zdcInfo.cell 1 = some c → ke.size ≤ c.entity.ke_size

theorem Poised.put (h : Poised z buf ke (·.length = ke.ke_suffix.size) m) (random : UInt8) :
    ∃ bytes m', step z s (.publisher random) m = .ok (.z_put bytes buf, m') := by
  obtain ⟨c, hc, hsize⟩ := h.block
  rw [← h.pointer buf ke h.loop] at hc
  refine ⟨z.viewed ke.made c.entity.ke_suffix, { m with loop := .check_state, idx := m.idx + 1 }, ?_⟩
  change publisher_step z random m = _
  unfold publisher_step
  simp only [h.loop, ke_ptr_block_spec hc, if_pos hsize, ok_bind]
  rfl

section Between

variable {turns : List turn_t} {t : main_t}

end Between

/-! ## What led to a put -/

/-- A put comes after a retrieval, and only runs of the handler are between the two. -/
structure Retrieved (z : Zenoh) (s : LcsfStack) (m₀ : main_t) (done : List turn_t) (m : main_t) : Prop
    extends Up z m where
  reached : Run.run (step z s) done m₀ = .ok m
  retrieval : ∀ buf ke, m.loop = .put buf ke → ∃ before m₁ random m₂, ∃ queries : List query_t,
    done = before ++ .publisher random :: queries.map .handler ∧
    Run.run (step z s) before m₀ = .ok m₁ ∧ Up z m₁ ∧ m₁.loop = .retrieve_keyexpr buf ∧
    step z s (.publisher random) m₁ = .ok (.silent, m₂) ∧
    Run.run (step z s) (queries.map .handler) m₂ = .ok m

theorem Retrieved.step {m₀ : main_t} {done : List turn_t} (h : Retrieved z s m₀ done m)
    (hstep : step z s turn m = .ok (o, m')) : Retrieved z s m₀ (done ++ [turn]) m' := by
  have hone : Run.run (Rx.step z s) [turn] m = .ok m' := by simp only [Run.run, hstep]
  refine ⟨h.toUp.step hstep, by rw [Run.run_append h.reached, hone], fun buf ke hput => ?_⟩
  cases turn with
  | publisher random =>
    obtain ⟨c, hc, -⟩ := h.cell
    rcases (publisher_cases h.toUp hc hstep).2 with
      ⟨-, -, -, hnext⟩ | ⟨buf', hloop, rfl, hnext⟩ | ⟨buf', ke', -, hnext, -⟩
    · exact absurd hput (hnext buf ke)
    · rw [hnext] at hput
      cases hput
      exact ⟨done, m, random, m', [], rfl, h.reached, h.toUp, hloop, hstep, rfl⟩
    · rw [hnext] at hput
      cases hput
  | handler query =>
    rw [(handler_turn_spec h.toUp hstep).2.1] at hput
    obtain ⟨before, m₁, random, m₂, queries, rfl, hbefore, hup, hloop, hretrieve, hrun⟩ :=
      h.retrieval buf ke hput
    refine ⟨before, m₁, random, m₂, queries ++ [query], ?_, hbefore, hup, hloop, hretrieve, ?_⟩
    · rw [List.map_append, List.append_assoc, List.cons_append]
      rfl
    · rw [List.map_append, Run.run_append hrun]
      exact hone

/-! ## Runs -/

def start (info : zdc_info_t) (p : zdc_cmd_payload_t) : main_t := ⟨⟨info, p⟩, .check_state, 0⟩

theorem start_up (hstart : Started z info) (hone : 1 < info.el_size.toNat) (p : zdc_cmd_payload_t) :
    Up z (start info p) :=
  ⟨hstart.served, hone, by rintro _ _ ⟨⟩⟩

end ZdcPoc.Rx
