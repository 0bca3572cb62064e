import ZdcPoc.Command

/-!
# What holds of every cell of a node

`Cell.Inv` survives every command, `Cell.Tidy` those that keep to the states OFF and ON.
-/

namespace ZdcPoc.B

open zdc_info_t

variable {z : Zenoh} {s : LcsfStack} {info info' : zdc_info_t} {r : Bool}
variable {i : Nat} {b : UInt8} {ke : CString} {c : Cell}

/-! ## The declaration that an entity asks for -/

/-- What switching the entity on leaves in its handle. -/
def zdc_entity_t.wanted (z : Zenoh) (i : Nat) (e : zdc_entity_t) : Option Decl :=
  (e.type.kind.map (e.decl i)).filter fun d => z.accepts d.keyexpr

def held : Option Decl → Session
  | some d => {d}
  | none => 0

theorem wanted_eq_some {e : zdc_entity_t} {d : Decl} : e.wanted z i = some d ↔
    z.accepts e.keyexpr = true ∧ ∃ k, e.type.kind = some k ∧ d = e.decl i k := by
  unfold zdc_entity_t.wanted
  rw [Option.filter_eq_some_iff, Option.map_eq_some_iff]
  constructor
  · rintro ⟨⟨k, hk, rfl⟩, hz⟩
    exact ⟨hz, k, hk, rfl⟩
  · rintro ⟨hz, k, hk, rfl⟩
    exact ⟨⟨k, hk, rfl⟩, hz⟩

theorem wanted_of_no_kind {e : zdc_entity_t} (hk : e.type.kind = none) : e.wanted z i = none := by
  rw [zdc_entity_t.wanted, hk]
  rfl

theorem wanted_of_refused {e : zdc_entity_t} (hz : z.accepts e.keyexpr = false) :
    e.wanted z i = none := by
  rw [Option.eq_none_iff_forall_ne_some]
  intro d hd
  rw [(wanted_eq_some.mp hd).1] at hz
  cases hz

theorem mem_held {o : Option Decl} {d : Decl} : d ∈ held o ↔ o = some d := by
  cases o with
  | none => simp [held]
  | some d' =>
    rw [held, Multiset.mem_singleton, Option.some.injEq]
    exact eq_comm

theorem accepts_of_held {e : zdc_entity_t} {d : Decl} (h : d ∈ held (e.wanted z i)) :
    z.accepts d.keyexpr = true := by
  obtain ⟨hz, _, _, rfl⟩ := wanted_eq_some.mp (mem_held.mp h)
  exact hz

theorem wanted_congr {e e' : zdc_entity_t} (ht : e'.type = e.type) (hke : e'.keyexpr = e.keyexpr)
    (hcb : e'.cb_ptr = e.cb_ptr) (hconf : e'.config = e.config) : e'.wanted z i = e.wanted z i := by
  have hdecl : e'.decl i = e.decl i := by
    funext k
    simp only [zdc_entity_t.decl, hke, hcb, hconf]
  rw [zdc_entity_t.wanted, ht, hdecl, zdc_entity_t.wanted]

namespace Cell

theorem declare_of_kind {k : DeclKind} (hk : c.entity.type.kind = some k) :
    (c.declare z i).entity.data.decl = c.entity.wanted z i ∧
      (c.declare z i).live = held (c.entity.wanted z i) + c.live := by
  simp only [declare, hk]
  cases hz : z.accepts c.entity.keyexpr with
  | true =>
    have hw : c.entity.wanted z i = some (c.entity.decl i k) := wanted_eq_some.mpr ⟨hz, k, hk, rfl⟩
    rw [hw, z_declare_accepted (show z.accepts (c.entity.decl i k).keyexpr = true from hz)]
    exact ⟨rfl, (Multiset.singleton_add _ _).symm⟩
  | false =>
    rw [wanted_of_refused hz, z_declare_refused (show z.accepts (c.entity.decl i k).keyexpr = false from hz)]
    exact ⟨rfl, (Multiset.zero_add _).symm⟩

theorem declare_of_no_kind (hk : c.entity.type.kind = none) : c.declare z i = c := by
  simp only [declare, hk]

theorem undeclare_of_no_kind (hk : c.entity.type.kind = none) : c.undeclare = c := by
  simp only [undeclare, hk]

theorem undeclare_of_kind {k : DeclKind} (hk : c.entity.type.kind = some k) :
    c.undeclare.entity.data = .null ∧
      c.undeclare.live = (z_undeclare c.entity.data c.live).getD c.live := by
  simp only [undeclare, hk, and_self]

/-! ## The invariant of all commands -/

/-- The handle is of a live declaration, and an entity that is on has tried to declare its current
keyexpr. -/
structure Inv (z : Zenoh) (i : Nat) (c : Cell) : Prop where
  sound : c.Sound i
  handle : ∀ d, c.entity.data.decl = some d → d ∈ c.live
  accepted : ∀ d ∈ c.live, z.accepts d.keyexpr = true
  on : c.entity.isOn → c.entity.data.decl = c.entity.wanted z i
  silent : c.entity.type.kind = none → c.live = 0

theorem Inv.data_none (h : c.Inv z i) (hl : c.live = 0) : c.entity.data.decl = none := by
  rw [Option.eq_none_iff_forall_ne_some]
  intro d hd
  have hmem := h.handle d hd
  rw [hl] at hmem
  exact Multiset.notMem_zero d hmem

theorem Inv.declare (h : c.Inv z i) : ((c.declare z i).withState 1).Inv z i := by
  have hsound : ((c.declare z i).withState 1).Sound i := h.sound.declare
  cases hk : c.entity.type.kind with
  | none =>
    rw [declare_of_no_kind hk] at hsound ⊢
    refine ⟨hsound, h.handle, h.accepted, fun _ => ?_, h.silent⟩
    exact (h.data_none (h.silent hk)).trans (wanted_of_no_kind hk).symm
  | some k =>
    obtain ⟨hdata, hlive⟩ := declare_of_kind (z := z) (i := i) hk
    obtain ⟨data, he⟩ := declare_entity z i c
    refine ⟨hsound, ?_, ?_, fun _ => ?_, fun hnone => ?_⟩
    · intro d hd
      rw [withState, hdata] at hd
      simp only [withState, hlive]
      exact Multiset.mem_add.mpr (Or.inl (mem_held.mpr hd))
    · intro d hd
      simp only [withState, hlive] at hd
      rcases Multiset.mem_add.mp hd with hd | hd
      · exact accepts_of_held hd
      · exact h.accepted d hd
    · rw [withState, hdata, he]
      exact (wanted_congr rfl rfl rfl rfl).symm
    · rw [withState, he] at hnone
      rw [hk] at hnone
      cases hnone

theorem Inv.undeclare (h : c.Inv z i) : (c.undeclare.withState 0).Inv z i := by
  have hsound : (c.undeclare.withState 0).Sound i := h.sound.undeclare
  have hoff : ¬ (c.undeclare.withState 0).entity.isOn := by
    rw [zdc_entity_t.isOn, withState, toInt8_eq_on]; decide
  cases hk : c.entity.type.kind with
  | none =>
    rw [undeclare_of_no_kind hk] at hsound hoff ⊢
    exact ⟨hsound, h.handle, h.accepted, fun hon => absurd hon hoff, h.silent⟩
  | some k =>
    obtain ⟨hdata, hlive⟩ := undeclare_of_kind hk
    obtain ⟨data, he⟩ := undeclare_entity c
    refine ⟨hsound, ?_, ?_, fun hon => absurd hon hoff, fun hnone => ?_⟩
    · intro d hd
      rw [withState, hdata] at hd
      cases hd
    · intro d hd
      rw [withState, hlive] at hd
      exact h.accepted d (mem_of_undeclare hd)
    · rw [withState, he, hk] at hnone
      cases hnone

theorem Inv.withState (h : c.Inv z i) (hb : b ≠ 1) : (c.withState b).Inv z i := by
  refine ⟨h.sound.withState hb, h.handle, h.accepted, fun hon => ?_, h.silent⟩
  exact absurd ((toInt8_eq_on b).mp hon) hb

theorem Inv.turn (h : c.Inv z i) : (c.turn z i b).Inv z i := by
  rcases turn_cases z i b c with ⟨e, -⟩ | ⟨e, rfl, -⟩ | ⟨e, rfl, -⟩ | ⟨e, -, -, hb⟩ <;> rw [e]
  · exact h
  · exact h.declare
  · exact h.undeclare
  · exact h.withState hb

theorem Inv.rewrite (h : c.Inv z i) (hoff : ¬ c.entity.isOn) : (c.rewrite ke).Inv z i :=
  ⟨h.sound.rewrite, h.handle, h.accepted, fun hon => absurd hon hoff, h.silent⟩

theorem Inv.rename (h : c.Inv z i) : (c.rename z i ke).Inv z i := by
  unfold Cell.rename
  split
  · exact (h.turn.rewrite (by rw [turn_isOn]; decide)).turn
  · rename_i hoff
    exact h.rewrite hoff

theorem Inv.act {cmd : Command} (h : c.Inv z i) : (cmd.act z i c).Inv z i := by
  unfold Command.act
  split
  · split
    · exact h.turn
    · exact h
  · split
    · exact h.rename
    · exact h
  · exact h

theorem Inv.declared (h : c.Inv z i) (hon : c.entity.isOn) {k : DeclKind}
    (hk : c.entity.type.kind = some k) (hz : z.accepts c.entity.keyexpr = true) :
    c.entity.decl i k ∈ c.live :=
  h.handle _ ((h.on hon).trans (wanted_eq_some.mpr ⟨hz, k, hk, rfl⟩))

/-! ## Cells that only OFF and ON have reached -/

/-- The state is OFF or ON, and the declarations are those that it asks for. -/
structure Tidy (z : Zenoh) (i : Nat) (c : Cell) : Prop where
  sound : c.Sound i
  state : c.entity.state = 0 ∨ c.entity.state = 1
  live : c.live = held c.entity.data.decl
  data : c.entity.data.decl = if c.entity.isOn then c.entity.wanted z i else none

theorem Tidy.inv (h : c.Tidy z i) : c.Inv z i := by
  refine ⟨h.sound, ?_, ?_, fun hon => by rw [h.data, if_pos hon], ?_⟩
  · intro d hd
    rw [h.live]
    exact mem_held.mpr hd
  · intro d hd
    rw [h.live, h.data] at hd
    split at hd
    · exact accepts_of_held hd
    · exact absurd hd (Multiset.notMem_zero d)
  · intro hk
    rw [h.live, h.data, wanted_of_no_kind hk, ite_self]
    rfl

theorem Tidy.of_declare (hs : c.Sound i) (hd : c.entity.data.decl = none) (hl : c.live = 0) :
    ((c.declare z i).withState 1).Tidy z i := by
  obtain ⟨data, he⟩ := declare_entity z i c
  have hon : ((c.declare z i).withState 1).entity.isOn := by
    rw [zdc_entity_t.isOn, Cell.withState, toInt8_eq_on]
  have hw : ((c.declare z i).withState 1).entity.wanted z i = c.entity.wanted z i := by
    rw [Cell.withState, he]
    exact wanted_congr rfl rfl rfl rfl
  have hboth : (c.declare z i).entity.data.decl = c.entity.wanted z i ∧
      (c.declare z i).live = held (c.entity.wanted z i) := by
    cases hk : c.entity.type.kind with
    | none =>
      rw [declare_of_no_kind hk, wanted_of_no_kind hk]
      exact ⟨hd, hl⟩
    | some k =>
      obtain ⟨h1, h2⟩ := declare_of_kind (z := z) (i := i) hk
      rw [hl, Multiset.add_zero] at h2
      exact ⟨h1, h2⟩
  refine ⟨hs.declare, Or.inr rfl, ?_, ?_⟩
  · unfold Cell.withState
    exact hboth.2.trans (congrArg held hboth.1.symm)
  · rw [if_pos hon, hw]
    exact hboth.1

theorem Tidy.of_off (hs : (c.withState 0).Sound i) (hd : c.entity.data.decl = none) (hl : c.live = 0) :
    (c.withState 0).Tidy z i := by
  refine ⟨hs, Or.inl rfl, ?_, ?_⟩
  · exact hl.trans (congrArg held hd.symm)
  · rw [if_neg (by rw [zdc_entity_t.isOn, Cell.withState, toInt8_eq_on]; decide)]
    exact hd

theorem Tidy.undeclared (h : c.Tidy z i) : c.undeclare.entity.data.decl = none ∧ c.undeclare.live = 0 := by
  cases hk : c.entity.type.kind with
  | none =>
    have hlive := h.inv.silent hk
    rw [undeclare_of_no_kind hk]
    exact ⟨h.inv.data_none hlive, hlive⟩
  | some k =>
    obtain ⟨h1, h2⟩ := undeclare_of_kind hk
    refine ⟨by rw [h1]; rfl, ?_⟩
    rw [h2, h.live]
    cases c.entity.data with
    | declared d => simp [z_undeclare, held, handle_t.decl]
    | _ => rfl

theorem Tidy.off (h : c.Tidy z i) (hoff : ¬ c.entity.isOn) : c.entity.data.decl = none ∧ c.live = 0 := by
  have hd := h.data
  rw [if_neg hoff] at hd
  exact ⟨hd, by rw [h.live, hd]; rfl⟩

theorem Tidy.not_badHandle (h : c.Tidy z i) : ¬ c.BadHandle b := by
  rcases h.state with hs | hs
  · exact fun hbad => hbad.2.2.2.1 (by rw [hs]; rfl)
  · exact h.sound.not_badHandle (by rw [zdc_entity_t.isOn, hs]; rfl)

theorem Tidy.turn (h : c.Tidy z i) (hb : b = 0 ∨ b = 1) : (c.turn z i b).Tidy z i := by
  rcases turn_cases z i b c with ⟨e, -⟩ | ⟨e, rfl, hoff⟩ | ⟨e, rfl, -⟩ | ⟨e, -, hinv, h1⟩ <;> rw [e]
  · exact h
  · exact .of_declare h.sound (h.off hoff).1 (h.off hoff).2
  · exact .of_off h.sound.undeclare h.undeclared.1 h.undeclared.2
  · -- A tidy cell is never INVALID.
    have hstate := hinv (hb.resolve_right h1)
    rcases h.state with hs | hs <;> rw [hs] at hstate <;> cases hstate

theorem Tidy.rewrite (h : c.Tidy z i) (hoff : ¬ c.entity.isOn) : (c.rewrite ke).Tidy z i := by
  refine ⟨h.sound.rewrite, h.state, h.live, ?_⟩
  rw [if_neg (show ¬ (c.rewrite ke).entity.isOn from hoff)]
  exact (h.off hoff).1

theorem Tidy.rename (h : c.Tidy z i) : (c.rename z i ke).Tidy z i := by
  unfold Cell.rename
  split
  · exact ((h.turn (Or.inl rfl)).rewrite (by rw [turn_isOn]; decide)).turn (Or.inr rfl)
  · rename_i hoff
    exact h.rewrite hoff

end Cell

/-! ## Invariants of all cells -/

def zdc_info_t.Cells (Q : Nat → Cell → Prop) (info : zdc_info_t) : Prop :=
  ∀ i c, info.cell i = some c → Q i c

variable {Q R : Nat → Cell → Prop}

theorem zdc_info_t.Cells.mono (h : info.Cells Q) (hQR : ∀ i c, Q i c → R i c) : info.Cells R :=
  fun i c hc => hQR i c (h i c hc)

theorem zdc_info_t.Cells.not_badHandle (h : info.Cells (Cell.Tidy z)) (cmd : Command) :
    ¬ cmd.BadHandle info := by
  cases cmd with
  | set_entity_state id b =>
    rintro ⟨-, c, hc, hbad⟩
    exact (h id.toNat c hc).not_badHandle hbad
  | _ => exact id

theorem SameTable.cells {a b : zdc_info_t} (h : SameTable a b) (hQ : a.Cells Q) : b.Cells Q :=
  fun i c hc => hQ i c (by rw [← h.cell]; exact hc)

theorem Stepped.cells {cmd : Command} (h : Stepped z cmd info info') (hQ : info.Cells Q)
    (hact : ∀ i c, info.cell i = some c → Q i c → R i (cmd.act z i c)) : info'.Cells R := by
  intro i c' hc'
  rw [h.cell, Option.map_eq_some_iff] at hc'
  obtain ⟨c, hc, rfl⟩ := hc'
  exact hact i c hc (hQ i c hc)

theorem Stepped.full {cmd : Command} (h : Stepped z cmd info info') (hf : info.Full) : info'.Full := by
  refine ⟨h.wf, fun i hi => ?_⟩
  obtain ⟨c, hc⟩ := hf.registered i (h.el_size ▸ hi)
  exact ⟨_, by rw [h.cell, hc, Option.map_some]⟩

end ZdcPoc.B
