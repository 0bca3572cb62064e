import ZdcPoc.Code.MainB
import ZdcPoc.Lib.Part

/-!
# Cells: one entity with its declarations

Every command of the node works on one entity. A cell is that entity and the live declarations that
were made for it, and `turn` and `rename` are what a command does to it. The node is a family of
cells that share nothing.
-/

namespace ZdcPoc.B

/-! ## Bytes and signed states -/

theorem toInt8_toInt (b : UInt8) :
    b.toInt8.toInt = if b.toNat < 128 then (b.toNat : Int) else (b.toNat : Int) - 256 := by
  have hb := b.toNat_lt
  rw [← Int8.toInt_toBitVec, UInt8.toBitVec_toInt8, BitVec.toInt_eq_toNat_cond, UInt8.toNat_toBitVec]
  split <;> split <;> omega

theorem state_eq_of_toInt {x : Int8} {b : UInt8} (h : x.toInt = b.toNat) : x = b.toInt8 := by
  have hlt : x.toInt < 128 := by have := x.toInt_lt; omega
  apply Int8.toInt_inj.mp
  rw [toInt8_toInt, h, if_pos (by omega)]

theorem toInt8_eq_on (b : UInt8) : b.toInt8.toInt = ZDC_STATE_ON ↔ b = 1 := by
  have hb := b.toNat_lt
  rw [toInt8_toInt, ZDC_STATE_ON, ← UInt8.toNat_inj, UInt8.toNat_one]
  split <;> omega

/-! ## Entities -/

def zdc_type_e.kind : zdc_type_e → Option DeclKind
  | .ZDC_TYPE_SUB => some .subscriber
  | .ZDC_TYPE_QUERYABLE => some .queryable
  | _ => none

namespace zdc_entity_t

/-- The current keyexpr: the C string in `ke_suffix`. -/
def keyexpr (e : zdc_entity_t) : CString := e.ke_suffix.str.getD .empty

def isOn (e : zdc_entity_t) : Prop := e.state.toInt = ZDC_STATE_ON

instance (e : zdc_entity_t) : Decidable e.isOn := inferInstanceAs (Decidable (_ = _))

def decl (i : Nat) (k : DeclKind) (e : zdc_entity_t) : Decl :=
  ⟨i, k, e.keyexpr, e.cb_ptr, e.config⟩

/-- `ke_suffix` is a written block of `ke_size` bytes with a NUL inside, the handle is of a
declaration for this slot, and it was written if the entity is on. -/
structure Sound (i : Nat) (e : zdc_entity_t) : Prop where
  written : ∃ bs, e.ke_suffix = Block.ofBytes bs
  string : e.ke_suffix.str = some e.keyexpr
  size : e.ke_size = e.ke_suffix.length
  own : ∀ d, e.data.decl = some d → d.entity = i
  handle : e.isOn → e.type.kind ≠ none → e.data ≠ .unwritten

theorem Sound.of_block {i : Nat} {e : zdc_entity_t} (ke : CString) (bs : List UInt8)
    (hb : e.ke_suffix = Block.ofBytes (ke.bytes ++ bs)) (hsize : e.ke_size = e.ke_suffix.length)
    (hown : ∀ d, e.data.decl = some d → d.entity = i)
    (hhandle : e.isOn → e.type.kind ≠ none → e.data ≠ .unwritten) :
    e.Sound i ∧ e.keyexpr = ke := by
  have hstr : e.ke_suffix.str = some ke := by rw [hb, Block.ofBytes_append, Block.str_bytes]
  have hke : e.keyexpr = ke := by rw [keyexpr, hstr, Option.getD_some]
  exact ⟨⟨⟨_, hb⟩, by rw [hstr, hke], hsize, hown, hhandle⟩, hke⟩

end zdc_entity_t

/-! ## What a command does to a cell -/

structure Cell where
  entity : zdc_entity_t
  live : Session

namespace Cell

def withState (b : UInt8) (c : Cell) : Cell :=
  { c with entity := { c.entity with state := b.toInt8 } }

def declare (z : Zenoh) (i : Nat) (c : Cell) : Cell :=
  match c.entity.type.kind with
  | none => c
  | some k =>
    let r := z_declare z (c.entity.decl i k) c.live
    ⟨{ c.entity with data := r.2.1 }, r.2.2⟩

/-- Of a handle that was never written nothing is undeclared here. See `BadHandle`. -/
def undeclare (c : Cell) : Cell :=
  match c.entity.type.kind with
  | none => c
  | some _ => ⟨{ c.entity with data := .null }, (z_undeclare c.entity.data c.live).getD c.live⟩

/-- `zdc_update_entity_state`, on its cell, unless it fails. -/
def turn (z : Zenoh) (i : Nat) (b : UInt8) (c : Cell) : Cell :=
  if c.entity.state.toInt = b.toNat then c
  else if c.entity.state.toInt = ZDC_STATE_INVALID ∧ b = 0 then c.withState b
  else if b = 1 then (c.declare z i).withState b
  else if b = 0 then c.undeclare.withState b
  else c.withState b

/-- The turn to `b` undeclares a handle that was never written. -/
def BadHandle (b : UInt8) (c : Cell) : Prop :=
  c.entity.type.kind ≠ none ∧ c.entity.data = .unwritten ∧ b = 0 ∧
    c.entity.state.toInt ≠ ZDC_STATE_OFF ∧ c.entity.state.toInt ≠ ZDC_STATE_INVALID

instance (b : UInt8) (c : Cell) : Decidable (c.BadHandle b) :=
  inferInstanceAs (Decidable (_ ∧ _ ∧ _ ∧ _ ∧ _))

/-- The new keyexpr goes over the old bytes, in a block that only grows. -/
def rewrite (ke : CString) (c : Cell) : Cell :=
  { c with entity := { c.entity with
      ke_suffix := Block.ofBytes ke.bytes ++ c.entity.ke_suffix.drop ke.size
      ke_size := max ke.size c.entity.ke_size } }

/-- `zdcExecuteset_entity_keyexpr`, on its cell. -/
def rename (z : Zenoh) (i : Nat) (ke : CString) (c : Cell) : Cell :=
  if c.entity.isOn then ((c.turn z i 0).rewrite ke).turn z i 1 else c.rewrite ke

/-! ### What changes and what does not -/

section Fields

variable (z : Zenoh) (i : Nat) (b : UInt8) (ke : CString) (c : Cell)

theorem declare_entity : ∃ data, (c.declare z i).entity = { c.entity with data } := by
  unfold declare
  split
  · exact ⟨c.entity.data, rfl⟩
  · exact ⟨_, rfl⟩

theorem undeclare_entity : ∃ data, c.undeclare.entity = { c.entity with data } := by
  unfold undeclare
  split
  · exact ⟨c.entity.data, rfl⟩
  · exact ⟨.null, rfl⟩

theorem turn_cases :
    (c.turn z i b = c ∧ c.entity.state = b.toInt8) ∨
    (c.turn z i b = (c.declare z i).withState b ∧ b = 1 ∧ ¬ c.entity.isOn) ∨
    (c.turn z i b = c.undeclare.withState b ∧ b = 0 ∧
      c.entity.state.toInt ≠ ZDC_STATE_OFF ∧ c.entity.state.toInt ≠ ZDC_STATE_INVALID) ∨
    (c.turn z i b = c.withState b ∧ c.entity.state.toInt ≠ b.toNat ∧
      (b = 0 → c.entity.state.toInt = ZDC_STATE_INVALID) ∧ b ≠ 1) := by
  unfold turn
  split
  · rename_i h
    exact Or.inl ⟨rfl, state_eq_of_toInt h⟩
  rename_i hne
  split
  · rename_i h
    obtain ⟨hinv, rfl⟩ := h
    exact Or.inr (Or.inr (Or.inr ⟨rfl, hne, fun _ => hinv, by decide⟩))
  rename_i hinv
  split
  · rename_i h
    subst h
    exact Or.inr (Or.inl ⟨rfl, rfl, hne⟩)
  rename_i h1
  split
  · rename_i h
    subst h
    exact Or.inr (Or.inr (Or.inl ⟨rfl, rfl, hne, fun h => hinv ⟨h, rfl⟩⟩))
  · rename_i h0
    exact Or.inr (Or.inr (Or.inr ⟨rfl, hne, fun h => absurd h h0, h1⟩))

theorem turn_entity : ∃ data, (c.turn z i b).entity = { c.entity with data, state := b.toInt8 } := by
  rcases turn_cases z i b c with ⟨h, hs⟩ | ⟨h, -⟩ | ⟨h, -⟩ | ⟨h, -⟩ <;> rw [h]
  · exact ⟨c.entity.data, by rw [← hs]⟩
  · obtain ⟨data, hd⟩ := declare_entity z i c
    exact ⟨data, by rw [withState, hd]⟩
  · obtain ⟨data, hd⟩ := undeclare_entity c
    exact ⟨data, by rw [withState, hd]⟩
  · exact ⟨c.entity.data, rfl⟩

@[simp] theorem turn_state : (c.turn z i b).entity.state = b.toInt8 := by
  obtain ⟨data, h⟩ := turn_entity z i b c
  rw [h]

@[simp] theorem turn_type : (c.turn z i b).entity.type = c.entity.type := by
  obtain ⟨data, h⟩ := turn_entity z i b c
  rw [h]

@[simp] theorem turn_ke_suffix : (c.turn z i b).entity.ke_suffix = c.entity.ke_suffix := by
  obtain ⟨data, h⟩ := turn_entity z i b c
  rw [h]

@[simp] theorem turn_ke_size : (c.turn z i b).entity.ke_size = c.entity.ke_size := by
  obtain ⟨data, h⟩ := turn_entity z i b c
  rw [h]

@[simp] theorem turn_cb_ptr : (c.turn z i b).entity.cb_ptr = c.entity.cb_ptr := by
  obtain ⟨data, h⟩ := turn_entity z i b c
  rw [h]

@[simp] theorem turn_config : (c.turn z i b).entity.config = c.entity.config := by
  obtain ⟨data, h⟩ := turn_entity z i b c
  rw [h]

@[simp] theorem turn_keyexpr : (c.turn z i b).entity.keyexpr = c.entity.keyexpr := by
  rw [zdc_entity_t.keyexpr, turn_ke_suffix, zdc_entity_t.keyexpr]

theorem turn_isOn : (c.turn z i b).entity.isOn ↔ b = 1 := by
  rw [zdc_entity_t.isOn, turn_state, toInt8_eq_on]

@[simp] theorem rewrite_state : (c.rewrite ke).entity.state = c.entity.state := rfl
@[simp] theorem rewrite_live : (c.rewrite ke).live = c.live := rfl
@[simp] theorem rewrite_data : (c.rewrite ke).entity.data = c.entity.data := rfl
@[simp] theorem rewrite_type : (c.rewrite ke).entity.type = c.entity.type := rfl
@[simp] theorem rewrite_cb_ptr : (c.rewrite ke).entity.cb_ptr = c.entity.cb_ptr := rfl
@[simp] theorem rewrite_config : (c.rewrite ke).entity.config = c.entity.config := rfl

theorem rewrite_ke_suffix : (c.rewrite ke).entity.ke_suffix =
    Block.ofBytes ke.bytes ++ c.entity.ke_suffix.drop ke.size := rfl

theorem rewrite_ke_size : (c.rewrite ke).entity.ke_size = max ke.size c.entity.ke_size := rfl

@[simp] theorem rewrite_keyexpr : (c.rewrite ke).entity.keyexpr = ke := by
  rw [zdc_entity_t.keyexpr, rewrite_ke_suffix, Block.str_bytes, Option.getD_some]

theorem rename_of_on (h : c.entity.isOn) :
    c.rename z i ke = ((c.turn z i 0).rewrite ke).turn z i 1 := if_pos h

theorem rename_of_not_on (h : ¬ c.entity.isOn) : c.rename z i ke = c.rewrite ke := if_neg h

@[simp] theorem rename_type : (c.rename z i ke).entity.type = c.entity.type := by
  unfold rename; split <;> simp

@[simp] theorem rename_keyexpr : (c.rename z i ke).entity.keyexpr = ke := by
  unfold rename; split <;> simp

@[simp] theorem rename_cb_ptr : (c.rename z i ke).entity.cb_ptr = c.entity.cb_ptr := by
  unfold rename; split <;> simp

@[simp] theorem rename_config : (c.rename z i ke).entity.config = c.entity.config := by
  unfold rename; split <;> simp

@[simp] theorem rename_state : (c.rename z i ke).entity.state = c.entity.state := by
  unfold rename
  split
  · rename_i h
    rw [turn_state]
    exact (state_eq_of_toInt (b := 1) h).symm
  · rfl

theorem rename_isOn : (c.rename z i ke).entity.isOn ↔ c.entity.isOn := by
  rw [zdc_entity_t.isOn, rename_state, zdc_entity_t.isOn]

theorem rename_ke_suffix : (c.rename z i ke).entity.ke_suffix =
    Block.ofBytes ke.bytes ++ c.entity.ke_suffix.drop ke.size := by
  unfold rename; split <;> simp [rewrite_ke_suffix]

theorem rename_ke_size :
    (c.rename z i ke).entity.ke_size = max ke.size c.entity.ke_size := by
  unfold rename; split <;> simp [rewrite_ke_size]

end Fields

/-! ### Ownership and soundness -/

section Sound

variable {z : Zenoh} {i : Nat} {b : UInt8} {ke : CString} {c : Cell}

structure Sound (i : Nat) (c : Cell) : Prop where
  entity : c.entity.Sound i
  own : ∀ d ∈ c.live, d.entity = i

theorem withState_isOn : (c.withState b).entity.isOn ↔ b = 1 := toInt8_eq_on b

theorem Sound.withState (h : c.Sound i) (hb : b ≠ 1) : (c.withState b).Sound i :=
  ⟨⟨h.entity.written, h.entity.string, h.entity.size, h.entity.own,
    fun hon => absurd (withState_isOn.mp hon) hb⟩, h.own⟩

theorem Sound.declare (h : c.Sound i) : ((c.declare z i).withState 1).Sound i := by
  unfold Cell.declare
  split
  · rename_i hk
    exact ⟨⟨h.entity.written, h.entity.string, h.entity.size, h.entity.own, fun _ hne => absurd hk hne⟩, h.own⟩
  rename_i k _
  cases hz : z.accepts (c.entity.decl i k).keyexpr with
  | true =>
    simp only [z_declare_accepted hz]
    refine ⟨⟨h.entity.written, h.entity.string, h.entity.size, ?_, fun _ _ h => nomatch h⟩, ?_⟩
    · rintro d ⟨⟩; rfl
    · intro d hd
      rcases Multiset.mem_cons.mp hd with rfl | hd
      · rfl
      · exact h.own d hd
  | false =>
    simp only [z_declare_refused hz]
    exact ⟨⟨h.entity.written, h.entity.string, h.entity.size, by rintro d ⟨⟩, fun _ _ h => nomatch h⟩, h.own⟩

theorem mem_of_undeclare {data : handle_t} {live : Session} {d : Decl}
    (h : d ∈ (z_undeclare data live).getD live) : d ∈ live := by
  cases data with
  | declared d' => exact Multiset.mem_of_mem_erase h
  | _ => exact h

theorem Sound.undeclare (h : c.Sound i) : (c.undeclare.withState 0).Sound i := by
  unfold Cell.undeclare
  split
  · exact h.withState (by decide)
  · exact ⟨⟨h.entity.written, h.entity.string, h.entity.size, by rintro d ⟨⟩, fun _ _ h => nomatch h⟩,
      fun d hd => h.own d (mem_of_undeclare hd)⟩

theorem Sound.turn (h : c.Sound i) : (c.turn z i b).Sound i := by
  rcases turn_cases z i b c with ⟨e, -⟩ | ⟨e, rfl, -⟩ | ⟨e, rfl, -⟩ | ⟨e, -, -, hb⟩ <;> rw [e]
  · exact h
  · exact h.declare
  · exact h.undeclare
  · exact h.withState hb

theorem Sound.rewrite (h : c.Sound i) : (c.rewrite ke).Sound i := by
  obtain ⟨bs, hbs⟩ := h.entity.written
  have hsound := zdc_entity_t.Sound.of_block (i := i) (e := (c.rewrite ke).entity) ke (bs.drop ke.size)
  refine ⟨(hsound ?_ ?_ h.entity.own h.entity.handle).1, h.own⟩
  · rw [rewrite_ke_suffix, hbs, Block.ofBytes_append, Block.ofBytes_drop]
  · rw [rewrite_ke_size, rewrite_ke_suffix, h.entity.size, List.length_append, List.length_drop,
      Block.ofBytes_length, CString.bytes_length]
    omega

theorem Sound.rename (h : c.Sound i) : (c.rename z i ke).Sound i := by
  unfold Cell.rename
  split
  · exact h.turn.rewrite.turn
  · exact h.rewrite

/-! ### Handles that were never written -/

theorem not_badHandle_on : ¬ c.BadHandle 1 := fun h => absurd h.2.2.1 (by decide)

/-- Switching an entity on has written its handle. -/
theorem Sound.not_badHandle (h : c.Sound i) (hon : c.entity.isOn) : ¬ c.BadHandle b :=
  fun hbad => h.entity.handle hon hbad.1 hbad.2.1

end Sound

end Cell

end ZdcPoc.B
