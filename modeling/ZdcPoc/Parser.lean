import ZdcPoc.Code.MainA

/-!
# The controller's list parser

The number of records comes from one attribute, their bytes from another, and the parser checks
neither against the other. It is safe on the messages whose bytes hold that many records.
-/

namespace ZdcPoc.A

/-! ## Records -/

/-- The bytes start with `n` records: a type and a state that have a name, and a keyexpr of the size
that stands before it. Only the last keyexpr may be cut off, behind a NUL. -/
def Lists : Nat → List UInt8 → Prop
  | 0, _ => True
  | n + 1, type :: state :: ke_size :: rest =>
    type.toNat < ZDC_TYPE_TO_STR.length ∧ state.toNat < ZDC_STATE_TO_STR.length ∧
      (ke_size.toNat ≤ rest.length ∨ 0 ∈ rest) ∧ Lists n (rest.drop ke_size.toNat)
  | _ + 1, _ => False

instance decidableLists : (n : Nat) → (bs : List UInt8) → Decidable (Lists n bs)
  | 0, _ => .isTrue trivial
  | n + 1, _ :: _ :: ke_size :: rest =>
    have := decidableLists n (rest.drop ke_size.toNat)
    inferInstanceAs (Decidable (_ ∧ _))
  | _ + 1, [] => .isFalse id
  | _ + 1, [_] => .isFalse id
  | _ + 1, [_, _] => .isFalse id

theorem lists_succ {n : Nat} {bs : List UInt8} : Lists (n + 1) bs ↔
    ∃ type state ke_size rest, bs = type :: state :: ke_size :: rest ∧
      type.toNat < ZDC_TYPE_TO_STR.length ∧ state.toNat < ZDC_STATE_TO_STR.length ∧
      (ke_size.toNat ≤ rest.length ∨ 0 ∈ rest) ∧ Lists n (rest.drop ke_size.toNat) := by
  constructor
  · intro h
    match bs, h with
    | type :: state :: ke_size :: rest, h => exact ⟨type, state, ke_size, rest, rfl, h⟩
  · rintro ⟨type, state, ke_size, rest, rfl, h⟩
    exact h

example : Lists 2 [1, 0, 2, 0x61, 0, 0, 1, 9, 0x62, 0] ∧ ¬ Lists 1 [1, 0, 9, 0x61] := by decide

/-! ## The parser -/

variable {m bs : List UInt8} {idx next n : Nat} {b : UInt8}

theorem byte_ok_iff : byte m idx = .ok b ↔ m[idx]? = some b := by
  unfold byte
  cases m[idx]? <;> simp [orFault]

/-- `%.*s` stays inside when the field does, or meets a NUL before the end. -/
theorem shown_ok_iff (ke_size : Nat) : (∃ ke, shown m idx ke_size = .ok ke) ↔
    ke_size ≤ (m.drop idx).length ∨ 0 ∈ m.drop idx := by
  have hguard : ((m.drop idx).take ke_size).length = ke_size ∨ 0 ∈ (m.drop idx).take ke_size ↔
      ke_size ≤ (m.drop idx).length ∨ 0 ∈ m.drop idx := by
    rcases Nat.lt_or_ge (m.drop idx).length ke_size with hcut | hfit
    · rw [List.take_of_length_le (by omega)]
      simp only [Nat.ne_of_lt hcut, Nat.not_le.mpr hcut]
    · rw [List.length_take, Nat.min_eq_left hfit]
      exact iff_of_true (Or.inl rfl) (Or.inl hfit)
  rw [← hguard]
  unfold shown
  simp only
  split
  · rename_i h
    exact iff_of_true ⟨_, rfl⟩ h
  · rename_i h
    exact iff_of_false (by rintro ⟨ke, ⟨⟩⟩) h

theorem drop_of_byte (h : m[idx]? = some b) : m.drop idx = b :: m.drop (idx + 1) := by
  obtain ⟨hlt, rfl⟩ := List.getElem?_eq_some_iff.mp h
  exact List.drop_eq_getElem_cons hlt

theorem byte_of_drop (k : Nat) (hdrop : m.drop idx = bs) (h : bs[k]? = some b) :
    byte m (idx + k) = .ok b := by
  rw [byte_ok_iff, ← List.getElem?_drop, hdrop, h]

theorem name_ok_iff {names : List String} {i : Nat} :
    (∃ name, orFault names[i]? .badIndex = .ok name) ↔ i < names.length := by
  rcases Nat.lt_or_ge i names.length with h | h
  · rw [List.getElem?_eq_getElem h]
    exact iff_of_true ⟨_, rfl⟩ h
  · rw [List.getElem?_eq_none h]
    exact iff_of_false (by rintro ⟨name, ⟨⟩⟩) (by omega)

theorem entity_step_ok_iff : (∃ line, entity_step m idx = .ok (line, next)) ↔
    ∃ type state ke_size rest, m.drop idx = type :: state :: ke_size :: rest ∧
      type.toNat < ZDC_TYPE_TO_STR.length ∧ state.toNat < ZDC_STATE_TO_STR.length ∧
      (ke_size.toNat ≤ rest.length ∨ 0 ∈ rest) ∧ next = idx + 3 + ke_size.toNat := by
  constructor
  · rintro ⟨line, h⟩
    obtain ⟨type, h0, h⟩ := Result.bind_ok h
    obtain ⟨state, h1, h⟩ := Result.bind_ok h
    obtain ⟨ke_size, h2, h⟩ := Result.bind_ok h
    obtain ⟨name, htype, h⟩ := Result.bind_ok h
    obtain ⟨name', hstate, h⟩ := Result.bind_ok h
    obtain ⟨ke, hke, h⟩ := Result.bind_ok h
    cases h
    rw [byte_ok_iff] at h0 h1 h2
    refine ⟨type, state, ke_size, m.drop (idx + 3), ?_, name_ok_iff.mp ⟨_, htype⟩,
      name_ok_iff.mp ⟨_, hstate⟩, (shown_ok_iff _).mp ⟨ke, hke⟩, rfl⟩
    rw [drop_of_byte h0, drop_of_byte h1, drop_of_byte h2]
  · rintro ⟨type, state, ke_size, rest, hdrop, htype, hstate, hke, rfl⟩
    have hrest : m.drop (idx + 3) = rest := by
      rw [← List.drop_drop, hdrop]
      rfl
    have h0 : byte m idx = .ok type := byte_of_drop 0 hdrop rfl
    have h1 := byte_of_drop 1 hdrop (b := state) rfl
    have h2 := byte_of_drop 2 hdrop (b := ke_size) rfl
    obtain ⟨name, hname⟩ := name_ok_iff.mpr htype
    obtain ⟨name', hname'⟩ := name_ok_iff.mpr hstate
    obtain ⟨ke, hshown⟩ : ∃ ke, shown m (idx + 3) ke_size.toNat = .ok ke := by
      rw [shown_ok_iff, hrest]
      exact hke
    refine ⟨⟨idx, type, state, ke⟩, ?_⟩
    unfold entity_step
    rw [h0, ok_bind, h1, ok_bind, h2, ok_bind, hname, ok_bind, hname', ok_bind, hshown]
    rfl

theorem entity_loop_cons {total : Nat} {lines : List entity_line}
    (h : entity_loop m (n + 1) idx = .ok (lines, total)) :
    ∃ line next rest, entity_step m idx = .ok (line, next) ∧
      entity_loop m n next = .ok (rest, total) ∧ lines = line :: rest := by
  unfold entity_loop at h
  obtain ⟨⟨line, next⟩, hstep, h⟩ := Result.bind_ok h
  obtain ⟨⟨rest, total'⟩, hloop, h⟩ := Result.bind_ok h
  cases h
  exact ⟨line, next, rest, hstep, hloop, rfl⟩

theorem entity_loop_ok_iff : (∃ r, entity_loop m n idx = .ok r) ↔ Lists n (m.drop idx) := by
  induction n generalizing idx with
  | zero => exact iff_of_true ⟨_, rfl⟩ trivial
  | succ n ih =>
    have hloop : (∃ r, entity_loop m (n + 1) idx = .ok r) ↔
        ∃ next, (∃ line, entity_step m idx = .ok (line, next)) ∧ ∃ r, entity_loop m n next = .ok r := by
      constructor
      · rintro ⟨⟨lines, total⟩, h⟩
        obtain ⟨line, next, rest, hstep, hrest, -⟩ := entity_loop_cons h
        exact ⟨next, ⟨line, hstep⟩, _, hrest⟩
      · rintro ⟨next, ⟨line, hstep⟩, ⟨lines, stop⟩, hrest⟩
        exact ⟨(line :: lines, stop), by rw [entity_loop, hstep, ok_bind]; simp only [hrest, ok_bind]; rfl⟩
    rw [hloop, lists_succ]
    constructor
    · rintro ⟨next, hstep, hrest⟩
      obtain ⟨type, state, ke_size, rest, hdrop, htype, hstate, hke, rfl⟩ := entity_step_ok_iff.mp hstep
      refine ⟨type, state, ke_size, rest, hdrop, htype, hstate, hke, ?_⟩
      have hlists := ih.mp hrest
      rwa [← List.drop_drop, ← List.drop_drop, hdrop] at hlists
    · rintro ⟨type, state, ke_size, rest, hdrop, htype, hstate, hke, hlists⟩
      refine ⟨_, entity_step_ok_iff.mpr ⟨type, state, ke_size, rest, hdrop, htype, hstate, hke, rfl⟩, ?_⟩
      rw [ih, ← List.drop_drop, ← List.drop_drop, hdrop]
      exact hlists

/-! ## Received responses -/

/-- No read left its bounds, whether the response was taken or rejected. -/
def Safe (res : Result (Bool × zdc_cmd_payload_t)) : Prop := ∃ status p, res = .ok (status, p)

theorem list_entities_resp_ok_iff {p : zdc_cmd_payload_t} (hptr : p.ptr = some bs) :
    (∃ r, zdcExecutelist_entities_resp (some p) = .ok r) ↔ Lists p.entity_nb bs := by
  unfold zdcExecutelist_entities_resp
  simp only [hptr, orFault_some, ok_bind]
  by_cases hnb : p.entity_nb = 0
  · rw [hnb, if_pos rfl]
    exact iff_of_true ⟨_, rfl⟩ trivial
  · have hloop : (∃ r, entity_loop bs p.entity_nb 0 = .ok r) ↔ Lists p.entity_nb bs := entity_loop_ok_iff
    rw [if_neg hnb, ← hloop]
    constructor
    · rintro ⟨r, h⟩
      obtain ⟨lines, hlines, -⟩ := Result.bind_ok h
      exact ⟨lines, hlines⟩
    · rintro ⟨lines, hlines⟩
      exact ⟨some lines, by rw [hlines]; rfl⟩

/-- A list response of any bytes and any number is safe exactly when its bytes hold that many
records. -/
theorem safe_iff_lists (entity_list entity_nb : lcsf_valid_att_t) (p : zdc_cmd_payload_t) :
    Safe (LCSF_Bridge_zdcReceive ⟨0x1, some [entity_list, entity_nb]⟩ p) ↔
      Lists (copyAtt entity_nb 16 p).entity_nb entity_list.pData := by
  have hptr : (copyAtt entity_nb 16 (p.set_ptr entity_list.pData)).ptr = some entity_list.pData := rfl
  have hreceive : LCSF_Bridge_zdcReceive ⟨0x1, some [entity_list, entity_nb]⟩ p =
      (do
        let lines ← zdcExecutelist_entities_resp (some (copyAtt entity_nb 16 (p.set_ptr entity_list.pData)))
        return (lines.isSome, copyAtt entity_nb 16 (p.set_ptr entity_list.pData))) := by
    simp only [LCSF_Bridge_zdcReceive, LCSF_Bridge_zdc_CMDID2CMDNAME, LCSF_Bridge_zdcGetCmdData,
      LCSF_Bridge_zdclist_entities_respGetData, att, List.getElem?_cons_zero, List.getElem?_cons_succ,
      orFault_some, ok_bind, zdc_MainExecute, bind_assoc, pure_bind]
  have hiff := list_entities_resp_ok_iff hptr
  rw [show (copyAtt entity_nb 16 p).entity_nb =
    (copyAtt entity_nb 16 (p.set_ptr entity_list.pData)).entity_nb from rfl, ← hiff, Safe, hreceive]
  constructor
  · rintro ⟨status, q, h⟩
    obtain ⟨r, hr, -⟩ := Result.bind_ok h
    exact ⟨r, hr⟩
  · rintro ⟨r, hr⟩
    exact ⟨_, _, by rw [hr]; rfl⟩

/-- One record announced and none sent, a keyexpr cut off without a NUL, and a type that has no
name. -/
theorem malformed_responses_read :
    LCSF_Bridge_zdcReceive ⟨0x1, some [⟨some 0, []⟩, ⟨some 1, [1]⟩]⟩ .zero = .error .badRead ∧
    LCSF_Bridge_zdcReceive ⟨0x1, some [⟨some 4, [0, 1, 9, 0x61]⟩, ⟨some 1, [1]⟩]⟩ .zero = .error .badRead ∧
    LCSF_Bridge_zdcReceive ⟨0x1, some [⟨some 5, [4, 1, 2, 0x61, 0]⟩, ⟨some 1, [1]⟩]⟩ .zero =
      .error .badIndex :=
  ⟨rfl, rfl, rfl⟩

end ZdcPoc.A
