import ZdcPoc.Setup
import ZdcPoc.World

/-!
# Reordered and repeated commands

A `set_*` command changes the cell of the entity that it names and no other, and doing it again
changes nothing.
-/

namespace ZdcPoc.B

open zdc_info_t

variable {z : Zenoh} {s : LcsfStack} {info info' : zdc_info_t} {i : Nat} {b : UInt8} {ke : CString} {c : Cell}

/-! ## One cell, twice -/

namespace Cell

theorem turn_on (h : ¬ c.entity.isOn) : c.turn z i 1 = (c.declare z i).withState 1 := by
  unfold turn
  rw [if_neg (show ¬ c.entity.state.toInt = (1 : UInt8).toNat from h), if_neg (by simp), if_pos rfl]

theorem turn_off (h : c.entity.isOn) : c.turn z i 0 = c.undeclare.withState 0 := by
  have hstate : c.entity.state.toInt = 1 := h
  unfold turn
  rw [if_neg (by rw [hstate]; decide), if_neg (by rw [hstate]; decide), if_neg (by decide), if_pos rfl]

/-- From 128 on the byte never equals the signed state, and is stored again. -/
theorem turn_turn : (c.turn z i b).turn z i b = c.turn z i b := by
  rcases turn_cases z i b (c.turn z i b) with ⟨h, -⟩ | ⟨-, rfl, hoff⟩ | ⟨-, rfl, hoff, -⟩ | ⟨h, -⟩
  · exact h
  · exact absurd ((turn_isOn z i 1 c).mpr rfl) hoff
  · rw [turn_state] at hoff
    exact absurd rfl hoff
  · rw [h]
    unfold withState
    rw [← turn_state z i b c]

/-- Declaring and undeclaring again, where nothing was held before. -/
theorem undeclare_declare (hdata : ∀ k, c.entity.type.kind = some k → c.entity.data = .null) :
    (c.declare z i).undeclare = c := by
  unfold declare undeclare
  cases hk : c.entity.type.kind with
  | none => simp only [hk]
  | some k =>
    have hsame : { c.entity with data := .null } = c.entity := by rw [← hdata k hk]
    cases hz : z.accepts (c.entity.decl i k).keyexpr with
    | true =>
      simp only [z_declare_accepted hz, hk, hsame, z_undeclare, Multiset.erase_cons_head, Option.getD_some]
    | false => simp only [z_declare_refused hz, hk, hsame, z_undeclare, Option.getD_some]

theorem turn_on_off (hoff : c.entity.state = 0)
    (hdata : ∀ k, c.entity.type.kind = some k → c.entity.data = .null) :
    (c.turn z i 1).turn z i 0 = c := by
  have hnot : ¬ c.entity.isOn := by rw [zdc_entity_t.isOn, hoff]; decide
  have hback : ∀ d : Cell, (d.withState 1).undeclare.withState 0 = d.undeclare.withState 0 := by
    intro d
    unfold undeclare withState
    simp only
    split <;> rfl
  rw [turn_off ((turn_isOn z i 1 c).mpr rfl), turn_on hnot, hback, undeclare_declare hdata]
  unfold withState
  rw [show (0 : UInt8).toInt8 = c.entity.state from hoff.symm]

theorem rewrite_rewrite : (c.rewrite ke).rewrite ke = c.rewrite ke := by
  have hlen : (Block.ofBytes ke.bytes).length = ke.size := by
    rw [Block.ofBytes_length, CString.bytes_length]
  unfold rewrite
  simp only [← hlen, List.drop_left, max_eq_right (le_max_left ..)]

theorem rename_rename : (c.rename z i ke).rename z i ke = c.rename z i ke := by
  by_cases hon : c.entity.isOn
  · have hdata : ∀ k, ((c.turn z i 0).rewrite ke).entity.type.kind = some k →
        ((c.turn z i 0).rewrite ke).entity.data = .null := by
      intro k hk
      rw [rewrite_type, turn_type] at hk
      rw [rewrite_data, turn_off hon]
      exact (undeclare_of_kind hk).1
    have hstate : ((c.turn z i 0).rewrite ke).entity.state = 0 := by
      rw [rewrite_state, turn_state]; rfl
    rw [rename_of_on z i ke c hon, rename_of_on z i ke _ ((turn_isOn ..).mpr rfl),
      turn_on_off hstate hdata, rewrite_rewrite]
  · have hoff : ¬ (c.rewrite ke).entity.isOn := hon
    rw [rename_of_not_on z i ke c hon, rename_of_not_on z i ke _ hoff, rewrite_rewrite]

end Cell

theorem act_act {cmd : Command} : cmd.act z i (cmd.act z i c) = cmd.act z i c := by
  cases cmd with
  | list_entities_req => rfl
  | set_entity_state id b =>
    by_cases hid : id.toNat = i ∧ i ≠ 0
    · simp only [Command.act, if_pos hid, Cell.turn_turn]
    · simp only [Command.act, if_neg hid]
  | set_entity_keyexpr id ke =>
    by_cases hid : id.toNat = i
    · simp only [Command.act, if_pos hid, Cell.rename_rename]
    · simp only [Command.act, if_neg hid]
  | set_entity_config id config => rfl

/-! ## Two commands -/

theorem act_of_ne {cmd : Command} {id : UInt16} (hid : cmd.entity_id = some id) (hne : id.toNat ≠ i) :
    cmd.act z i c = c := by
  cases cmd with
  | list_entities_req => rfl
  | set_entity_state id' b =>
    cases hid
    exact if_neg fun h => hne h.1
  | set_entity_keyexpr id' ke =>
    cases hid
    exact if_neg hne
  | set_entity_config id' config => rfl

theorem act_comm {cmd cmd' : Command} {id id' : UInt16} (hid : cmd.entity_id = some id)
    (hid' : cmd'.entity_id = some id') (hne : id ≠ id') :
    cmd'.act z i (cmd.act z i c) = cmd.act z i (cmd'.act z i c) := by
  by_cases hi : id.toNat = i
  · have hi' : id'.toNat ≠ i := fun h => hne (UInt16.toNat_inj.mp (hi.trans h.symm))
    rw [act_of_ne hid' hi', act_of_ne hid' hi']
  · rw [act_of_ne hid hi, act_of_ne hid hi]

/-! ## Handles that were never written -/

/-- A state that was switched to OFF is OFF. -/
theorem Stepped.not_badHandle {cmd : Command} (h : Stepped z cmd info info') : ¬ cmd.BadHandle info' := by
  cases cmd with
  | set_entity_state id b =>
    rintro ⟨hid, c', hc', hbad⟩
    rw [h.cell, Option.map_eq_some_iff] at hc'
    obtain ⟨c, -, rfl⟩ := hc'
    obtain ⟨-, -, rfl, hoff, -⟩ := hbad
    rw [Command.act, if_pos ⟨rfl, hid⟩, Cell.turn_state] at hoff
    exact hoff rfl
  | _ => exact id

theorem Stepped.badHandle_iff {cmd cmd' : Command} {id id' : UInt16} (h : Stepped z cmd info info')
    (hid : cmd.entity_id = some id) (hid' : cmd'.entity_id = some id') (hne : id ≠ id') :
    cmd'.BadHandle info' ↔ cmd'.BadHandle info := by
  cases cmd' with
  | set_entity_state id' b =>
    cases hid'
    have hsame : info'.cell id'.toNat = info.cell id'.toNat := by
      rw [h.cell]
      cases info.cell id'.toNat with
      | none => rfl
      | some c => rw [Option.map_some, act_of_ne hid fun heq => hne (UInt16.toNat_inj.mp heq)]
    rw [Command.BadHandle, Command.BadHandle, hsame]
  | _ => exact Iff.rfl

/-! ## Answers -/

/-- What the sender of a command gets to see: its success, and the status that was sent. -/
def answer (res : Bool × zdc_info_t) : Bool × Option (List UInt8) :=
  (res.1, if res.1 then res.2.reply else none)

theorem answer_send (cmd : lcsf_valid_cmd_t) {a b : zdc_info_t} (h : b.buff_size = a.buff_size) :
    answer (send s cmd b) = answer (send s cmd a) := by
  by_cases hfit : s.Fits cmd a.buff_size.toNat
  · obtain ⟨ha, msg, hwire, -, -, hreply⟩ := send_fits a hfit
    obtain ⟨hb, msg', hwire', -, -, hreply'⟩ := send_fits b (h ▸ hfit)
    rw [hwire] at hwire'
    cases hwire'
    rw [answer, answer, ha, hb, hreply, hreply']
  · have ha := (send_not_fits a hfit).1
    have hb := (send_not_fits b (h ▸ hfit)).1
    unfold answer
    rw [ha, hb, if_neg Bool.false_ne_true, if_neg Bool.false_ne_true]

theorem answer_send_status (status : UInt8) {a b : zdc_info_t} (h : b.buff_size = a.buff_size) :
    answer (send_status s status b) = answer (send_status s status a) := by
  obtain ⟨p, hp⟩ := send_status_eq s a status
  obtain ⟨q, hq⟩ := send_status_eq s b status
  rw [hp, hq]
  exact answer_send (statusCmd status) h

theorem execute_answers {a b : zdc_info_t} (ha : a.Full) (hb : b.Full) {cmd : Command} {id : UInt16}
    (hid : cmd.entity_id = some id) (hga : ¬ cmd.BadHandle a) (hgb : ¬ cmd.BadHandle b)
    (hel : b.el_size = a.el_size) (hbuff : b.buff_size = a.buff_size) :
    ∃ r r', execute z s cmd a = .ok r ∧ execute z s cmd b = .ok r' ∧ answer r' = answer r := by
  rcases execute_set (z := z) (s := s) ha hid hga with ⟨hge, h⟩ | ⟨hlt, mid, h, hmid, -, -⟩ <;>
    rcases execute_set (z := z) (s := s) hb hid hgb with ⟨hge', h'⟩ | ⟨hlt', mid', h', hmid', -, -⟩
  · exact ⟨_, _, h, h', rfl⟩
  · rw [hel] at hlt'
    omega
  · rw [hel] at hge'
    omega
  · exact ⟨_, _, h, h', answer_send_status _ (by rw [hmid', hbuff, hmid])⟩

/-! ## Nodes with the same cells -/

/-- The same entity table and the same live declarations. -/
structure SameEntities (a b : zdc_info_t) : Prop where
  entity_list : b.entity_list = a.entity_list
  session : b.session = a.session

theorem SameEntities.of_cells {a b : zdc_info_t} (ha : a.Full) (hb : b.Full)
    (hel : b.el_size = a.el_size) (hcell : ∀ i, b.cell i = a.cell i) : SameEntities a b := by
  constructor
  · apply List.ext_getElem?
    intro i
    by_cases hi : i < a.el_size.toNat
    · obtain ⟨c, hc⟩ := ha.registered i hi
      rw [(cell_eq_some.mp hc).1, (cell_eq_some.mp ((hcell i).trans hc)).1]
    · rw [List.getElem?_eq_none (by rw [hb.length, hel]; omega),
        List.getElem?_eq_none (by rw [ha.length]; omega)]
  · apply eq_of_parts (f := Decl.entity)
    intro i
    cases hc : a.cell i with
    | none => rw [ha.part_of_no_cell hc, hb.part_of_no_cell ((hcell i).trans hc)]
    | some c => rw [← (cell_eq_some.mp hc).2, ← (cell_eq_some.mp ((hcell i).trans hc)).2]

/-! ## Commutation and repetition -/

/-- Either order gives the same entities, and each command the same answer. -/
def Commute (z : Zenoh) (s : LcsfStack) (cmd cmd' : Command) (info : zdc_info_t) : Prop :=
  ∃ a b a' b', execute z s cmd info = .ok a ∧ execute z s cmd' a.2 = .ok b ∧
    execute z s cmd' info = .ok a' ∧ execute z s cmd a'.2 = .ok b' ∧
    SameEntities b.2 b'.2 ∧ answer b' = answer a ∧ answer b = answer a'

def Repeatable (z : Zenoh) (s : LcsfStack) (cmd : Command) (info : zdc_info_t) : Prop :=
  ∃ a b, execute z s cmd info = .ok a ∧ execute z s cmd a.2 = .ok b ∧
    SameEntities a.2 b.2 ∧ answer b = answer a

theorem Stepped.of_execute {cmd : Command} {r : Bool × zdc_info_t} (hf : info.Full)
    (h : execute z s cmd info = .ok r) : Stepped z cmd info r.2 ∧ r.2.Full :=
  have hd := execute_stepped hf.toWF h
  ⟨hd, hd.full hf⟩

theorem commute_of_ne (hf : info.Full) {cmd cmd' : Command} {id id' : UInt16}
    (hid : cmd.entity_id = some id) (hid' : cmd'.entity_id = some id') (hne : id ≠ id')
    (hgood : ¬ cmd.BadHandle info) (hgood' : ¬ cmd'.BadHandle info) : Commute z s cmd cmd' info := by
  obtain ⟨a, -, ha, -, -⟩ := execute_answers (z := z) (s := s) hf hf hid hgood hgood rfl rfl
  obtain ⟨a', -, ha', -, -⟩ := execute_answers (z := z) (s := s) hf hf hid' hgood' hgood' rfl rfl
  obtain ⟨hda, hfa⟩ := Stepped.of_execute hf ha
  obtain ⟨hda', hfa'⟩ := Stepped.of_execute hf ha'
  obtain ⟨r', b, hr', hb, hansb⟩ := execute_answers (z := z) (s := s) hf hfa hid' hgood'
    (mt (hda.badHandle_iff hid hid' hne).mp hgood') hda.el_size hda.buff_size
  obtain ⟨r, b', hr, hb', hansb'⟩ := execute_answers (z := z) (s := s) hf hfa' hid hgood
    (mt (hda'.badHandle_iff hid' hid hne.symm).mp hgood) hda'.el_size hda'.buff_size
  rw [ha] at hr
  rw [ha'] at hr'
  cases hr
  cases hr'
  obtain ⟨hdb, hfb⟩ := Stepped.of_execute hfa hb
  obtain ⟨hdb', hfb'⟩ := Stepped.of_execute hfa' hb'
  refine ⟨a, b, a', b', ha, hb, ha', hb', .of_cells hfb hfb' ?_ fun i => ?_, hansb', hansb⟩
  · rw [hdb'.el_size, hda'.el_size, hdb.el_size, hda.el_size]
  · rw [hdb'.cell, hda'.cell, hdb.cell, hda.cell, Option.map_map, Option.map_map]
    exact Option.map_congr fun c _ => (act_comm hid hid' hne).symm

theorem repeatable (hf : info.Full) {cmd : Command} {id : UInt16} (hid : cmd.entity_id = some id)
    (hgood : ¬ cmd.BadHandle info) : Repeatable z s cmd info := by
  obtain ⟨a, -, ha, -, -⟩ := execute_answers (z := z) (s := s) hf hf hid hgood hgood rfl rfl
  obtain ⟨hda, hfa⟩ := Stepped.of_execute hf ha
  obtain ⟨r, b, hr, hb, hans⟩ := execute_answers (z := z) (s := s) hf hfa hid hgood hda.not_badHandle
    hda.el_size hda.buff_size
  rw [ha] at hr
  cases hr
  obtain ⟨hdb, hfb⟩ := Stepped.of_execute hfa hb
  refine ⟨a, b, ha, hb, .of_cells hfa hfb hdb.el_size fun i => ?_, hans⟩
  rw [hdb.cell, hda.cell, Option.map_map]
  exact Option.map_congr fun c _ => act_act

/-- Commands for different entities commute, and a command done twice is done once, in every state
that a fully registered node reaches and whatever Zenoh takes, unless one of them undeclares a handle
that was never written. -/
theorem reorder_and_repeat (hreach : Reachable z s info) (cmd : Command) {id : UInt16}
    (hid : cmd.entity_id = some id) (hgood : ¬ cmd.BadHandle info) :
    (∀ cmd' id', cmd'.entity_id = some id' → id ≠ id' → ¬ cmd'.BadHandle info →
      Commute z s cmd cmd' info) ∧ Repeatable z s cmd info :=
  ⟨fun _ _ hid' hne hgood' => commute_of_ne hreach.served.full hid hid' hne hgood hgood',
    repeatable hreach.served.full hid hgood⟩

theorem reorder_and_repeat_renamed : ∃ info, Reachable World.acceptAll World.stack info ∧
    Commute World.acceptAll World.stack (.set_entity_state 1 0)
      (.set_entity_keyexpr 2 (World.str [0x62])) info ∧
    Repeatable World.acceptAll World.stack (.set_entity_state 1 0) info := by
  obtain ⟨info, -, h⟩ := setup_started World.acceptAll 64 (World.str [0x7a])
    [.sub true (World.str [0x61]) none (.application 0), .pub false (World.str [0x63]) none] (by decide)
  obtain ⟨hcommute, hrepeat⟩ := reorder_and_repeat (s := World.stack) (.start h)
    (.set_entity_state 1 0) rfl (h.filled.tidy.not_badHandle _)
  exact ⟨info, .start h, hcommute (.set_entity_keyexpr 2 (World.str [0x62])) 2 rfl (by decide) id, hrepeat⟩

end ZdcPoc.B
