import ZdcPoc.ListResponse
import ZdcPoc.Live

/-!
# Registered slots

The command channel is up before the application registers its entities, and all checks and loops go
by `el_size`. A run uses registered slots only when its commands and its close do.
-/

namespace ZdcPoc.B

open zdc_info_t

variable {z : Zenoh} {s : LcsfStack} {info info' : zdc_info_t} {r : Bool}

inductive Event where
  | add (registration : Registration)
  | exec (cmd : Command)
deriving DecidableEq, Repr

def Event.step (z : Zenoh) (s : LcsfStack) (event : Event) (info : zdc_info_t) :
    Result (Bool × zdc_info_t) :=
  match event with
  | .add rg => do
    let info ← rg.add z info
    return (true, info)
  | .exec cmd => execute z s cmd info

def Command.names : Command → Option Nat
  | set_entity_state id _ => some id.toNat
  | set_entity_keyexpr id _ => some id.toNat
  | _ => none

def zdc_info_t.Registered (info : zdc_info_t) : Prop :=
  ∀ i, i < info.el_size.toNat → ∃ c, info.cell i = some c

/-- A list comes when all slots are registered, any other command names a slot that is, or none. -/
def UsesRegistered (event : Event) (info : zdc_info_t) : Prop :=
  match event with
  | .add _ => True
  | .exec .list_entities_req => info.Registered
  | .exec cmd => ∀ i, cmd.names = some i → i < info.el_size.toNat → ∃ c, info.cell i = some c

/-- A command reads and changes no slot that is not registered: it refuses to work on one, and lists
the registered entities. -/
structure SafeCommand (cmd : Command) (info : zdc_info_t) (res : Result (Bool × zdc_info_t)) : Prop where
  reads : ∀ i, res ≠ .error (.uninitialised i)
  keeps : ∀ r info', res = .ok (r, info') → ∀ i, info.cell i = none →
    info'.entity_list[i]? = info.entity_list[i]?
  refuses : ∀ i, cmd.names = some i → info.cell i = none → res = .ok (false, info)
  covers : ∀ r info', cmd = .list_entities_req → res = .ok (r, info') →
    info'.SendCmdPayload.ptr = some info.records ∧
    info'.SendCmdPayload.entity_nb = info.entities.length

def SafeEvent (event : Event) (info : zdc_info_t) (res : Result (Bool × zdc_info_t)) : Prop :=
  ∀ cmd, event = .exec cmd → SafeCommand cmd info res

/-! ## Steps -/

theorem entity_list_of_no_cell {i : Nat} (hlen : info'.entity_list.length = info.entity_list.length)
    (h : info.cell i = none) (h' : info'.cell i = none) :
    info'.entity_list[i]? = info.entity_list[i]? := by
  by_cases hi : i < info.entity_list.length
  · have hfree : ∀ t : zdc_info_t, t.cell i = none → i < t.entity_list.length →
        t.entity_list[i]? = some none := by
      intro t ht hlt
      unfold cell at ht
      rw [List.getElem?_eq_getElem hlt] at ht ⊢
      cases he : t.entity_list[i] with
      | none => rfl
      | some e => rw [he] at ht; cases ht
    rw [hfree info h hi, hfree info' h' (hlen ▸ hi)]
  · rw [List.getElem?_eq_none (by omega), List.getElem?_eq_none (by omega)]

theorem execute_keeps {cmd : Command} (hw : info.WF) (h : execute z s cmd info = .ok (r, info'))
    {i : Nat} (hi : info.cell i = none) : info'.entity_list[i]? = info.entity_list[i]? := by
  have hd := execute_stepped hw h
  refine entity_list_of_no_cell ?_ hi (by rw [hd.cell, hi, Option.map_none])
  rw [hd.wf.length, hd.el_size, hw.length]

theorem UsesRegistered.cell {cmd : Command} (h : UsesRegistered (.exec cmd) info) {i : Nat}
    (hname : cmd.names = some i) (hi : i < info.el_size.toNat) : ∃ c, info.cell i = some c := by
  cases cmd with
  | list_entities_req => cases hname
  | _ => exact h i hname hi

/-- A command that uses registered slots completes, but for the two faults that no slot is the cause of. -/
theorem execute_outcome {cmd : Command} (hw : info.WF) (h : UsesRegistered (.exec cmd) info) :
    (∃ res, execute z s cmd info = .ok res) ∨
    (cmd.BadHandle info ∧ execute z s cmd info = .error .badHandle) ∨
    cmd = .list_entities_req ∧ 64 * info.el_size.toNat < info.records.length ∧
      execute z s cmd info = .error .overflow := by
  by_cases hbad : cmd.BadHandle info
  · exact Or.inr (Or.inl ⟨hbad, execute_badHandle hw hbad⟩)
  cases cmd with
  | list_entities_req =>
    have hf : info.Full := ⟨hw, h⟩
    rcases Nat.lt_or_ge (64 * info.el_size.toNat) info.records.length with hbig | hfit
    · exact Or.inr (Or.inr ⟨rfl, hbig, execute_list_overflow hf hbig⟩)
    · obtain ⟨r, info', hexec, -⟩ := list_reply (s := s) z hf hfit
      exact Or.inl ⟨_, hexec⟩
  | set_entity_config id config =>
    rw [execute_config_eq]
    split <;> exact Or.inl ⟨_, rfl⟩
  | set_entity_state id b =>
    rcases Nat.lt_or_ge id.toNat info.el_size.toNat with hlt | hge
    · by_cases h0 : id.toNat = 0
      · exact Or.inl ⟨_, execute_state_forbidden (by omega) h0⟩
      · obtain ⟨c, hc⟩ := h.cell rfl hlt
        have hspec := execute_state_spec (z := z) (s := s) (b := b) hlt h0 hc (hw.sound _ c hc)
        rw [if_neg fun hbad' => hbad ⟨h0, c, hc, hbad'⟩] at hspec
        exact Or.inl ⟨_, hspec⟩
    · exact Or.inl ⟨_, execute_state_refused hge⟩
  | set_entity_keyexpr id ke =>
    rcases Nat.lt_or_ge id.toNat info.el_size.toNat with hlt | hge
    · obtain ⟨c, hc⟩ := h.cell rfl hlt
      exact Or.inl ⟨_, execute_keyexpr_spec hlt hc (hw.sound _ c hc)⟩
    · exact Or.inl ⟨_, execute_keyexpr_refused hge⟩

theorem execute_refuses {cmd : Command} (h : UsesRegistered (.exec cmd) info) {i : Nat}
    (hname : cmd.names = some i) (hnone : info.cell i = none) :
    execute z s cmd info = .ok (false, info) := by
  have hge : info.el_size.toNat ≤ i := by
    by_contra hlt
    obtain ⟨c, hc⟩ := h.cell hname (by omega)
    rw [hc] at hnone
    cases hnone
  cases cmd with
  | set_entity_state id b =>
    cases hname
    exact execute_state_refused hge
  | set_entity_keyexpr id ke =>
    cases hname
    exact execute_keyexpr_refused hge
  | _ => cases hname

theorem list_covers (hw : info.WF) (h : execute z s .list_entities_req info = .ok (r, info')) :
    info'.SendCmdPayload.ptr = some info.records ∧
      info'.SendCmdPayload.entity_nb = info.entities.length := by
  obtain ⟨hf, hfit⟩ := execute_list_full hw h
  obtain ⟨r', next, hexec, -, hptr, -, hnb⟩ := list_reply (s := s) z hf hfit
  rw [h] at hexec
  cases hexec
  exact ⟨hptr, by rw [hnb, hf.entities_length]⟩

theorem execute_safe {cmd : Command} (hw : info.WF) (h : UsesRegistered (.exec cmd) info) :
    SafeCommand cmd info (execute z s cmd info) := by
  refine ⟨fun i hi => ?_, fun r info' he i hi => execute_keeps hw he hi,
    fun i hname hnone => execute_refuses h hname hnone, ?_⟩
  · rcases execute_outcome (z := z) (s := s) hw h with ⟨res, hexec⟩ | ⟨-, hexec⟩ | ⟨-, -, hexec⟩ <;>
      rw [hexec] at hi <;> cases hi
  · rintro r info' rfl he
    exact list_covers hw he

theorem close_completes (hw : info.WF) (h : info.Registered) :
    ∃ closed, zdc_close z info = .ok closed := by
  obtain ⟨closed, hclosed, -⟩ := close_loop_spec z info
    (List.range info.el_size.toNat) List.nodup_range fun i hi => by
      obtain ⟨c, hc⟩ := h i (List.mem_range.mp hi)
      exact ⟨c, hc, hw.sound i c hc⟩
  exact ⟨closed, hclosed⟩

theorem Event.step_wf (event : Event) (hw : info.WF) (h : event.step z s info = .ok (r, info')) :
    info'.WF := by
  cases event with
  | add rg =>
    obtain ⟨mid, hadd, hmid⟩ := Result.bind_ok h
    cases hmid
    exact Registration.add_wf hw hadd
  | exec cmd => exact (execute_stepped hw h).wf

/-! ## Runs -/

/-- Every command of a run uses registered slots only, and so does a close at its end, when each
command finds the slots it goes to registered, and the close finds all of them. -/
theorem only_registered_slots_used {entity_nb buff_size : Nat} {zdc_suffix : CString}
    (hinit : zdc_MainInit z 0 entity_nb buff_size zdc_suffix = .ok info) (events : List Event)
    (h : Run.Each (Event.step z s) (fun event t _ => UsesRegistered event t) events info) :
    Run.Each (Event.step z s) SafeEvent events info ∧
      ∀ t, Run.run (Event.step z s) events info = .ok t → t.Registered →
        ∃ closed, zdc_close z t = .ok closed := by
  have hw := (MainInit_filled hinit).1.wf
  have hkeep : ∀ event t r t', t.WF → Event.step z s event t = .ok (r, t') → t'.WF :=
    fun event _ _ _ hw h => event.step_wf hw h
  refine ⟨Run.each_imp_of_inv hkeep (fun event t hw huses => ?_) hw h, fun t ht hall => ?_⟩
  · rintro cmd rfl
    exact execute_safe hw huses
  · exact close_completes (Run.run_inv hkeep ht hw) hall

theorem registered_slots_listed : ∃ info,
    zdc_MainInit World.acceptAll 0 1 256 (World.str [0x7a]) = .ok info ∧
    Run.Each (Event.step World.acceptAll World.stack) SafeEvent
      [.add (.sub true (World.str [0x61]) none (.application 0)), .exec .list_entities_req] info := by
  obtain ⟨info, hinit⟩ : ∃ info, zdc_MainInit World.acceptAll 0 1 256 (World.str [0x7a]) = .ok info :=
    ⟨_, rfl⟩
  obtain ⟨hf, hsize⟩ := MainInit_filled hinit
  refine ⟨info, hinit, (only_registered_slots_used hinit
    [.add (.sub true (World.str [0x61]) none (.application 0)), .exec .list_entities_req]
    ⟨trivial, fun o mid hmid => ⟨fun i hi => ?_, fun _ _ _ => trivial⟩⟩).1⟩
  obtain ⟨mid', hadd, h⟩ := Result.bind_ok hmid
  cases h
  obtain ⟨-, rfl⟩ := Registration.add_cases hf.wf hadd
  have htwo : info.el_size.toNat = 1 + 1 := congrArg UInt16.toNat hsize
  exact ((hf.add (by omega) (by omega) hadd).filled i).mpr (lt_of_lt_of_eq hi htwo)

/-- A list, a command for entity 1 and a close right after `zdc_MainInit` all read slot 1. -/
theorem fresh_slot_read : ∃ info,
    zdc_MainInit World.acceptAll 0 1 64 (World.str [0x7a]) = .ok info ∧ info.cell 1 = none ∧
    execute World.acceptAll World.stack .list_entities_req info = .error (.uninitialised 1) ∧
    execute World.acceptAll World.stack (.set_entity_state 1 1) info = .error (.uninitialised 1) ∧
    execute World.acceptAll World.stack (.set_entity_keyexpr 1 (World.str [0x61])) info =
      .error (.uninitialised 1) ∧
    zdc_close World.acceptAll info = .error (.uninitialised 1) :=
  ⟨_, rfl, rfl, rfl, rfl, rfl, rfl⟩

end ZdcPoc.B
