import ZdcPoc.Setup
import ZdcPoc.World

/-!
# The command channel

Entity 0 is the queryable that commands come in through. It stays declared until a `set_entity_keyexpr`
gives it a keyexpr that Zenoh refuses.
-/

namespace ZdcPoc.B

open zdc_info_t

variable {z : Zenoh} {s : LcsfStack} {info info' : zdc_info_t} {r : Bool}

/-- A queryable on the stored keyexpr of entity 0 brings queries to the command handler. -/
def zdc_info_t.ChannelUp (info : zdc_info_t) : Prop :=
  ∃ c, info.cell 0 = some c ∧ ∃ d ∈ c.live, d.kind = .queryable ∧
    d.keyexpr = c.entity.keyexpr ∧ d.callback = some .zdc_cmd_handler

def KeepsChannel (z : Zenoh) (cmd : Command) (_ : zdc_info_t) : Prop :=
  ∀ id ke, cmd = .set_entity_keyexpr id ke → id.toNat = 0 → z.accepts ke = true

theorem channelUp_iff (hs : Served z info) {c : Cell} (hc : info.cell 0 = some c) :
    info.ChannelUp ↔ z.accepts c.entity.keyexpr = true := by
  have hinv := hs.cells 0 c hc
  constructor
  · rintro ⟨c', hc', d, hd, -, hke, -⟩
    rw [hc] at hc'
    cases hc'
    exact hke ▸ hinv.accepted d hd
  · intro hz
    obtain ⟨c', hc', hchannel⟩ := hs.channel
    rw [hc] at hc'
    cases hc'
    have hk : c.entity.type.kind = some .queryable := by rw [hchannel.type]; rfl
    exact ⟨c, hc, _, hinv.declared hchannel.on hk hz, rfl, rfl, hchannel.cb_ptr⟩

theorem act_keyexpr (z : Zenoh) (cmd : Command) (c : Cell) :
    (∃ id ke, cmd = .set_entity_keyexpr id ke ∧ id.toNat = 0 ∧ (cmd.act z 0 c).entity.keyexpr = ke) ∨
    ((∀ id ke, cmd = .set_entity_keyexpr id ke → id.toNat ≠ 0) ∧
      (cmd.act z 0 c).entity.keyexpr = c.entity.keyexpr) := by
  cases cmd with
  | set_entity_keyexpr id ke =>
    by_cases hid : id.toNat = 0
    · refine Or.inl ⟨id, ke, rfl, hid, ?_⟩
      rw [Command.act, if_pos hid, Cell.rename_keyexpr]
    · refine Or.inr ⟨?_, by rw [Command.act, if_neg hid]⟩
      rintro _ _ ⟨⟩
      exact hid
  | set_entity_state id b =>
    exact Or.inr ⟨by rintro _ _ ⟨⟩, by rw [Command.act, if_neg fun h => h.2 rfl]⟩
  | list_entities_req => exact Or.inr ⟨by rintro _ _ ⟨⟩, rfl⟩
  | set_entity_config id config => exact Or.inr ⟨by rintro _ _ ⟨⟩, rfl⟩

theorem channel_step {cmd : Command} (hs : Served z info) (hup : info.ChannelUp)
    (h : execute z s cmd info = .ok (r, info')) : info'.ChannelUp ↔ KeepsChannel z cmd info := by
  have hd := execute_stepped hs.full.toWF h
  obtain ⟨c, hc, -⟩ := hs.channel
  have hc' : info'.cell 0 = some (cmd.act z 0 c) := by rw [hd.cell, hc, Option.map_some]
  rw [channelUp_iff (hs.step h) hc']
  rcases act_keyexpr z cmd c with ⟨id, ke, rfl, hid, hke⟩ | ⟨hother, hke⟩ <;> rw [hke]
  · constructor
    · rintro hz _ _ ⟨⟩ -
      exact hz
    · exact fun hgood => hgood id ke rfl hid
  · exact iff_of_true ((channelUp_iff hs hc).mp hup) fun id ke he hid => absurd hid (hother id ke he)

/-- The channel is up all along a run exactly when no completed step gives entity 0 a keyexpr that
Zenoh refuses. -/
theorem channel_up_iff_keyexprs_taken (hstart : Started z info)
    (hsuffix : ∀ c, info.cell 0 = some c → z.accepts c.entity.keyexpr = true) (cmds : List Command) :
    Run.Always (execute z s) ChannelUp cmds info ↔
      Run.Each (execute z s) (Run.Completed (KeepsChannel z)) cmds info := by
  obtain ⟨c, hc, -⟩ := hstart.served.channel
  exact Run.always_iff_each (I := Served z) (fun _ _ _ _ hI h => hI.step h)
    (fun _ _ _ _ hI hup h => channel_step hI hup h) cmds info hstart.served
    ((channelUp_iff hstart.served hc).mpr (hsuffix c hc))

theorem channel_up_renamed : ∃ info, Started World.noEmptyChunk info ∧
    Run.Always (execute World.noEmptyChunk World.stack) ChannelUp
      [.set_entity_state 0 0, .set_entity_keyexpr 0 (World.str [0x62])] info := by
  obtain ⟨info, hsetup, h⟩ := setup_started World.noEmptyChunk 64 (World.str [0x7a]) [] (by decide)
  have hcell : (info.cell 0).map (·.entity.keyexpr) = some (World.str [0x7a]) :=
    Result.of_map (f := fun info => (info.cell 0).map (·.entity.keyexpr)) hsetup rfl
  refine ⟨info, h, (channel_up_iff_keyexprs_taken h ?_ _).mpr ⟨?_, fun _ _ _ => ⟨?_, ?_⟩⟩⟩
  · intro c hc
    rw [hc, Option.map_some, Option.some.injEq] at hcell
    rw [hcell]
    decide
  · rintro _ _ - _ _ ⟨⟩
  · rintro _ _ - _ _ ⟨⟩ -
    decide
  · exact fun _ _ _ => trivial

/-- The keyexpr `a//b` for entity 0 takes the channel down, and the reply says OK. -/
theorem refused_keyexpr_cuts_channel : ∃ info info' c,
    setup World.noEmptyChunk 1 64 (World.str [0x7a])
      [.sub true (World.str [0x61]) none (.application 0)] = .ok info ∧
    World.noEmptyChunk.accepts (World.str [0x7a]) = true ∧
    execute World.noEmptyChunk World.stack
      (.set_entity_keyexpr 0 (World.str [0x61, 0x2f, 0x2f, 0x62])) info = .ok (true, info') ∧
    info'.cell 0 = some c ∧ c.live = 0 :=
  ⟨_, _, _, rfl, by decide, rfl, rfl, rfl⟩

end ZdcPoc.B
