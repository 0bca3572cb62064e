import ZdcPoc.Declarations
import ZdcPoc.Lib.LastWrite
import ZdcPoc.Refinement

/-!
# What is left of an order of commands

Commands for different entities do not meet, so only the order of those for one entity counts. Of
the controller's messages only the last one for each state and each keyexpr counts.
-/

namespace ZdcPoc

/-! ## Orders of commands -/

namespace B

open zdc_info_t

variable {z : Zenoh} {s : LcsfStack} {info t t' : zdc_info_t} {cmds cmds' : List Command} {i : Nat}
  {c : Cell}

/-- The commands for one entity, in their order. -/
def for_entity (i : Nat) (cmds : List Command) : List Command :=
  cmds.filter fun cmd => cmd.entity_id.map UInt16.toNat = some i

theorem act_idle {cmd : Command} (h : cmd.entity_id.map UInt16.toNat ≠ some i) : cmd.act z i c = c := by
  cases hid : cmd.entity_id with
  | none => cases cmd <;> first | rfl | cases hid
  | some id =>
    rw [hid] at h
    exact act_of_ne hid fun he => h (congrArg some he)

theorem foldl_act (i : Nat) (cmds : List Command) (c : Cell) :
    cmds.foldl (fun c cmd => cmd.act z i c) c = (for_entity i cmds).foldl (fun c cmd => cmd.act z i c) c :=
  (LastWrite.foldl_filter_of_idle (fun c cmd => cmd.act z i c) _
    (fun _ _ h => act_idle (of_decide_eq_false h)) cmds c).symm

theorem run_cells (hf : info.Full) (hrun : Run.run (execute z s) cmds info = .ok t) :
    t.Full ∧ t.el_size = info.el_size ∧
      ∀ i, t.cell i = (info.cell i).map fun c => cmds.foldl (fun c cmd => cmd.act z i c) c := by
  refine Run.run_inputs (I := fun done u => u.Full ∧ u.el_size = info.el_size ∧
    ∀ i, u.cell i = (info.cell i).map fun c => done.foldl (fun c cmd => cmd.act z i c) c)
    (fun done cmd u o u' hu hexec => ?_) [] hrun ⟨hf, rfl, fun i => ?_⟩
  · obtain ⟨hfull, hsize, hcell⟩ := hu
    have hd := execute_stepped hfull.toWF hexec
    refine ⟨hd.full hfull, hd.el_size.trans hsize, fun i => ?_⟩
    rw [hd.cell, hcell, Option.map_map]
    apply Option.map_congr
    intro c _
    rw [List.foldl_append]
    rfl
  · cases info.cell i <;> rfl

/-- Two runs that give each entity the same commands in the same order lead to the same entities and
the same declarations, however the commands of different entities lie between each other. -/
theorem interleaving_irrelevant (hreach : Reachable z s info)
    (hsame : ∀ i, for_entity i cmds = for_entity i cmds') (hrun : Run.run (execute z s) cmds info = .ok t)
    (hrun' : Run.run (execute z s) cmds' info = .ok t') : SameEntities t t' := by
  obtain ⟨hfull, hsize, hcell⟩ := run_cells hreach.served.full hrun
  obtain ⟨hfull', hsize', hcell'⟩ := run_cells hreach.served.full hrun'
  refine .of_cells hfull hfull' (hsize'.trans hsize.symm) fun i => ?_
  rw [hcell, hcell']
  apply Option.map_congr
  intro c _
  rw [foldl_act, ← hsame, ← foldl_act]

theorem interleaving_irrelevant_swapped : ∃ info t t', Reachable World.acceptAll World.stack info ∧
    Run.run (execute World.acceptAll World.stack) [.set_entity_state 1 5,
      .set_entity_keyexpr 0 (World.str [0x62]), .set_entity_state 1 1, .set_entity_state 0 1] info = .ok t ∧
    Run.run (execute World.acceptAll World.stack) [.set_entity_keyexpr 0 (World.str [0x62]),
      .set_entity_state 0 1, .set_entity_state 1 5, .set_entity_state 1 1] info = .ok t' ∧
    SameEntities t t' := by
  obtain ⟨info, hsetup, h⟩ := setup_started World.acceptAll 64 (World.str [0x7a])
    [.sub true (World.str [0x61]) none (.application 0)] (by decide)
  obtain ⟨t, t', hrun, hrun'⟩ : ∃ t t',
      Run.run (execute World.acceptAll World.stack) [.set_entity_state 1 5,
        .set_entity_keyexpr 0 (World.str [0x62]), .set_entity_state 1 1, .set_entity_state 0 1] info =
        .ok t ∧
      Run.run (execute World.acceptAll World.stack) [.set_entity_keyexpr 0 (World.str [0x62]),
        .set_entity_state 0 1, .set_entity_state 1 5, .set_entity_state 1 1] info = .ok t' := by
    cases hsetup
    exact ⟨_, _, rfl, rfl⟩
  refine ⟨info, t, t', .start h, hrun, hrun', interleaving_irrelevant (.start h) (fun i => ?_) hrun hrun'⟩
  by_cases h0 : i = 0
  · subst h0
    rfl
  · by_cases h1 : i = 1
    · subst h1
      rfl
    · simp [for_entity, Command.entity_id, Ne.symm h0, Ne.symm h1]

end B

/-! ## Last messages -/

namespace Request

end Request

variable {z : Zenoh} {s : LcsfStack} {info : B.zdc_info_t} {ds ds' : List (Delivery s)}

namespace B

open zdc_info_t

variable {node node' : node_t} {i : Nat}

def SameDeclares (a b : zdc_info_t) : Prop :=
  ∀ i, (b.cell i).map (fun c => c.entity.declares) = (a.cell i).map fun c => c.entity.declares

theorem Stepped.same_declares {cmd : Command} {info' : zdc_info_t} (hd : Stepped z cmd info info') :
    SameDeclares info info' := by
  intro i
  rw [hd.cell, Option.map_map]
  exact Option.map_congr fun c _ => act_declares cmd

/-! ## Runs -/

theorem deliveries_run (hstart : Started z info) (ds : List (Delivery s)) :
    ∃ node, Run.run (Delivery.step z) ds ⟨info, .zero⟩ = .ok node ∧ Ready z node ∧
      SameDeclares info node.zdcInfo ∧ node.zdcInfo.abstract = fold ds info.abstract := by
  obtain ⟨node, hrun, ⟨hready, hsame⟩, habs⟩ := Run.run_simulates
    (I := fun node => Ready z node ∧ SameDeclares info node.zdcInfo)
    (fun node => node.zdcInfo.abstract) (fun m d => d.request.apply m) (fun d node h => by
      obtain ⟨-, reply, node', hstep, hready', hd⟩ := deliver_stepped d h.1
      exact ⟨reply, node', hstep, ⟨hready', fun i => (hd.same_declares i).trans (h.2 i)⟩,
        hd.abstract h.1.tidy⟩) ds ⟨info, .zero⟩ ⟨hstart.ready, fun _ => rfl⟩
  exact ⟨node, hrun, hready, hsame, habs⟩

end B

end ZdcPoc
