import ZdcPoc.Refinement

/-!
# Queries of any bytes

A query may hold any bytes. The node handles it and is left ready for the next one, but for a list
request that comes when the table has outgrown its temporary buffer, and an OFF that undeclares a handle
nobody has written.
-/

namespace ZdcPoc.B

open zdc_info_t

variable {z : Zenoh} {s : LcsfStack} {info : zdc_info_t} {node node' : node_t} {query : query_t}

/-- Between two queries: the node serves, and nothing waits to be sent. -/
structure Resting (z : Zenoh) (node : node_t) : Prop where
  served : Served z node.zdcInfo
  quiet : node.zdcInfo.curr_msg_size = 0

theorem Started.resting (h : Started z info) (p : zdc_cmd_payload_t) : Resting z ⟨info, p⟩ :=
  ⟨h.served, h.filled.quiet⟩

/-! ## One query -/

theorem Resting.next {reply : Option reply_t} (h : Resting z node)
    (hstep : zdc_cmd_handler z s query node = .ok (reply, node')) : Resting z node' := by
  refine ⟨?_, ?_⟩
  · rcases handler_cases hstep with ⟨-, hsame⟩ | ⟨name, p, r, info', hhanded, hexec, hsame⟩
    · exact hsame.served h.served
    · apply hsame.served
      rcases handed_command hhanded with ⟨c, rfl, hcarried⟩ | hwrong
      · rw [execute_of_carried hcarried] at hexec
        exact h.served.step hexec
      · rcases hwrong with rfl | rfl <;>
        · cases hexec
          exact h.served
  · by_cases hne : query.payload.length = 0
    · unfold zdc_cmd_handler at hstep
      rw [if_pos hne] at hstep
      cases hstep
      exact h.quiet
    · obtain ⟨-, -, -, -, hquiet, -⟩ := handler_mid hne hstep
      exact hquiet

/-- The state bytes 5 and 0 for a subscriber that was registered off. -/
example : (do
    let info ← setup World.acceptAll 1 64 (World.str [0x7a]) [.sub false (World.str [0x61]) none (.application 0)]
    Run.run (zdc_cmd_handler World.acceptAll World.stack)
      [⟨World.encode ⟨0x2, some [⟨some 1, [1]⟩, ⟨some 1, [5]⟩]⟩, true⟩,
        ⟨World.encode ⟨0x2, some [⟨some 1, [1]⟩, ⟨some 1, [0]⟩]⟩, true⟩] ⟨info, .zero⟩) = .error .badHandle := rfl

end ZdcPoc.B
