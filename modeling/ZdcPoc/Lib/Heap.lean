import Mathlib.Data.List.Nodup
import Mathlib.Tactic.Common

/-!
# Allocations

A heap as a record of its live blocks. What is in them is left out. No address is given out twice, so that
an address stands for one allocation.
-/

namespace ZdcPoc

/-- `live` are the blocks that were not freed, each as its address and its size. -/
structure Heap where
  next : Nat
  live : List (Nat × Nat)
  below : ∀ b ∈ live, b.1 < next
  nodup : (live.map Prod.fst).Nodup

namespace Heap

open List

def empty : Heap := ⟨0, [], by simp, nodup_nil⟩

theorem next_not_live (h : Heap) : h.next ∉ h.live.map Prod.fst := by
  intro hmem
  obtain ⟨b, hb, hnext⟩ := mem_map.mp hmem
  exact absurd (h.below b hb) (by omega)

def malloc (size : Nat) (h : Heap) : Nat × Heap :=
  (h.next,
    { next := h.next + 1
      live := (h.next, size) :: h.live
      below := fun b hb => by
        rcases mem_cons.mp hb with rfl | hb
        · exact Nat.lt_succ_self _
        · exact Nat.lt_succ_of_lt (h.below b hb)
      nodup := nodup_cons.mpr ⟨h.next_not_live, h.nodup⟩ })

/-- `none` if there is no live block at this address. -/
def free (p : Nat) (h : Heap) : Option Heap :=
  if p ∈ h.live.map Prod.fst then
    some
      { h with
        live := h.live.eraseP (·.1 = p)
        below := fun b hb => h.below b (eraseP_sublist.subset hb)
        nodup := h.nodup.sublist (eraseP_sublist.map Prod.fst) }
  else none

/-- The block moves. -/
def realloc (p size : Nat) (h : Heap) : Option (Nat × Heap) := (h.free p).map (malloc size)

def free_all (ps : List Nat) (h : Heap) : Option Heap := ps.foldlM (fun h p => h.free p) h

/-! ## What is live afterwards -/

variable {h h' : Heap} {p : Nat} {b : Nat × Nat} {bs rest : List (Nat × Nat)}

theorem free_perm (hlive : h.live ~ b :: rest) : ∃ h', h.free b.1 = some h' ∧ h'.live ~ rest := by
  have hmem : b.1 ∈ h.live.map Prod.fst := mem_map_of_mem (hlive.mem_iff.mpr mem_cons_self)
  refine ⟨_, if_pos hmem, ?_⟩
  have hone : h.live.Pairwise fun a c => decide (a.1 = b.1) = true → decide (c.1 = b.1) = true → False := by
    refine (pairwise_map.mp h.nodup).imp fun hne ha hc => hne ?_
    rw [of_decide_eq_true ha, of_decide_eq_true hc]
  have herase := hlive.eraseP (fun a => decide (a.1 = b.1)) hone
  rwa [eraseP_cons_of_pos (by simp)] at herase

theorem realloc_perm (size : Nat) (hlive : h.live ~ b :: rest) :
    ∃ p h', h.realloc b.1 size = some (p, h') ∧ h'.live ~ (p, size) :: rest := by
  obtain ⟨mid, hfree, hmid⟩ := free_perm hlive
  exact ⟨_, _, by rw [realloc, hfree]; rfl, hmid.cons _⟩

theorem free_all_perm (hlive : h.live ~ bs ++ rest) :
    ∃ h', h.free_all (bs.map Prod.fst) = some h' ∧ h'.live ~ rest := by
  induction bs generalizing h with
  | nil => exact ⟨h, rfl, hlive⟩
  | cons b bs ih =>
    obtain ⟨mid, hfree, hmid⟩ := free_perm hlive
    obtain ⟨h', hall, hrest⟩ := ih hmid
    refine ⟨h', ?_, hrest⟩
    rw [free_all, map_cons, foldlM_cons, hfree]
    exact hall

theorem free_none (hlive : h.live ~ bs ++ rest) (hlive' : h'.live ~ rest) (hb : b ∈ bs) : h'.free b.1 = none := by
  refine if_neg fun hmem => ?_
  have hnodup := (hlive.map Prod.fst).nodup_iff.mp h.nodup
  rw [map_append] at hnodup
  exact (nodup_append.mp hnodup).2.2 b.1 (mem_map_of_mem hb) b.1 ((hlive'.map Prod.fst).mem_iff.mp hmem) rfl

theorem free_all_again (hlive : h.live ~ bs ++ rest) (hlive' : h'.live ~ rest) (hbs : bs ≠ []) :
    h'.free_all (bs.map Prod.fst) = none := by
  cases bs with
  | nil => exact absurd rfl hbs
  | cons b bs =>
    rw [free_all, map_cons, foldlM_cons, free_none hlive hlive' mem_cons_self]
    rfl

end Heap

end ZdcPoc
