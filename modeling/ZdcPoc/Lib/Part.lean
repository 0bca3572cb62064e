import Mathlib.Data.Multiset.Filter
import Mathlib.Tactic.Common

/-!
# A multiset split by a key

`part f i` are the elements of key `i`. Adding or removing an element of key `i` is a change of
that part alone.
-/

namespace ZdcPoc

open Multiset

variable {α κ : Type*} [DecidableEq κ] (f : α → κ)

def part (i : κ) (s : Multiset α) : Multiset α := s.filter (f · = i)

def setPart (i : κ) (t s : Multiset α) : Multiset α := s.filter (f · ≠ i) + t

variable {f} {i j : κ} {s t u : Multiset α}

theorem setPart_part (i : κ) (s : Multiset α) : setPart f i (part f i s) s = s := by
  rw [setPart, part, Multiset.add_comm]
  exact filter_add_not (f · = i) s

theorem part_eq_self (h : ∀ a ∈ t, f a = i) : part f i t = t := filter_eq_self.mpr h

theorem part_eq_zero (h : ∀ a ∈ t, f a = i) (hij : j ≠ i) : part f j t = 0 :=
  filter_eq_nil.mpr fun a ha hj => hij (hj.symm.trans (h a ha))

theorem mem_part {a : α} : a ∈ part f i s ↔ a ∈ s ∧ f a = i := mem_filter

theorem part_add : part f i (s + t) = part f i s + part f i t := filter_add ..

theorem part_setPart (h : ∀ a ∈ t, f a = i) : part f i (setPart f i t s) = t := by
  rw [setPart, part_add, part_eq_self h, part, filter_filter]
  rw [filter_eq_nil.mpr (by simp), Multiset.zero_add]

theorem part_setPart_ne (h : ∀ a ∈ t, f a = i) (hij : j ≠ i) :
    part f j (setPart f i t s) = part f j s := by
  rw [setPart, part_add, part_eq_zero h hij, Multiset.add_zero, part, part, filter_filter]
  apply filter_congr
  intro a _
  constructor
  · exact fun ha => ha.1
  · exact fun ha => ⟨ha, fun hi => hij (ha.symm.trans hi)⟩

theorem setPart_setPart (h : ∀ a ∈ t, f a = i) : setPart f i u (setPart f i t s) = setPart f i u s := by
  have ht : t.filter (f · ≠ i) = 0 := filter_eq_nil.mpr fun a ha hne => hne (h a ha)
  simp only [setPart, filter_add, ht, Multiset.add_zero, filter_filter, and_self]

theorem cons_part {a : α} : a ::ₘ s = setPart f i (a ::ₘ part f i s) s := by
  rw [setPart, add_cons, ← setPart, setPart_part]

theorem erase_part [DecidableEq α] {a : α} (h : f a = i) : s.erase a = setPart f i ((part f i s).erase a) s := by
  by_cases ha : a ∈ s
  · rw [setPart, ← erase_add_right_pos _ (mem_part.mpr ⟨ha, h⟩), ← setPart, setPart_part]
  · rw [erase_of_notMem ha, erase_of_notMem fun hm => ha (mem_part.mp hm).1, setPart_part]

theorem eq_of_parts [DecidableEq α] (h : ∀ i, part f i s = part f i t) : s = t := by
  rw [Multiset.ext]
  intro a
  have hcount : ∀ u : Multiset α, count a (part f (f a) u) = count a u := fun u =>
    count_filter_of_pos (p := (f · = f a)) rfl
  rw [← hcount s, ← hcount t, h]

/-- The parts of all keys that occur make up the multiset. -/
theorem eq_zero_of_parts (h : ∀ a ∈ s, part f (f a) s = 0) : s = 0 := by
  rw [eq_zero_iff_forall_notMem]
  intro a ha
  have hm : a ∈ part f (f a) s := mem_part.mpr ⟨ha, rfl⟩
  rw [h a ha] at hm
  exact notMem_zero a hm

end ZdcPoc
