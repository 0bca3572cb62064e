import Mathlib.Data.List.Nodup
import Mathlib.Tactic.Common

/-!
# Messages on their way

A pool of messages, each with the name of the one that it is from or for. Any of them can be the next, and
is picked by its place.
-/

namespace ZdcPoc.Pool

open List

variable {ι β : Type*} {l : List (ι × β)} {i j : ι} {b : β} {k : Nat} {q : ι × β}

theorem nodup_eraseIdx (h : (l.map Prod.fst).Nodup) (k : Nat) : ((l.eraseIdx k).map Prod.fst).Nodup :=
  h.sublist ((eraseIdx_sublist l k).map Prod.fst)

theorem mem_of_eraseIdx (h : q ∈ l.eraseIdx k) : q ∈ l := (eraseIdx_sublist l k).subset h

/-- The others have other names. -/
theorem eraseIdx_other (h : (l.map Prod.fst).Nodup) {p : ι × β} (hk : l[k]? = some p)
    (hq : q ∈ l.eraseIdx k) : q.1 ≠ p.1 := by
  obtain ⟨j, hj, hget⟩ := mem_eraseIdx_iff_getElem?.mp hq
  intro heq
  have hlt : j < (l.map Prod.fst).length := by
    rw [length_map]
    exact (List.getElem?_eq_some_iff.mp hget).1
  refine hj ((getElem?_inj hlt h).mp ?_)
  rw [getElem?_map, getElem?_map, hget, hk, Option.map_some, Option.map_some, heq]

theorem mem_eraseIdx_fst (h : (l.map Prod.fst).Nodup) :
    i ∈ (l.eraseIdx k).map Prod.fst ↔ i ∈ l.map Prod.fst ∧ ¬ ∃ b, l[k]? = some (i, b) := by
  constructor
  · intro hi
    obtain ⟨q, hq, rfl⟩ := mem_map.mp hi
    refine ⟨mem_map_of_mem (mem_of_eraseIdx hq), ?_⟩
    rintro ⟨b, hk⟩
    exact eraseIdx_other h hk hq rfl
  · rintro ⟨hi, hk⟩
    obtain ⟨q, hq, rfl⟩ := mem_map.mp hi
    obtain ⟨j, hj⟩ := mem_iff_getElem?.mp hq
    refine mem_map_of_mem (mem_eraseIdx_iff_getElem?.mpr ⟨j, ?_, hj⟩)
    rintro rfl
    exact hk ⟨q.2, hj⟩

/-! ## The messages of one -/

variable [DecidableEq ι]

def of (i : ι) (l : List (ι × β)) : List β := (l.filter (·.1 = i)).map Prod.snd

theorem of_append (i : ι) (l l' : List (ι × β)) : of i (l ++ l') = of i l ++ of i l' := by
  unfold of
  rw [filter_append, map_append]

theorem of_cons_self (i : ι) (b : β) (l : List (ι × β)) : of i ((i, b) :: l) = b :: of i l := by
  simp [of]

theorem of_cons_ne (h : j ≠ i) (b : β) (l : List (ι × β)) : of i ((j, b) :: l) = of i l := by
  simp [of, h]

theorem of_map_self (i : ι) (bs : List β) : of i (bs.map (Prod.mk i)) = bs := by
  induction bs with
  | nil => rfl
  | cons b bs ih => rw [map_cons, of_cons_self, ih]

theorem of_map_ne (h : j ≠ i) (bs : List β) : of i (bs.map (Prod.mk j)) = [] := by
  induction bs with
  | nil => rfl
  | cons b bs ih => rw [map_cons, of_cons_ne h, ih]

/-- One message for each. -/
theorem of_each {is : List ι} (his : is.Nodup) (hi : i ∈ is) (b : β) : of i (is.map fun j => (j, b)) = [b] := by
  induction is with
  | nil => cases hi
  | cons j is ih =>
    obtain ⟨hj, his⟩ := nodup_cons.mp his
    rw [map_cons]
    rcases mem_cons.mp hi with rfl | hi
    · have hnone : of i (is.map fun j => (j, b)) = [] := by
        simp only [of, map_eq_nil_iff, filter_eq_nil_iff, mem_map, decide_eq_true_eq]
        rintro _ ⟨j, hmem, rfl⟩ rfl
        exact hj hmem
      rw [of_cons_self, hnone]
    · have hne : j ≠ i := by
        rintro rfl
        exact hj hi
      rw [of_cons_ne hne, ih his hi]

theorem of_eraseIdx_self (hk : l[k]? = some (i, b)) :
    ∃ j, (of i l)[j]? = some b ∧ of i (l.eraseIdx k) = (of i l).eraseIdx j := by
  induction l generalizing k with
  | nil => cases hk
  | cons q l ih =>
    cases k with
    | zero =>
      cases hk
      exact ⟨0, by rw [of_cons_self]; rfl, by rw [of_cons_self]; rfl⟩
    | succ k =>
      obtain ⟨j, hj, herase⟩ := ih hk
      obtain ⟨i', b'⟩ := q
      rw [eraseIdx_cons_succ]
      by_cases hi : i' = i
      · subst hi
        refine ⟨j + 1, ?_, ?_⟩
        · rwa [of_cons_self, getElem?_cons_succ]
        · rw [of_cons_self, of_cons_self, eraseIdx_cons_succ, herase]
      · rw [of_cons_ne hi, of_cons_ne hi]
        exact ⟨j, hj, herase⟩

theorem of_eraseIdx_ne (hk : l[k]? = some (i, b)) (h : i ≠ j) : of j (l.eraseIdx k) = of j l := by
  induction l generalizing k with
  | nil => cases hk
  | cons q l ih =>
    cases k with
    | zero =>
      cases hk
      rw [of_cons_ne h]
      rfl
    | succ k =>
      rw [eraseIdx_cons_succ]
      have hrest := ih hk
      unfold of at hrest ⊢
      rw [filter_cons, filter_cons]
      split
      · rw [map_cons, map_cons, hrest]
      · exact hrest

theorem of_eraseIdx (i : ι) (l : List (ι × β)) (k : Nat) : ∃ j, of i (l.eraseIdx k) = (of i l).eraseIdx j := by
  have hsame : (of i l).eraseIdx (of i l).length = of i l := eraseIdx_of_length_le (Nat.le_refl _)
  cases hk : l[k]? with
  | none => exact ⟨_, by rw [eraseIdx_of_length_le (List.getElem?_eq_none_iff.mp hk), hsame]⟩
  | some q =>
    obtain ⟨j, b⟩ := q
    by_cases hj : j = i
    · subst hj
      obtain ⟨place, -, herase⟩ := of_eraseIdx_self hk
      exact ⟨place, herase⟩
    · exact ⟨_, by rw [of_eraseIdx_ne hk hj, hsame]⟩

end ZdcPoc.Pool
