import Mathlib.Data.List.Basic
import Mathlib.Data.List.Induction
import Mathlib.Tactic.Common

/-!
# What was written last

A fold keeps of each field what the last input has set, and of rows that are written over each other
what the last row that reaches so far has there.
-/

namespace ZdcPoc.LastWrite

variable {α β σ : Type*}

/-! ## Fields -/

section Fields

variable (next : σ → α → σ)

theorem foldl_filter_of_idle (p : α → Bool) (hidle : ∀ s a, p a = false → next s a = s) (as : List α)
    (s : σ) : (as.filter p).foldl next s = as.foldl next s := by
  induction as generalizing s with
  | nil => rfl
  | cons a as ih =>
    cases hp : p a with
    | true => rw [List.filter_cons_of_pos hp, List.foldl_cons, List.foldl_cons, ih]
    | false =>
      rw [List.filter_cons_of_neg (by rw [hp]; exact Bool.false_ne_true), List.foldl_cons, hidle s a hp, ih]

end Fields

/-! ## Rows -/

/-- Rows written over each other from the start on, each as far as it goes. -/
def overlay (rows : List (List α)) : List α := rows.foldl (fun under row => row ++ under.drop row.length) []

theorem overlay_append (rows : List (List α)) (row : List α) :
    overlay (rows ++ [row]) = row ++ (overlay rows).drop row.length := by
  simp only [overlay, List.foldl_append, List.foldl_cons, List.foldl_nil]

theorem overlay_singleton (row : List α) : overlay [row] = row := by
  rw [← List.nil_append [row], overlay_append, show overlay ([] : List (List α)) = [] from rfl,
    List.drop_nil, List.append_nil]

theorem overlay_getElem? (rows : List (List α)) (j : Nat) :
    (overlay rows)[j]? = (rows.filterMap (·[j]?)).getLast? := by
  induction rows using List.reverseRecOn with
  | nil => rfl
  | append_singleton rows row ih =>
    rw [overlay_append, List.filterMap_append]
    rcases Nat.lt_or_ge j row.length with hj | hj
    · have hrow : [row].filterMap (·[j]?) = [row[j]] :=
        List.filterMap_cons_some (List.getElem?_eq_getElem hj)
      rw [List.getElem?_append_left hj, hrow, List.getLast?_concat, List.getElem?_eq_getElem hj]
    · have hrow : [row].filterMap (·[j]?) = [] := List.filterMap_cons_none (List.getElem?_eq_none hj)
      rw [List.getElem?_append_right hj, List.getElem?_drop, hrow, List.append_nil,
        show row.length + (j - row.length) = j by omega, ih]

end ZdcPoc.LastWrite
