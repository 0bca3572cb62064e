import Mathlib.Data.List.Nodup
import Mathlib.Tactic.Common

/-!
# Linearizable histories

Clients call an object at the same time and have their answers later, or never. A history is linearizable
when its calls can be put one after the other so that every answer is that of its place, and no call comes
before one that had its answer already.
-/

namespace ZdcPoc.Linear

open List

variable {ι α ρ σ : Type*}

/-- An object that is called by one client at a time. A call may have no answer. -/
structure Object (σ α ρ : Type*) where
  next : σ → α → σ
  answer : σ → α → Option ρ

inductive Event (ι α ρ : Type*) where
  | call (i : ι) (a : α)
  | ret (i : ι) (r : ρ)

namespace Object

variable (obj : Object σ α ρ) (s : σ)

def after (done : List (ι × α)) : σ := done.foldl (fun s d => obj.next s d.2) s

/-- Call `i` has a place in `done`, and its answer there is `r`. -/
def Answers (done : List (ι × α)) (i : ι) (r : ρ) : Prop :=
  ∃ before a rest, done = before ++ (i, a) :: rest ∧ obj.answer (obj.after s before) a = some r

variable {obj s} {done : List (ι × α)} {i j : ι} {a : α} {r : ρ}

theorem after_concat : obj.after s (done ++ [(i, a)]) = obj.next (obj.after s done) a := by
  rw [after, foldl_append]
  rfl

theorem Answers.mem (h : obj.Answers s done i r) : i ∈ done.map Prod.fst := by
  obtain ⟨before, a, rest, rfl, -⟩ := h
  simp

theorem Answers.concat (h : obj.Answers s done i r) : obj.Answers s (done ++ [(j, a)]) i r := by
  obtain ⟨before, b, rest, rfl, hanswer⟩ := h
  exact ⟨before, b, rest ++ [(j, a)], by simp, hanswer⟩

theorem answers_last (h : obj.answer (obj.after s done) a = some r) :
    obj.Answers s (done ++ [(i, a)]) i r :=
  ⟨done, a, [], rfl, h⟩

end Object

/-- What holds of two events, the second after the first. No call is made or answered twice, and a call
that is made after an answer is carried out after the call that was answered. -/
def Follows (done : List (ι × α)) : Event ι α ρ → Event ι α ρ → Prop
  | .call i _, .call j _ => i ≠ j
  | .call _ _, .ret _ _ => True
  | .ret i _, .call j _ => j ∈ done.map Prod.fst → [i, j] <+ done.map Prod.fst
  | .ret i _, .ret j _ => i ≠ j

/-- `done` are the calls that were carried out, in their order. -/
structure Linearizes (obj : Object σ α ρ) (s : σ) (hist : List (Event ι α ρ)) (done : List (ι × α)) :
    Prop where
  nodup : (done.map Prod.fst).Nodup
  called : ∀ d ∈ done, .call d.1 d.2 ∈ hist
  answers : ∀ i r, .ret i r ∈ hist → obj.Answers s done i r
  order : hist.Pairwise (Follows done)

/-! ## How a history goes on -/

namespace Linearizes

variable {obj : Object σ α ρ} {s : σ} {hist : List (Event ι α ρ)} {done : List (ι × α)} {i : ι} {a : α} {r : ρ}

theorem nil : Linearizes (ι := ι) obj s [] [] :=
  ⟨nodup_nil, by simp, by simp, Pairwise.nil⟩

theorem pairwise_concat {R : Event ι α ρ → Event ι α ρ → Prop} {e : Event ι α ρ} (h : hist.Pairwise R)
    (hlast : ∀ e' ∈ hist, R e' e) : (hist ++ [e]).Pairwise R :=
  pairwise_append.mpr ⟨h, pairwise_singleton R e, fun e' he' _ he => mem_singleton.mp he ▸ hlast e' he'⟩

theorem call (h : Linearizes obj s hist done) (hnew : ∀ a, .call i a ∉ hist) :
    Linearizes obj s (hist ++ [.call i a]) done := by
  refine ⟨h.nodup, fun d hd => mem_append_left _ (h.called d hd), fun j r hret => ?_,
    pairwise_concat h.order fun e he => ?_⟩
  · rcases mem_append.mp hret with hret | hret
    · exact h.answers j r hret
    · cases mem_singleton.mp hret
  · cases e with
    | call j b => exact fun hj => hnew b (hj ▸ he)
    | ret j r =>
      intro hdone
      obtain ⟨d, hd, rfl⟩ := mem_map.mp hdone
      exact absurd (h.called d hd) (hnew d.2)

theorem place (h : Linearizes obj s hist done) (hcall : .call i a ∈ hist) (hnew : i ∉ done.map Prod.fst) :
    Linearizes obj s hist (done ++ [(i, a)]) := by
  refine ⟨?_, fun d hd => ?_, fun j r hret => (h.answers j r hret).concat, ?_⟩
  · rw [map_append]
    exact h.nodup.append (nodup_singleton i) (disjoint_singleton.mpr hnew)
  · rcases mem_append.mp hd with hd | hd
    · exact h.called d hd
    · cases mem_singleton.mp hd
      exact hcall
  · refine h.order.imp_of_mem fun {e e'} he _ hfollows => ?_
    cases e with
    | call j b => cases e' <;> exact hfollows
    | ret j r =>
      cases e' with
      | ret k r' => exact hfollows
      | call k b =>
        rw [Follows, map_append]
        intro hk
        rcases mem_append.mp hk with hk | hk
        · exact (hfollows hk).trans (sublist_append_left _ _)
        · cases mem_singleton.mp hk
          exact (singleton_sublist.mpr (h.answers j r he).mem).append (Sublist.refl [i])

theorem ret (h : Linearizes obj s hist done) (hanswer : obj.Answers s done i r) (hnew : ∀ r, .ret i r ∉ hist) :
    Linearizes obj s (hist ++ [.ret i r]) done := by
  refine ⟨h.nodup, fun d hd => mem_append_left _ (h.called d hd), fun j r' hret => ?_,
    pairwise_concat h.order fun e he => ?_⟩
  · rcases mem_append.mp hret with hret | hret
    · exact h.answers j r' hret
    · cases mem_singleton.mp hret
      exact hanswer
  · cases e with
    | call j b => trivial
    | ret j r' => exact fun hj => hnew r' (hj ▸ he)

end Linearizes

end ZdcPoc.Linear
