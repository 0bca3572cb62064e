import Mathlib.Data.List.Infix
import Mathlib.Tactic.Common

/-!
# Runs of a step function that can fail

A run does one step per input and stops at the first failure. `Always` speaks of
the states of a run, `Each` of its steps.
-/

namespace ZdcPoc.Run

variable {σ τ α ο ε : Type*} (step : α → σ → Except ε (ο × σ))

def run : List α → σ → Except ε σ
  | [], s => .ok s
  | a :: as, s =>
    match step a s with
    | .ok (_, t) => run as t
    | .error e => .error e

/-- Every state that the run reaches, the first one too. -/
def Always (P : σ → Prop) : List α → σ → Prop
  | [], s => P s
  | a :: as, s => P s ∧ ∀ o t, step a s = .ok (o, t) → Always P as t

def Each (Q : α → σ → Except ε (ο × σ) → Prop) : List α → σ → Prop
  | [], _ => True
  | a :: as, s => Q a s (step a s) ∧ ∀ o t, step a s = .ok (o, t) → Each Q as t

/-- What the steps of a run give out, up to the first failure. -/
def outs : List α → σ → List ο
  | [], _ => []
  | a :: as, s =>
    match step a s with
    | .ok (o, t) => o :: outs as t
    | .error _ => []

/-- What a condition says of the steps that do not fail. -/
def Completed (good : α → σ → Prop) (a : α) (s : σ) (r : Except ε (ο × σ)) : Prop :=
  ∀ o t, r = .ok (o, t) → good a s

variable {step}

theorem run_cons_ok {a : α} {as : List α} {s t : σ} (h : run step (a :: as) s = .ok t) :
    ∃ o u, step a s = .ok (o, u) ∧ run step as u = .ok t := by
  simp only [run] at h
  split at h
  · rename_i o u hs
    exact ⟨o, u, hs, h⟩
  · cases h

theorem run_append {as : List α} {s t : σ} (h : run step as s = .ok t) (bs : List α) :
    run step (as ++ bs) s = run step bs t := by
  induction as generalizing s with
  | nil =>
    cases h
    rfl
  | cons a as ih =>
    obtain ⟨o, u, hu, hr⟩ := run_cons_ok h
    rw [List.cons_append]
    simp only [run, hu]
    exact ih hr

theorem always_head {P : σ → Prop} {as : List α} {s : σ} (h : Always step P as s) : P s := by
  cases as with
  | nil => exact h
  | cons a as => exact h.1

/-! ## Invariants -/

theorem run_inv {I : σ → Prop} (hI : ∀ a s o t, I s → step a s = .ok (o, t) → I t)
    {as : List α} {s t : σ} (h : run step as s = .ok t) (hs : I s) : I t := by
  induction as generalizing s with
  | nil => simp only [run, Except.ok.injEq] at h; exact h ▸ hs
  | cons a as ih =>
    obtain ⟨o, u, hu, hr⟩ := run_cons_ok h
    exact ih hr (hI a s o u hs hu)

theorem each_of_inv {I : σ → Prop} {Q : α → σ → Except ε (ο × σ) → Prop}
    (hI : ∀ a s o t, I s → step a s = .ok (o, t) → I t) (hQ : ∀ a s, I s → Q a s (step a s))
    (as : List α) (s : σ) (hs : I s) : Each step Q as s := by
  induction as generalizing s with
  | nil => trivial
  | cons a as ih => exact ⟨hQ a s hs, fun o t h => ih t (hI a s o t hs h)⟩

theorem each_of_inputs {I : σ → Prop} {P : α → Prop} {Q : α → σ → Except ε (ο × σ) → Prop}
    (hI : ∀ a s o t, I s → P a → step a s = .ok (o, t) → I t) (hQ : ∀ a s, I s → P a → Q a s (step a s))
    {as : List α} (has : ∀ a ∈ as, P a) (s : σ) (hs : I s) : Each step Q as s := by
  induction as generalizing s with
  | nil => trivial
  | cons a as ih =>
    obtain ⟨ha, has⟩ := List.forall_mem_cons.mp has
    exact ⟨hQ a s hs ha, fun o t h => ih has t (hI a s o t hs ha h)⟩

theorem each_mono {Q R : α → σ → Except ε (ο × σ) → Prop} (hQR : ∀ a s r, Q a s r → R a s r)
    {as : List α} {s : σ} (h : Each step Q as s) : Each step R as s := by
  induction as generalizing s with
  | nil => trivial
  | cons a as ih => exact ⟨hQR _ _ _ h.1, fun o t ht => ih (h.2 o t ht)⟩

theorem each_imp_of_inv {I : σ → Prop} {Q R : α → σ → Except ε (ο × σ) → Prop}
    (hI : ∀ a s o t, I s → step a s = .ok (o, t) → I t)
    (hQR : ∀ a s, I s → Q a s (step a s) → R a s (step a s))
    {as : List α} {s : σ} (hs : I s) (h : Each step Q as s) : Each step R as s := by
  induction as generalizing s with
  | nil => trivial
  | cons a as ih => exact ⟨hQR a s hs h.1, fun o t ht => ih (hI a s o t hs ht) (h.2 o t ht)⟩

theorem each_iff_of_inv {I : σ → Prop} {Q R : α → σ → Except ε (ο × σ) → Prop}
    (hI : ∀ a s o t, I s → step a s = .ok (o, t) → I t)
    (hQR : ∀ a s, I s → (Q a s (step a s) ↔ R a s (step a s)))
    (as : List α) (s : σ) (hs : I s) : Each step Q as s ↔ Each step R as s :=
  ⟨each_imp_of_inv hI (fun a s hs => (hQR a s hs).mp) hs,
    each_imp_of_inv hI (fun a s hs => (hQR a s hs).mpr) hs⟩

/-- `P` holds in every state of a run exactly when every completed step is a good one,
where a good step is one that keeps `P`. `I` is what all steps keep. -/
theorem always_iff_each {I P : σ → Prop} {good : α → σ → Prop}
    (hI : ∀ a s o t, I s → step a s = .ok (o, t) → I t)
    (hP : ∀ a s o t, I s → P s → step a s = .ok (o, t) → (P t ↔ good a s))
    (as : List α) (s : σ) (hs : I s) (hp : P s) :
    Always step P as s ↔ Each step (Completed good) as s := by
  induction as generalizing s with
  | nil => exact iff_of_true hp trivial
  | cons a as ih =>
    constructor
    · rintro ⟨-, h⟩
      refine ⟨fun o t ht => (hP a s o t hs hp ht).mp (always_head (h o t ht)), fun o t ht => ?_⟩
      exact (ih t (hI a s o t hs ht) (always_head (h o t ht))).mp (h o t ht)
    · rintro ⟨hg, h⟩
      refine ⟨hp, fun o t ht => ?_⟩
      have hpt := (hP a s o t hs hp ht).mpr (hg o t ht)
      exact (ih t (hI a s o t hs ht) hpt).mpr (h o t ht)

theorem always_iff_prefix {P : σ → Prop} {as : List α} {s : σ} :
    Always step P as s ↔ ∀ p, p <+: as → ∀ t, run step p s = .ok t → P t := by
  induction as generalizing s with
  | nil =>
    constructor
    · intro h p hp t ht
      rw [List.prefix_nil.mp hp] at ht
      simp only [run, Except.ok.injEq] at ht
      exact ht ▸ h
    · intro h; exact h [] (List.prefix_refl _) s rfl
  | cons a as ih =>
    constructor
    · rintro ⟨hs, h⟩ p hp t ht
      cases p with
      | nil => simp only [run, Except.ok.injEq] at ht; exact ht ▸ hs
      | cons b p =>
        obtain ⟨rfl, hpre⟩ := List.cons_prefix_cons.mp hp
        obtain ⟨o, u, hu, hr⟩ := run_cons_ok ht
        exact ih.mp (h o u hu) p hpre t hr
    · intro h
      refine ⟨h [] (List.nil_prefix) s rfl, fun o t ht => ih.mpr fun p hp u hu => ?_⟩
      exact h (a :: p) (List.cons_prefix_cons.mpr ⟨rfl, hp⟩) u (by simp only [run, ht, hu])

theorem run_still {s : σ} {o : ο} (h : ∀ a, step a s = .ok (o, s)) (as : List α) :
    run step as s = .ok s ∧ ∀ o' ∈ outs step as s, o' = o := by
  induction as with
  | nil => exact ⟨rfl, by simp [outs]⟩
  | cons a as ih =>
    unfold run outs
    rw [h a]
    exact ⟨ih.1, List.forall_mem_cons.mpr ⟨rfl, ih.2⟩⟩

/-! ## Runs whose steps meet a condition -/

theorem run_history {I : List α → σ → Prop} {good : α → σ → Prop}
    (hI : ∀ done a s o t, I done s → good a s → step a s = .ok (o, t) → I (done ++ [a]) t)
    (done : List α) {as : List α} {s t : σ} (hg : Each step (Completed good) as s)
    (h : run step as s = .ok t) (hs : I done s) : I (done ++ as) t := by
  induction as generalizing done s with
  | nil =>
    simp only [run, Except.ok.injEq] at h
    rw [List.append_nil]
    exact h ▸ hs
  | cons a as ih =>
    obtain ⟨o, u, hu, hr⟩ := run_cons_ok h
    have := ih _ (hg.2 o u hu) hr (hI done a s o u hs (hg.1 o u hu) hu)
    rwa [List.append_assoc, List.singleton_append] at this

theorem each_and {Q R : α → σ → Except ε (ο × σ) → Prop} {as : List α} {s : σ} (hQ : Each step Q as s)
    (hR : Each step R as s) : Each step (fun a s r => Q a s r ∧ R a s r) as s := by
  induction as generalizing s with
  | nil => trivial
  | cons a as ih => exact ⟨⟨hQ.1, hR.1⟩, fun o t ht => ih (hQ.2 o t ht) (hR.2 o t ht)⟩

theorem each_prefix {Q : α → σ → Except ε (ο × σ) → Prop} {as done : List α} {s : σ}
    (hpre : done <+: as) (h : Each step Q as s) : Each step Q done s := by
  induction as generalizing done s with
  | nil =>
    rw [List.prefix_nil.mp hpre]
    trivial
  | cons a as ih =>
    cases done with
    | nil => trivial
    | cons b done =>
      obtain ⟨rfl, hrest⟩ := List.cons_prefix_cons.mp hpre
      exact ⟨h.1, fun o t ht => ih hrest (h.2 o t ht)⟩

theorem completes_inputs {I : List α → σ → Prop} {good : α → σ → Prop}
    (hstep : ∀ done a s, I done s → good a s → ∃ o t, step a s = .ok (o, t) ∧ I (done ++ [a]) t)
    (done : List α) {as : List α} {s : σ} (hg : Each step (fun a s _ => good a s) as s) (hs : I done s) :
    ∃ t, run step as s = .ok t ∧ I (done ++ as) t := by
  induction as generalizing done s with
  | nil => exact ⟨s, rfl, by rwa [List.append_nil]⟩
  | cons a as ih =>
    obtain ⟨o, u, hu, hI⟩ := hstep done a s hs hg.1
    obtain ⟨t, ht, hend⟩ := ih (done ++ [a]) (hg.2 o u hu) hI
    rw [List.append_assoc, List.singleton_append] at hend
    unfold run
    rw [hu]
    exact ⟨t, ht, hend⟩

theorem good_of_completes {I : List α → σ → Prop} {ok good : α → σ → Prop}
    (hI : ∀ done a s o t, I done s → ok a s → step a s = .ok (o, t) → I (done ++ [a]) t)
    (hgood : ∀ done a s o t, I done s → step a s = .ok (o, t) → good a s) (done : List α)
    {as : List α} {s t : σ} (hok : Each step (fun a s _ => ok a s) as s) (h : run step as s = .ok t)
    (hs : I done s) : Each step (fun a s _ => good a s) as s := by
  induction as generalizing done s with
  | nil => trivial
  | cons a as ih =>
    obtain ⟨o, u, hu, hr⟩ := run_cons_ok h
    refine ⟨hgood done a s o u hs hu, fun o' u' hu' => ?_⟩
    rw [hu] at hu'
    cases hu'
    exact ih _ (hok.2 o u hu) hr (hI done a s o u hs hok.1 hu)

/-- Another step function that does in lockstep what the good steps of this one do. -/
theorem run_lift {ε' ο' : Type*} {step' : α → τ → Except ε' (ο' × τ)} {R : List α → σ → τ → Prop}
    {good : α → σ → Prop}
    (hR : ∀ done a s o s' t, R done s t → good a s → step a s = .ok (o, s') →
      ∃ o' t', step' a t = .ok (o', t') ∧ R (done ++ [a]) s' t')
    (done : List α) {as : List α} {s s' : σ} {t : τ} (hg : Each step (Completed good) as s)
    (h : run step as s = .ok s') (hs : R done s t) : ∃ t', run step' as t = .ok t' ∧ R (done ++ as) s' t' := by
  induction as generalizing done s t with
  | nil =>
    cases h
    exact ⟨t, rfl, by rwa [List.append_nil]⟩
  | cons a as ih =>
    obtain ⟨o, u, hu, hr⟩ := run_cons_ok h
    obtain ⟨o', v, hv, huv⟩ := hR done a s o u t hs (hg.1 o u hu) hu
    obtain ⟨t', ht', hend⟩ := ih _ (hg.2 o u hu) hr huv
    rw [List.append_assoc, List.singleton_append] at hend
    unfold run
    rw [hv]
    exact ⟨t', ht', hend⟩

theorem run_inputs {I : List α → σ → Prop}
    (hI : ∀ done a s o t, I done s → step a s = .ok (o, t) → I (done ++ [a]) t) (done : List α)
    {as : List α} {s t : σ} (h : run step as s = .ok t) (hs : I done s) : I (done ++ as) t := by
  have hgood : Each step (Completed fun _ _ => True) as s :=
    each_of_inv (I := fun _ => True) (fun _ _ _ _ _ _ => trivial) (fun _ _ _ _ _ _ => trivial) as s trivial
  exact run_history (fun done a s o t hs _ hstep => hI done a s o t hs hstep) done hgood h hs

theorem completes_with {I : List ο → σ → Prop} {good : α → σ → Prop}
    (hstep : ∀ os a s, I os s → good a s → ∃ o t, step a s = .ok (o, t) ∧ I (os ++ [o]) t) (os : List ο)
    {as : List α} {s : σ} (hs : I os s) (hg : Each step (fun a s _ => good a s) as s) :
    ∃ t, run step as s = .ok t ∧ I (os ++ outs step as s) t := by
  induction as generalizing os s with
  | nil => exact ⟨s, rfl, by rwa [outs, List.append_nil]⟩
  | cons a as ih =>
    obtain ⟨o, u, hu, hI⟩ := hstep os a s hs hg.1
    obtain ⟨t, ht, hend⟩ := ih (os ++ [o]) hI (hg.2 o u hu)
    rw [List.append_assoc, List.singleton_append] at hend
    unfold run outs
    rw [hu]
    exact ⟨t, ht, hend⟩

/-- Only the good steps keep `P` and no step restores it, so that it holds at the end exactly when it held
at the start and every step was a good one. -/
theorem last_iff_each {I P : List ο → σ → Prop} {ok good : α → σ → Prop}
    (hI : ∀ os a s o t, I os s → ok a s → step a s = .ok (o, t) → I (os ++ [o]) t)
    (hP : ∀ os a s o t, I os s → ok a s → step a s = .ok (o, t) → (P (os ++ [o]) t ↔ P os s ∧ good a s))
    (os : List ο) {as : List α} {s t : σ} (hok : Each step (fun a s _ => ok a s) as s)
    (h : run step as s = .ok t) (hs : I os s) :
    P (os ++ outs step as s) t ↔ P os s ∧ Each step (fun a s _ => good a s) as s := by
  induction as generalizing os s with
  | nil =>
    cases h
    rw [outs, List.append_nil]
    exact (and_iff_left trivial).symm
  | cons a as ih =>
    obtain ⟨o, u, hu, hr⟩ := run_cons_ok h
    have hrest := ih (os ++ [o]) (hok.2 o u hu) hr (hI os a s o u hs hok.1 hu)
    rw [List.append_assoc, List.singleton_append, hP os a s o u hs hok.1 hu] at hrest
    unfold outs
    rw [hu, hrest, and_assoc]
    refine and_congr_right fun _ => and_congr_right fun _ => ⟨fun hg o' u' hu' => ?_, fun hg => hg o u hu⟩
    rw [hu] at hu'
    cases hu'
    exact hg

theorem run_simulates {I : σ → Prop} (abs : σ → τ) (next : τ → α → τ)
    (hstep : ∀ a s, I s → ∃ o t, step a s = .ok (o, t) ∧ I t ∧ abs t = next (abs s) a)
    (as : List α) (s : σ) (hs : I s) :
    ∃ t, run step as s = .ok t ∧ I t ∧ abs t = as.foldl next (abs s) := by
  induction as generalizing s with
  | nil => exact ⟨s, rfl, hs, rfl⟩
  | cons a as ih =>
    obtain ⟨o, t, ht, hIt, habs⟩ := hstep a s hs
    obtain ⟨u, hu, hIu, hfold⟩ := ih t hIt
    exact ⟨u, by simp only [run, ht, hu], hIu, by rw [hfold, habs, List.foldl_cons]⟩

end ZdcPoc.Run
