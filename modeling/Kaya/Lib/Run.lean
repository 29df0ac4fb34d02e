import Mathlib.Data.List.Basic
import Mathlib.Data.List.Induction
import Mathlib.Logic.Basic

/-!
# Runs of a partial step function

A run lists the transitions it took, the oldest first, each with the state before it, the
event and the state after it. Facts about runs are proved by what one transition preserves.
-/

namespace Linked

variable {σ ε τ : Type*}

/-- Transitions of `step` at events that are allowed in the state they happen in. -/
inductive Run (step : σ → ε → Option σ) (ok : σ → ε → Prop) (s : σ) :
    List (σ × ε × σ) → σ → Prop
  | nil : Run step ok s [] s
  | snoc {h : List (σ × ε × σ)} {t t' : σ} {e : ε} : Run step ok s h t → ok t e →
      step t e = some t' → Run step ok s (h ++ [(t, e, t')]) t'

namespace Run

variable {step : σ → ε → Option σ} {ok ok' : σ → ε → Prop} {s t u : σ}
  {h h' : List (σ × ε × σ)}

lemma mono (hr : Run step ok s h t) (hok : ∀ t e, ok t e → ok' t e) : Run step ok' s h t := by
  induction hr with
  | nil => exact .nil
  | snoc _ he hs ih => exact .snoc ih (hok _ _ he) hs

lemma append (hr : Run step ok s h t) (hr' : Run step ok t h' u) :
    Run step ok s (h ++ h') u := by
  induction hr' with
  | nil => simpa using hr
  | snoc _ he hs ih =>
    rw [← List.append_assoc]
    exact .snoc ih he hs

lemma step_of_mem (hr : Run step ok s h t) {x : σ × ε × σ} (hx : x ∈ h) :
    step x.1 x.2.1 = some x.2.2 := by
  induction hr with
  | nil => cases hx
  | snoc _ _ hs ih =>
    rcases List.mem_append.mp hx with hx | hx
    · exact ih hx
    · obtain rfl := List.mem_singleton.mp hx
      exact hs

/-- What is known of the transitions of a run can be asked of its events. -/
lemma strengthen {P : σ → ε → Prop} (hr : Run step ok s h t) (hP : ∀ x ∈ h, P x.1 x.2.1) :
    Run step (fun s e => ok s e ∧ P s e) s h t := by
  induction hr with
  | nil => exact .nil
  | snoc _ he hs ih =>
    refine .snoc (ih fun x hx => hP x (List.mem_append_left _ hx)) ⟨he, ?_⟩ hs
    exact hP _ (List.mem_append_right _ (List.mem_singleton_self _))

lemma of_append (hr : Run step ok s (h ++ h') t) :
    ∃ u, Run step ok s h u ∧ Run step ok u h' t := by
  induction h' using List.reverseRecOn generalizing t with
  | nil => exact ⟨t, by simpa using hr, .nil⟩
  | append_singleton l x ih =>
    rw [← List.append_assoc] at hr
    generalize hl : h ++ l ++ [x] = l' at hr
    cases hr with
    | nil => simp at hl
    | snoc hr he hs =>
      obtain ⟨rfl, hx⟩ := List.append_inj' hl rfl
      obtain rfl := List.singleton_inj.mp hx
      obtain ⟨u, hu, hu'⟩ := ih hr
      exact ⟨u, hu, .snoc hu' he hs⟩

lemma of_nil (hr : Run step ok s [] t) : t = s := by
  generalize hl : [] = l at hr
  cases hr with
  | nil => rfl
  | snoc => simp at hl

lemma of_singleton {x : σ × ε × σ} (hr : Run step ok s [x] t) :
    x = (s, x.2.1, t) ∧ ok s x.2.1 ∧ step s x.2.1 = some t := by
  rw [← List.nil_append [x]] at hr
  generalize hl : [] ++ [x] = l at hr
  cases hr with
  | nil => simp at hl
  | snoc hr he hs =>
    obtain ⟨rfl, hx⟩ := List.append_inj' hl rfl
    obtain rfl := List.singleton_inj.mp hx
    obtain rfl := hr.of_nil
    exact ⟨rfl, he, hs⟩

lemma exists_fst_eq (hr : Run step ok s h t) (hne : h ≠ []) : ∃ x ∈ h, x.1 = s := by
  induction hr with
  | nil => exact absurd rfl hne
  | @snoc h t t' e hr _ _ ih =>
    by_cases hh : h = []
    · subst hh
      obtain rfl := hr.of_nil
      exact ⟨(t, e, t'), by simp, rfl⟩
    · obtain ⟨x, hx, hs⟩ := ih hh
      exact ⟨x, List.mem_append_left _ hx, hs⟩

/-- A relation to an abstract state and the history, kept by every transition, holds at the
end of every run. -/
lemma simulate {I : List (σ × ε × σ) → σ → τ → Prop} (hr : Run step ok s h t)
    (h0 : ∃ a, I [] s a)
    (hs : ∀ h t e t' a, I h t a → ok t e → step t e = some t' → ∃ a', I (h ++ [(t, e, t')]) t' a') :
    ∃ a, I h t a := by
  induction hr with
  | nil => exact h0
  | snoc _ he hst ih =>
    obtain ⟨a, ha⟩ := ih
    exact hs _ _ _ _ _ ha he hst

end Run

/-- Taking the events one after the other, as far as they are allowed: the transitions and
the last state. -/
def trace (step : σ → ε → Option σ) (ok : σ → ε → Prop) [∀ t e, Decidable (ok t e)] :
    List ε → σ → Option (List (σ × ε × σ) × σ)
  | [], s => some ([], s)
  | e :: es, s =>
    if ok s e then
      (step s e).bind fun t => (trace step ok es t).map fun r => ((s, e, t) :: r.1, r.2)
    else none

lemma trace_run {step : σ → ε → Option σ} {ok : σ → ε → Prop} [∀ t e, Decidable (ok t e)]
    {es : List ε} {s t : σ} {h : List (σ × ε × σ)} (ht : trace step ok es s = some (h, t)) :
    Run step ok s h t := by
  induction es generalizing s h with
  | nil =>
    rw [trace] at ht
    obtain ⟨rfl, rfl⟩ := Prod.mk.inj (Option.some.inj ht)
    exact .nil
  | cons e es ih =>
    rw [trace] at ht
    split at ht
    · rename_i he
      obtain ⟨u, hu, ht⟩ := Option.bind_eq_some_iff.mp ht
      obtain ⟨⟨l, v⟩, hl, ht⟩ := Option.map_eq_some_iff.mp ht
      obtain ⟨rfl, rfl⟩ := Prod.mk.inj ht
      exact (Run.snoc .nil he hu).append (ih hl)
    · contradiction

lemma exists_run (step : σ → ε → Option σ) (ok : σ → ε → Prop) [∀ t e, Decidable (ok t e)]
    (s : σ) (es : List ε) (q : List (σ × ε × σ) → σ → Bool)
    (hq : ((trace step ok es s).any fun r => q r.1 r.2) = true) :
    ∃ h t, Run step ok s h t ∧ q h t = true := by
  obtain ⟨⟨h, t⟩, ht, hq⟩ := (Option.any_eq_true _ _).mp hq
  exact ⟨h, t, trace_run ht, hq⟩

/-- Finding a run up to an event and another one from there. -/
lemma exists_run_around (step : σ → ε → Option σ) (ok ok' : σ → ε → Prop)
    [∀ t e, Decidable (ok t e)] [∀ t e, Decidable (ok' t e)] (s : σ) (es : List ε) (e : ε)
    (es' : List ε) (q : List (σ × ε × σ) → List (σ × ε × σ) → σ → Bool)
    (hq : ((trace step ok es s).bind fun r => (step r.2 e).bind fun t =>
      (trace step ok' es' t).map fun r' => q r.1 r'.1 r'.2) = some true) :
    ∃ h t t' h' u, Run step ok s h t ∧ step t e = some t' ∧ Run step ok' t' h' u ∧
      q h h' u = true := by
  obtain ⟨⟨h, t⟩, ht, hq⟩ := Option.bind_eq_some_iff.mp hq
  obtain ⟨t', hstep, hq⟩ := Option.bind_eq_some_iff.mp hq
  obtain ⟨⟨h', u⟩, hu, hq⟩ := Option.map_eq_some_iff.mp hq
  exact ⟨h, t, t', h', u, trace_run ht, hstep, trace_run hu, hq⟩

end Linked
