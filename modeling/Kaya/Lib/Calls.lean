import Mathlib.Data.List.Infix
import Mathlib.Logic.Basic

/-!
# Calls on an object

An object answers calls one after the other, and may fail to answer. Its specification
answers every call, and admits some of them in each state. An object that simulates its
specification on admitted calls gives the answers of the specification to every admitted
sequence.
-/

namespace Linked

variable {σ τ ι ο : Type*}

/-- The answers to the calls `is`, made in this order, and the state they leave. -/
def calls (step : σ → ι → Option (ο × σ)) : List ι → σ → Option (List ο × σ)
  | [], s => some ([], s)
  | i :: is, s => do
    let (o, s) ← step s i
    let (os, s) ← calls step is s
    return (o :: os, s)

lemma calls_append {step : σ → ι → Option (ο × σ)} {is js : List ι} {s t : σ} {os : List ο}
    (h : calls step is s = some (os, t)) :
    calls step (is ++ js) s = (calls step js t).map fun r => (os ++ r.1, r.2) := by
  induction is generalizing s os with
  | nil =>
    obtain ⟨rfl, rfl⟩ := Prod.mk.inj (Option.some.inj h)
    simp
  | cons i is ih =>
    simp only [calls, Option.bind_eq_bind, Option.bind_eq_some_iff, Prod.exists] at h
    obtain ⟨o, u, hi, os', v, his, h⟩ := h
    obtain ⟨rfl, rfl⟩ := Prod.mk.inj (Option.some.inj h)
    simp only [List.cons_append, calls, hi, Option.bind_eq_bind, Option.bind_some, ih his]
    cases calls step js v <;> rfl

lemma calls_snoc {step : σ → ι → Option (ο × σ)} {is : List ι} {i : ι} {s t : σ} {os : List ο}
    (h : calls step is s = some (os, t)) :
    calls step (is ++ [i]) s = (step t i).map fun r => (os ++ [r.1], r.2) := by
  rw [calls_append h]
  simp only [calls, Option.bind_eq_bind]
  cases step t i <;> rfl

/-- What calls on an object should answer and when they may be made. -/
structure Spec (τ ι ο : Type*) where
  step : τ → ι → ο × τ
  ok : τ → ι → Prop

namespace Spec

variable (S : Spec τ ι ο)

def after (is : List ι) (a : τ) : τ := is.foldl (fun a i => (S.step a i).2) a

def answers : List ι → τ → List ο
  | [], _ => []
  | i :: is, a => (S.step a i).1 :: answers is (S.step a i).2

/-- Every call is admitted in the state the calls before it leave. -/
def Admits : List ι → τ → Prop
  | [], _ => True
  | i :: is, a => S.ok a i ∧ Admits is (S.step a i).2

variable {S} {is js : List ι} {i : ι} {a : τ}

@[simp] lemma after_nil : S.after [] a = a := rfl

@[simp] lemma after_cons : S.after (i :: is) a = S.after is (S.step a i).2 := rfl

@[simp] lemma after_snoc : S.after (is ++ [i]) a = (S.step (S.after is a) i).2 := by
  simp [after]

lemma answers_snoc : S.answers (is ++ [i]) a = S.answers is a ++ [(S.step (S.after is a) i).1] := by
  induction is generalizing a with
  | nil => rfl
  | cons j is ih => simp [answers, ih]

lemma admits_append : S.Admits (is ++ js) a ↔ S.Admits is a ∧ S.Admits js (S.after is a) := by
  induction is generalizing a with
  | nil => simp [Admits]
  | cons j is ih => simp [Admits, ih, and_assoc]

lemma admits_snoc : S.Admits (is ++ [i]) a ↔ S.Admits is a ∧ S.ok (S.after is a) i := by
  rw [admits_append]
  simp [Admits]

/-- An object that answers one admitted call as specified, and stays related to the
specification, answers all of them as specified. -/
lemma calls_eq (step : σ → ι → Option (ο × σ)) {R : σ → τ → Prop} {s : σ}
    (hstep : ∀ s a i, R s a → S.ok a i → ∃ s', step s i = some ((S.step a i).1, s') ∧
      R s' (S.step a i).2) (hR : R s a) (hok : S.Admits is a) :
    ∃ s', calls step is s = some (S.answers is a, s') ∧ R s' (S.after is a) := by
  induction is generalizing s a with
  | nil => exact ⟨s, rfl, hR⟩
  | cons i is ih =>
    obtain ⟨hi, his⟩ := hok
    obtain ⟨u, hu, hRu⟩ := hstep s a i hR hi
    obtain ⟨s', hs', hR'⟩ := ih hRu his
    refine ⟨s', ?_, hR'⟩
    simp [calls, hu, hs', answers]

end Spec

end Linked
