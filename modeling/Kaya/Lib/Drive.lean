import Mathlib.Logic.Basic

/-!
# Going on to the end

A partial step function is taken as long as something is running. What it ends in is settled by
every state on the way, and so is whether all further states have a property.
-/

namespace Linked

variable {σ : Type*}

/-- From `s` on, `step` leads to `u`, where nothing is running any more. -/
inductive Drives (step : σ → Option σ) (running : σ → Prop) : σ → σ → Prop
  | stop {s : σ} (h : ¬ running s) : Drives step running s s
  | go {s t u : σ} (h : running s) (hs : step s = some t) (hu : Drives step running t u) :
      Drives step running s u

namespace Drives

variable {step : σ → Option σ} {running : σ → Prop} {s t u : σ}

lemma iff_of_step (h : running s) (hs : step s = some t) :
    Drives step running s u ↔ Drives step running t u := by
  constructor
  · intro hu
    cases hu with
    | stop hn => exact absurd h hn
    | go _ hs' hu =>
      obtain rfl := Option.some.inj (hs.symm.trans hs')
      exact hu
  · exact fun hu => .go h hs hu

lemma iff_of_stop (h : ¬ running s) : Drives step running s u ↔ u = s := by
  constructor
  · intro hu
    cases hu with
    | stop => rfl
    | go h' => exact absurd h' h
  · rintro rfl
    exact .stop h

lemma not_of_stuck (h : running s) (hs : step s = none) : ¬ Drives step running s u := by
  intro hu
  cases hu with
  | stop hn => exact hn h
  | go _ hs' =>
    rw [hs] at hs'
    cases hs'

lemma eq (h : Drives step running s t) (h' : Drives step running s u) : t = u := by
  induction h with
  | stop hn => exact ((iff_of_stop hn).mp h').symm
  | go hr hs _ ih => exact ih ((iff_of_step hr hs).mp h')

end Drives

/-- `u` is one of the states that `step` leads to from `s` on. -/
inductive Passes (step : σ → Option σ) (running : σ → Prop) : σ → σ → Prop
  | here (s : σ) : Passes step running s s
  | go {s t u : σ} (h : running s) (hs : step s = some t) (hu : Passes step running t u) :
      Passes step running s u

/-- All states that `step` leads to from `s` on have the property. -/
def Always (step : σ → Option σ) (running P : σ → Prop) (s : σ) : Prop :=
  ∀ t, Passes step running s t → P t

namespace Always

variable {step : σ → Option σ} {running P : σ → Prop} {s t : σ}

lemma iff_of_step (h : running s) (hs : step s = some t) :
    Always step running P s ↔ P s ∧ Always step running P t := by
  constructor
  · intro ha
    exact ⟨ha s (.here s), fun u hu => ha u (.go h hs hu)⟩
  · rintro ⟨hp, ha⟩ u hu
    cases hu with
    | here => exact hp
    | go _ hs' hu =>
      obtain rfl := Option.some.inj (hs.symm.trans hs')
      exact ha u hu

lemma iff_of_stop (h : ¬ running s) : Always step running P s ↔ P s := by
  constructor
  · intro ha
    exact ha s (.here s)
  · intro hp u hu
    cases hu with
    | here => exact hp
    | go h' => exact absurd h' h

end Always

end Linked
