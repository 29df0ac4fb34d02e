import Mathlib.Logic.Function.Basic
import Mathlib.Tactic

/-!
# Frames and the pages in them

A pool of frames says for each frame which page it has, and a table says for each page where it
is. The two agree except for the frames that are being refilled.
-/

namespace Linked

open Function

variable {F U A : Type*}

/-- A page is where a frame that is not busy has it. -/
def Mirrors (addr : F → A) (busy : F → Prop) (page : F → Option U) (place : U → Option A) : Prop :=
  ∀ u a, place u = some a ↔ ∃ f, ¬ busy f ∧ page f = some u ∧ addr f = a

namespace Mirrors

variable {addr : F → A} {busy busy' : F → Prop} {page : F → Option U} {place : U → Option A}
  {f g : F} {u v : U} {a : A}

lemma empty (hpage : ∀ f, page f = none) (hplace : ∀ u, place u = none) :
    Mirrors addr busy page place := by
  intro u a
  simp [hpage, hplace]

lemma congr (h : Mirrors addr busy page place) (hb : ∀ f, busy' f ↔ busy f) :
    Mirrors addr busy' page place := by
  intro u a
  simp only [hb]
  exact h u a

lemma place_eq (h : Mirrors addr busy page place) (hb : ¬ busy f) (hp : page f = some u) :
    place u = some (addr f) :=
  (h u _).mpr ⟨f, hb, hp, rfl⟩

lemma unique (h : Mirrors addr busy page place) (hinj : Injective addr) (hf : ¬ busy f)
    (hpf : page f = some u) (hg : ¬ busy g) (hpg : page g = some u) : f = g := by
  have haddr := (h.place_eq hf hpf).symm.trans (h.place_eq hg hpg)
  exact hinj (Option.some.inj haddr)

lemma take (h : Mirrors addr busy page place) (hp : page f = none)
    (hb : ∀ g, busy' g ↔ g = f ∨ busy g) : Mirrors addr busy' page place := by
  intro u a
  rw [h u a]
  constructor
  · rintro ⟨g, hg, hpg, ha⟩
    refine ⟨g, fun hbusy => ?_, hpg, ha⟩
    rcases (hb g).mp hbusy with rfl | hbusy
    · rw [hp] at hpg
      cases hpg
    · exact hg hbusy
  · rintro ⟨g, hg, hpg, ha⟩
    exact ⟨g, fun hbusy => hg ((hb g).mpr (.inr hbusy)), hpg, ha⟩

lemma evict [DecidableEq U] (h : Mirrors addr busy page place) (hinj : Injective addr)
    (hf : ¬ busy f) (hp : page f = some u) (hb : ∀ g, busy' g ↔ g = f ∨ busy g) :
    Mirrors addr busy' page (update place u none) := by
  intro v a
  by_cases hv : v = u
  · subst hv
    rw [update_self]
    constructor
    · intro hn
      cases hn
    · rintro ⟨g, hg, hpg, -⟩
      have hfree : ¬ busy g := fun hbusy => hg ((hb g).mpr (.inr hbusy))
      exact absurd ((hb g).mpr (.inl (h.unique hinj hfree hpg hf hp))) hg
  · rw [update_of_ne hv, h v a]
    constructor
    · rintro ⟨g, hg, hpg, ha⟩
      refine ⟨g, fun hbusy => ?_, hpg, ha⟩
      rcases (hb g).mp hbusy with rfl | hbusy
      · rw [hp] at hpg
        exact hv (Option.some.inj hpg).symm
      · exact hg hbusy
    · rintro ⟨g, hg, hpg, ha⟩
      exact ⟨g, fun hbusy => hg ((hb g).mpr (.inr hbusy)), hpg, ha⟩

variable [DecidableEq F]

/-- A page that was nowhere is put into a frame. -/
lemma install [DecidableEq U] (h : Mirrors addr busy page place) (hf : busy f)
    (hu : place u = none) (hb : ∀ g, busy' g ↔ g ≠ f ∧ busy g) :
    Mirrors addr busy' (update page f (some u)) (update place u (some (addr f))) := by
  have hfree : ∀ g, ¬ busy' g ↔ g = f ∨ ¬ busy g := fun g => by
    rw [hb g]
    tauto
  intro v a
  by_cases hv : v = u
  · subst hv
    rw [update_self]
    constructor
    · intro ha
      exact ⟨f, (hfree f).mpr (.inl rfl), update_self _ _ _, Option.some.inj ha⟩
    · rintro ⟨g, hg, hpg, rfl⟩
      rcases (hfree g).mp hg with rfl | hg
      · rfl
      · have hgf : g ≠ f := fun he => hg (he ▸ hf)
        rw [update_of_ne hgf] at hpg
        have hplace := h.place_eq hg hpg
        rw [hu] at hplace
        cases hplace
  · rw [update_of_ne hv, h v a]
    constructor
    · rintro ⟨g, hg, hpg, ha⟩
      have hgf : g ≠ f := fun he => hg (he ▸ hf)
      exact ⟨g, (hfree g).mpr (.inr hg), by rwa [update_of_ne hgf], ha⟩
    · rintro ⟨g, hg, hpg, ha⟩
      by_cases hgf : g = f
      · subst hgf
        rw [update_self] at hpg
        exact absurd (Option.some.inj hpg).symm hv
      · rw [update_of_ne hgf] at hpg
        exact ⟨g, ((hfree g).mp hg).resolve_left hgf, hpg, ha⟩

lemma release (h : Mirrors addr busy page place) (hf : busy f)
    (hb : ∀ g, busy' g ↔ g ≠ f ∧ busy g) : Mirrors addr busy' (update page f none) place := by
  intro u a
  rw [h u a]
  constructor
  · rintro ⟨g, hg, hpg, ha⟩
    have hgf : g ≠ f := fun he => hg (he ▸ hf)
    exact ⟨g, fun hbusy => hg ((hb g).mp hbusy).2, by rwa [update_of_ne hgf], ha⟩
  · rintro ⟨g, hg, hpg, ha⟩
    have hgf : g ≠ f := by
      rintro rfl
      rw [update_self] at hpg
      cases hpg
    rw [update_of_ne hgf] at hpg
    exact ⟨g, fun hbusy => hg ((hb g).mpr ⟨hgf, hbusy⟩), hpg, ha⟩

end Mirrors

end Linked
