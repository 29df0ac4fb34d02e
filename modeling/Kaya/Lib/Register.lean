import Mathlib.Tactic

/-!
# A counter read through a signed register

A counter is read through a register that holds it modulo `2 * h`, as a signed number, and the
reading is divided by a scale, rounding towards zero. The difference of two such quotients is
compared with the difference of the quotients of the counter.
-/

namespace Linked

/-- How often the register has jumped from `h - 1` to `-h`. -/
def passes (h t : ℤ) : ℤ := (t + h) / (2 * h)

/-- What the register shows. -/
def shown (h t : ℤ) : ℤ := t - 2 * h * passes h t

/-- What is left of the jumps after division by the scale, together with what is left of the
register, makes one more. Below zero it is one less, when the first is not enough for what the
register lacks. -/
def carry (h s t : ℤ) : ℤ :=
  if 0 ≤ shown h t then
    if s ≤ 2 * h * passes h t % s + shown h t % s then 1 else 0
  else
    if 2 * h * passes h t % s < -shown h t % s then -1 else 0

/-- The two quotients differ by as much at `t₀` as at `t₁`: the scale is one, or the register makes
no jump and the carries agree, or the quotients of the jumps make up for the carries. -/
def Agrees (h s t₀ t₁ : ℤ) : Prop :=
  s = 1 ∨ passes h t₀ = passes h t₁ ∧ carry h s t₀ = carry h s t₁ ∨
    carry h s t₀ = 1 ∧ carry h s t₁ = -1 ∧
      2 * h * passes h t₁ / s = 2 * h * passes h t₀ / s + 2

instance (h s t₀ t₁ : ℤ) : Decidable (Agrees h s t₀ t₁) :=
  inferInstanceAs (Decidable (_ ∨ _))

variable {h s t t₀ t₁ : ℤ}

lemma shown_mem (hh : 0 < h) : -h ≤ shown h t ∧ shown h t < h := by
  unfold shown passes
  have hdiv := Int.mul_ediv_add_emod (t + h) (2 * h)
  have hnn := Int.emod_nonneg (t + h) (show 2 * h ≠ 0 by omega)
  have hlt := Int.emod_lt_of_pos (t + h) (show 0 < 2 * h by omega)
  constructor <;> linarith

lemma ediv_eq (hs : 0 < s) :
    t / s = 2 * h * passes h t / s + (shown h t).tdiv s + carry h s t := by
  obtain ⟨x, hx⟩ : ∃ x, x = 2 * h * passes h t := ⟨_, rfl⟩
  obtain ⟨r, hr⟩ : ∃ r, r = shown h t := ⟨_, rfl⟩
  have ht : t = x + r := by
    rw [hx, hr, shown]
    ring
  have hxs := Int.mul_ediv_add_emod x s
  have hx0 := Int.emod_nonneg x hs.ne'
  have hxlt := Int.emod_lt_of_pos x hs
  unfold carry
  rw [← hx, ← hr]
  by_cases h0 : 0 ≤ r
  · rw [if_pos h0, Int.tdiv_eq_ediv_of_nonneg h0]
    have hrs := Int.mul_ediv_add_emod r s
    have hr0 := Int.emod_nonneg r hs.ne'
    have hrlt := Int.emod_lt_of_pos r hs
    split_ifs with hc
    · refine ((Int.ediv_emod_unique hs (r := x % s + r % s - s)).mpr ⟨?_, ?_, ?_⟩).1
      · linarith
      · linarith
      · linarith
    · refine ((Int.ediv_emod_unique hs (r := x % s + r % s)).mpr ⟨?_, ?_, ?_⟩).1
      · linarith
      · linarith
      · linarith
  · have hneg : r.tdiv s = -((-r) / s) := by
      rw [← Int.tdiv_eq_ediv_of_nonneg (by omega), Int.neg_tdiv, neg_neg]
    rw [if_neg h0, hneg]
    have hrs := Int.mul_ediv_add_emod (-r) s
    have hr0 := Int.emod_nonneg (-r) hs.ne'
    have hrlt := Int.emod_lt_of_pos (-r) hs
    split_ifs with hc
    · refine ((Int.ediv_emod_unique hs (r := x % s - -r % s + s)).mpr ⟨?_, ?_, ?_⟩).1
      · linarith
      · linarith
      · linarith
    · refine ((Int.ediv_emod_unique hs (r := x % s - -r % s)).mpr ⟨?_, ?_, ?_⟩).1
      · linarith
      · linarith
      · linarith

lemma carry_mem : carry h s t = -1 ∨ carry h s t = 0 ∨ carry h s t = 1 := by
  unfold carry
  split_ifs <;> simp

lemma carry_one : carry h 1 t = 0 := by
  unfold carry
  split_ifs <;> omega

lemma carry_of_nonneg (h0 : 0 ≤ shown h t) : 0 ≤ carry h s t := by
  unfold carry
  rw [if_pos h0]
  split_ifs <;> omega

lemma carry_of_neg (h0 : shown h t < 0) : carry h s t ≤ 0 := by
  unfold carry
  rw [if_neg (by omega)]
  split_ifs <;> omega

lemma passes_cases (hh : 0 < h) (hle : t₀ ≤ t₁) (hlt : t₁ - t₀ < h) :
    passes h t₁ = passes h t₀ ∨
      passes h t₁ = passes h t₀ + 1 ∧ 0 ≤ shown h t₀ ∧ shown h t₁ < 0 := by
  obtain ⟨hlo₀, hhi₀⟩ := shown_mem (t := t₀) hh
  obtain ⟨hlo₁, hhi₁⟩ := shown_mem (t := t₁) hh
  unfold shown at hlo₀ hhi₀ hlo₁ hhi₁ ⊢
  have hge : passes h t₀ ≤ passes h t₁ :=
    Int.ediv_le_ediv (by omega) (by omega)
  have hup : passes h t₁ ≤ passes h t₀ + 1 := by
    by_contra hgt
    have hgap : passes h t₀ + 2 ≤ passes h t₁ := by omega
    have hmul := mul_le_mul_of_nonneg_left hgap (show 0 ≤ 2 * h by omega)
    linarith
  rcases (show passes h t₁ = passes h t₀ ∨ passes h t₁ = passes h t₀ + 1 by omega) with he | he
  · exact .inl he
  · rw [he] at hlo₁ hhi₁ ⊢
    refine .inr ⟨rfl, ?_, ?_⟩ <;> linarith

lemma ediv_add_two_le (x : ℤ) (hs : 0 < s) (hsh : s < h) : x / s + 2 ≤ (x + 2 * h) / s := by
  rw [← Int.add_mul_ediv_right x 2 hs.ne']
  exact Int.ediv_le_ediv hs (by omega)

lemma ediv_sub_lt (x : ℤ) (hh : 1 < h) (hs : 1 < s) : (x + 2 * h) / s - x / s < 2 * h := by
  have hq₀ := Int.mul_ediv_add_emod x s
  have hq₁ := Int.mul_ediv_add_emod (x + 2 * h) s
  have hm₀ := Int.emod_lt_of_pos x (show 0 < s by omega)
  have hm₁ := Int.emod_nonneg (x + 2 * h) (show s ≠ 0 by omega)
  by_contra hbig
  have hmul := mul_le_mul_of_nonneg_left (show 2 * h ≤ (x + 2 * h) / s - x / s by omega)
    (show 0 ≤ s by omega)
  have htwo := mul_le_mul_of_nonneg_right (show 2 ≤ s by omega) (show 0 ≤ 2 * h - 1 by omega)
  linarith

/-- The two differences are the same number modulo the range of the register exactly if the
quotients agree. -/
theorem sub_tdiv_congr_iff (hh : 1 < h) (hs : 0 < s) (hsh : s < h) (hle : t₀ ≤ t₁)
    (hlt : t₁ - t₀ < h) :
    2 * h ∣ (t₁ / s - t₀ / s) - ((shown h t₁).tdiv s - (shown h t₀).tdiv s) ↔
      Agrees h s t₀ t₁ := by
  have heq : (t₁ / s - t₀ / s) - ((shown h t₁).tdiv s - (shown h t₀).tdiv s) =
      (2 * h * passes h t₁ / s - 2 * h * passes h t₀ / s) + (carry h s t₁ - carry h s t₀) := by
    rw [ediv_eq hs (t := t₀) (h := h), ediv_eq hs (t := t₁) (h := h)]
    ring
  rw [heq]
  unfold Agrees
  rcases passes_cases (by omega) hle hlt with hp | ⟨hp, hr₀, hr₁⟩
  · -- the carries differ by two at most
    rw [hp, sub_self, zero_add]
    have hc₀ := carry_mem (h := h) (s := s) (t := t₀)
    have hc₁ := carry_mem (h := h) (s := s) (t := t₁)
    constructor
    · intro hdvd
      have hzero : carry h s t₁ - carry h s t₀ = 0 := by
        apply Int.eq_zero_of_abs_lt_dvd hdvd
        rw [abs_lt]
        omega
      exact .inr (.inl ⟨rfl, by omega⟩)
    · rintro (rfl | ⟨-, hc⟩ | ⟨-, -, hq⟩)
      · rw [carry_one, carry_one, sub_self]
        exact dvd_zero _
      · rw [hc, sub_self]
        exact dvd_zero _
      · omega
  · have hc₀ := carry_mem (h := h) (s := s) (t := t₀)
    have hc₁ := carry_mem (h := h) (s := s) (t := t₁)
    have hnn := carry_of_nonneg (s := s) hr₀
    have hnp := carry_of_neg (s := s) hr₁
    rw [hp]
    obtain ⟨x, hx⟩ : ∃ x, x = 2 * h * passes h t₀ := ⟨_, rfl⟩
    have hx' : 2 * h * (passes h t₀ + 1) = x + 2 * h := by
      rw [hx]
      ring
    rw [hx', ← hx]
    have hge := ediv_add_two_le x hs hsh
    constructor
    · intro hdvd
      by_cases hs1 : s = 1
      · exact .inl hs1
      · -- with a scale of two or more the difference is too small to be a multiple
        have hup := ediv_sub_lt x hh (show 1 < s by omega)
        have hzero : (x + 2 * h) / s - x / s + (carry h s t₁ - carry h s t₀) = 0 := by
          apply Int.eq_zero_of_abs_lt_dvd hdvd
          rw [abs_lt]
          omega
        exact .inr (.inr (by omega))
    · rintro (rfl | ⟨hpp, -⟩ | ⟨hone, hmone, hq⟩)
      · rw [carry_one, carry_one, Int.ediv_one, Int.ediv_one]
        simp
      · omega
      · rw [hq, hone, hmone]
        ring_nf
        exact dvd_zero _

lemma Agrees.of_lt (hs : 0 < s) (h0 : 0 ≤ t₀) (hle : t₀ ≤ t₁) (hlt : t₁ < h) :
    Agrees h s t₀ t₁ := by
  have hzero : ∀ t, 0 ≤ t → t < h → passes h t = 0 ∧ carry h s t = 0 := by
    intro t ht0 hth
    have hp : passes h t = 0 := Int.ediv_eq_zero_of_lt (by omega) (by omega)
    have hm := Int.emod_lt_of_pos t hs
    refine ⟨hp, ?_⟩
    unfold carry shown
    rw [hp, mul_zero, sub_zero, Int.zero_emod, zero_add, if_pos ht0, if_neg (by omega)]
  obtain ⟨hp₀, hc₀⟩ := hzero t₀ h0 (by omega)
  obtain ⟨hp₁, hc₁⟩ := hzero t₁ (by omega) hlt
  exact .inr (.inl ⟨hp₀.trans hp₁.symm, hc₀.trans hc₁.symm⟩)

/-- A jump is never made up for by the carries, unless the scale is a large part of the range. -/
lemma not_agrees_of_jump (hs : 1 < s) (hsh : 3 * s ≤ 2 * h)
    (hp : passes h t₁ = passes h t₀ + 1) : ¬ Agrees h s t₀ t₁ := by
  rintro (rfl | ⟨hpp, -⟩ | ⟨-, -, hq⟩)
  · omega
  · omega
  · rw [hp] at hq
    obtain ⟨x, hx⟩ : ∃ x, x = 2 * h * passes h t₀ := ⟨_, rfl⟩
    have hx' : 2 * h * (passes h t₀ + 1) = x + 2 * h := by
      rw [hx]
      ring
    rw [hx', ← hx] at hq
    have hge : x / s + 3 ≤ (x + 2 * h) / s := by
      rw [← Int.add_mul_ediv_right x 3 (show s ≠ 0 by omega)]
      exact Int.ediv_le_ediv (by omega) (by omega)
    omega

end Linked
