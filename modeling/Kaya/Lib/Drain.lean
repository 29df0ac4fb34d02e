import Kaya.Lib.Run

/-!
# Running down

When every state that is not done has a transition that makes a number smaller, some run comes
to a state that is done, in no more transitions than the number allows.
-/

namespace Linked

variable {σ ε : Type*} {s : σ}

/-- The invariant `I` may speak of what is left to do. -/
theorem exists_run_done (step : σ → ε → Option σ) (ok : σ → ε → Prop) (I done : σ → Prop)
    (left : σ → Nat)
    (hgo : ∀ s, I s → ¬ done s → ∃ e t, ok s e ∧ step s e = some t ∧ I t ∧ left t < left s)
    (hs : I s) : ∃ h t, Run step ok s h t ∧ I t ∧ done t ∧ h.length ≤ left s := by
  induction hl : left s using Nat.strongRecOn generalizing s with
  | _ l ih =>
    by_cases hd : done s
    · exact ⟨[], s, .nil, hs, hd, Nat.zero_le l⟩
    · obtain ⟨e, t, he, hst, ht, hlt⟩ := hgo s hs hd
      obtain ⟨h, u, hr, hu, hdu, hlen⟩ := ih (left t) (hl ▸ hlt) ht rfl
      refine ⟨[(s, e, t)] ++ h, u, (Run.snoc .nil he hst).append hr, hu, hdu, ?_⟩
      rw [List.length_append, List.length_singleton]
      omega

end Linked
