import Kaya.Results.Programs

/-!
# Isolation

Whatever the user processes do, only the frames of the swap pool and the tape buffers change, so
neither the nucleus nor the support level is overwritten. While the swap pool is consistent, every
access of a process goes to a frame that holds the page it names, the process's own or a shared
one.
-/

namespace Kaya.Support

open Function Linked

variable {n : Nat} {b : Board n} {p : Fin n}

/-- What memory outside the swap pool has become since `x₀`. -/
structure Station.Guarded (b : Board n) (x x₀ : Station n) : Prop where
  confined : x.sys.Confined b
  safe : x.sys.DiskSafe b
  outside : ∀ a, (∀ f, a ≠ b.getFrameAddr f) → (∀ p : Fin n, a ≠ getTapeBufferAddr p) →
    x.sys.ram a = x₀.sys.ram a
  buffer : ∀ p : Fin n, ∃ l, (x₀.tape p).blocks = l ++ (x.tape p).blocks ∧
    x.sys.ram (getTapeBufferAddr p) = l.getLast?.getD (x₀.sys.ram (getTapeBufferAddr p))

namespace Station.Guarded

variable {x₀ x y : Station n} {e : Event n}

lemma fresh (b : Board n) (h0 : x₀.sys.Fresh) : x₀.Guarded b x₀ :=
  ⟨Sys.fresh_confined b h0, Sys.fresh_diskSafe h0, fun _ _ _ => rfl, fun _ => ⟨[], rfl, rfl⟩⟩

lemma deliver (h : x.Guarded b x₀) (hy : x.deliver e = some y) : y.Guarded b x₀ := by
  rcases Station.deliver_cases hy with rfl | ⟨q, input, block, t, rfl, hread, rfl⟩
  · exact h
  refine ⟨h.confined.same rfl rfl fun x hx => .inl hx, h.safe, fun a hpool hbuffer => ?_,
    fun p => ?_⟩
  · dsimp only
    rw [update_of_ne (hbuffer q)]
    exact h.outside a hpool hbuffer
  · obtain ⟨l, htape, hram⟩ := h.buffer p
    dsimp only
    by_cases hp : p = q
    · subst hp
      refine ⟨l ++ [block], ?_, ?_⟩
      · rw [update_self, htape, Tape.blocks_of_readBlk hread, List.append_assoc]
        rfl
      · rw [update_self, List.getLast?_concat, Option.getD_some]
    · have hne := mt (getTapeBufferAddr_inj b.procCnt_le) hp
      refine ⟨l, ?_, ?_⟩
      · rw [update_of_ne hp, htape]
      · rw [update_of_ne hne, hram]

/-- Nothing else changes outside the swap pool. -/
lemma step (h : x.Guarded b x₀) (hb : b.HoldsBuffers) (hs : x.step b e = some y) :
    y.Guarded b x₀ := by
  obtain ⟨z, hz, hstep, htape⟩ := Station.step_cases hs
  have hg := h.deliver hz
  have hm := Sys.step_moves hstep
  refine ⟨hm.confined hg.confined, hm.diskSafe hg.safe, fun a hpool hbuffer => ?_, fun p => ?_⟩
  · exact (hm.ram_eq hg.confined hg.safe hpool).trans (hg.outside a hpool hbuffer)
  · rw [htape, hm.ram_eq hg.confined hg.safe (hb.ne_frame p)]
    exact hg.buffer p

end Station.Guarded

end Kaya.Support
