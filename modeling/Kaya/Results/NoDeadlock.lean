import Kaya.Support.Draining
import Kaya.Results.Residency

/-!
# No deadlock among the user processes

The pager takes `swapmutex` before the mutex of disk 0, and nobody takes them the other way
round: from every state those who are between P and V come to their V's, and then nobody waits.
-/

namespace Kaya.Support

open Function Linked

variable {n : Nat} {b : Board n} {s s₀ : Sys n} {h : List (Sys n × Event n × Sys n)}

namespace Sys

/-- What urgent steps keep. The counter of `findFrame` stays an index of a frame. -/
structure Goes (b : Board n) (s : Sys n) : Prop where
  standing : s.Standing
  held : s.Held b
  counter : s.nextFrame.toNat + (s.left + 1) < 2 ^ 31

lemma Goes.drains {e : Event n} {s' : Sys n} (hg : s.Goes b) (hd : s.Drains b e s') :
    s'.Goes b := by
  have hmoves := step_moves hd.step
  refine ⟨hmoves.standing hd.offStack hg.standing, hmoves.held hd.spares hg.held, ?_⟩
  have hcounter := hg.counter
  have hleft := hd.left
  rcases hd.nextFrame with hnext | hnext
  · rw [hnext]
    omega
  · have hle : (s.nextFrame + 1).toNat ≤ s.nextFrame.toNat + 1 := by
      rw [BitVec.toNat_add]
      exact Nat.mod_le _ _
    rw [hnext]
    omega

lemma Goes.of_run (h0 : s₀.Fresh)
    (hr : Run (step b) (fun s e => s.Spares e ∧ s.OffStack e) s₀ h s) : s.Standing ∧ s.Held b := by
  induction hr with
  | nil => exact ⟨fresh_standing b h0, fresh_held h0⟩
  | snoc _ he hs ih =>
    exact ⟨(step_moves hs).standing he.2 ih.1, (step_moves hs).held he.1 ih.2⟩

end Sys

/-- In every run in which no process is stopped between a P and the matching V and none accesses
its stack page, the processes between a P and a V of `swapmutex` or disk 0 and the disk itself
can, in at most `15 * n + 1` steps and without any other process, come to a state in which all of
these mutexes are free and nobody waits for any mutex. -/
theorem waiters_let_through (h0 : s₀.Fresh)
    (hr : Run (Sys.step b) (fun s e => s.Spares e ∧ s.OffStack e) s₀ h s)
    (hcount : s.nextFrame.toNat + (15 * n + 2) < 2 ^ 31) :
    ∃ l t, Run (Sys.step b) (Sys.Urgent b) s l t ∧ l.length ≤ 15 * n + 1 ∧
      (∀ m, m = .swapmutex ∨ m = diskMutex → (t.sema4 m).value = 1) ∧ ∀ p, ¬ t.Blocked p := by
  obtain ⟨hstanding, hheld⟩ := Sys.Goes.of_run h0 hr
  have hle := s.left_le
  obtain ⟨l, t, hl, hgoes, hclear, hlen⟩ := exists_run_done (Sys.step b) (Sys.Urgent b) (Sys.Goes b)
    (Sys.Clear b) Sys.left (fun u hu hc => by
      have hcounter := hu.counter
      obtain ⟨e, u', hd⟩ := Sys.exists_drains hu.standing hu.held (by omega) hc
      exact ⟨e, u', hd.urgent, hd.step, hu.drains hd, hd.left⟩)
    (⟨hstanding, hheld, by omega⟩ : s.Goes b)
  refine ⟨l, t, hl, hlen.trans hle, fun m hm => ?_, hgoes.held.not_blocked_of_clear hclear⟩
  rw [(hgoes.held.guards m).value_eq_one_iff]
  rcases hm with rfl | rfl
  · exact fun p => (hclear p).1
  · exact fun p => (hclear p).2

/-- The second process waits for `swapmutex` while the first one brings in a page. -/
theorem waiters_let_through_two : ∃ h s, Run (Sys.step twoProcesses)
    (fun s e => s.Spares e ∧ s.OffStack e) (Sys.blank 2) h s ∧ s.Blocked 1 ∧
      ∃ l t, Run (Sys.step twoProcesses) (Sys.Urgent twoProcesses) s l t ∧ l.length ≤ 31 ∧
        ∀ p, ¬ t.Blocked p := by
  obtain ⟨h, s, hr, hq⟩ := exists_run (Sys.step twoProcesses)
    (fun s e => s.Spares e ∧ s.OffStack e) (Sys.blank 2)
    (faulting 0 0x80000000 ++ faulting 1 0x80001000 ++ [.run 0 (some 0), .run 0 none])
    (fun _ s => s.Blocked 1 ∧ s.nextFrame = 1) (by decide +kernel)
  obtain ⟨hblocked, hnext⟩ := of_decide_eq_true hq
  obtain ⟨l, t, hl, hlen, -, hfree⟩ :=
    waiters_let_through Sys.fresh_blank hr (by rw [hnext]; decide)
  exact ⟨h, s, hr, hblocked, l, t, hl, hlen, hfree⟩

end Kaya.Support
