import Kaya.Results.FlatMemory
import Kaya.Support.Holding

/-!
# Mutexes of dead processes

The P's and V's of a process are counted over the history of the run. They are even when the
process comes to its end, unless an illegal address has stopped it between the two.
-/

namespace Kaya.Support

open Function Linked

variable {n : Nat} {b : Board n} {s s₀ : Sys n} {h : List (Sys n × Event n × Sys n)} {p : Fin n}
  {m : Sem}

/-- How many P's of the process on the mutex there have been. -/
def passerens (p : Fin n) (m : Sem) (h : List (Sys n × Event n × Sys n)) : Nat :=
  h.countP fun x => x.2.1.Acts p ∧ (x.2.2.sema4 m).value < (x.1.sema4 m).value

/-- How many V's of the process on the mutex there have been. -/
def verhogens (p : Fin n) (m : Sem) (h : List (Sys n × Event n × Sys n)) : Nat :=
  h.countP fun x => x.2.1.Acts p ∧ (x.1.sema4 m).value < (x.2.2.sema4 m).value

namespace Sys

lemma Held.run (h0 : s₀.Fresh) (hr : Run (Sys.step b) Spares s₀ h s) : s.Held b := by
  induction hr with
  | nil => exact fresh_held h0
  | snoc _ he hs ih => exact (step_moves hs).held he ih

lemma passerens_eq (h0 : s₀.Fresh) (hr : Run (Sys.step b) Spares s₀ h s) (p : Fin n) (m : Sem) :
    passerens p m h = verhogens p m h + if s.Inside b p m then 1 else 0 := by
  induction hr with
  | nil =>
    have hout : ¬ s₀.Inside b p m := by
      unfold Inside
      rw [h0.control]
      simp [Control.Holds, Control.InSwap, Control.io, Control.InPrint]
    rw [if_neg hout]
    rfl
  | @snoc h t t' e hr he hs ih =>
    have hlocking := (step_moves hs).locking he (Held.run h0 hr).serves
    have hbalance := hlocking.balance Event.Acts.unique p m
    unfold passerens verhogens at ih ⊢
    rw [List.countP_append, List.countP_append, List.countP_singleton, List.countP_singleton]
    simp only [decide_eq_true_eq]
    omega

end Sys

/-- In every run in which no process is stopped by an illegal address while it has a mutex: the
P's of a process that is on the way to its SYS2, or has done it, are matched by its V's, and whoever
waits for a mutex waits for a process that goes on. -/
theorem dead_holds_no_mutex (h0 : s₀.Fresh) (hr : Run (Sys.step b) Sys.Spares s₀ h s) :
    (∀ p, (s.control p).Over → ∀ m, passerens p m h = verhogens p m h) ∧
    ∀ m, ∀ q ∈ (s.sema4 m).waiters, ∃ p ∉ (s.sema4 m).waiters,
      passerens p m h = verhogens p m h + 1 ∧ ¬ (s.control p).Over := by
  refine ⟨fun p hp m => ?_, fun m q hq => ?_⟩
  · have heq := Sys.passerens_eq h0 hr p m
    rwa [if_neg (show ¬ s.Inside b p m from hp.not_holds m)] at heq
  · have hguards := (Sys.Held.run h0 hr).guards m
    obtain ⟨p, hp, hw⟩ := hguards.exists_first (hguards.of_mem_waiters hq)
    have heq := Sys.passerens_eq h0 hr p m
    rw [if_pos hp] at heq
    exact ⟨p, hw, heq, fun hover => hover.not_holds m hp⟩

def Sys.IsDead (s : Sys n) (p : Fin n) : Bool :=
  match s.control p with
  | .dead => true
  | _ => false

lemma Sys.control_of_isDead (hd : s.IsDead p = true) : s.control p = .dead := by
  unfold IsDead at hd
  split at hd
  · assumption
  · cases hd

/-- A process reads a page and traps. -/
theorem dead_holds_no_mutex_trap : ∃ h s, Run (Sys.step twoProcesses) Sys.Spares (Sys.blank 2) h s ∧
    s.control 0 = .dead ∧ passerens 0 .swapmutex h = 1 ∧ verhogens 0 .swapmutex h = 1 := by
  obtain ⟨h, s, hr, hq⟩ := exists_run (Sys.step twoProcesses) Sys.Spares (Sys.blank 2)
    ([.run 0 (some 0), .run 0 none] ++ reading 0 0x80000000 false ++
      [.trap 0, .run 0 none, .run 0 none])
    (fun h s => s.IsDead 0 ∧ passerens 0 .swapmutex h = 1) (by decide +kernel)
  obtain ⟨hdead, hp⟩ := of_decide_eq_true hq
  have hcontrol := Sys.control_of_isDead hdead
  exact ⟨h, s, hr, hcontrol, hp,
    ((dead_holds_no_mutex Sys.fresh_blank hr).1 0 (by rw [hcontrol]; trivial)
      .swapmutex).symm.trans hp⟩

/-- A process writes a string behind the last page of its page table to the terminal. -/
theorem dead_holds_terminal : ¬ ∀ (s₀ s : Sys 2) (h : List (Sys 2 × Event 2 × Sys 2)), s₀.Fresh →
    Run (Sys.step twoProcesses) (fun _ _ => True) s₀ h s →
      ∀ p, (s.control p).Over → ∀ m, passerens p m h = verhogens p m h := by
  intro hall
  obtain ⟨h, s, hr, hq⟩ := exists_run (Sys.step twoProcesses) (fun _ _ => True) (Sys.blank 2)
    [.run 0 (some 0), .run 0 none,
      .syscall 0 ⟨0, 0, 0, 0, fun i => if i = 3 then 10 else if i = 4 then 0x80020000 else 1⟩,
      .run 0 (some 0), .run 0 none, .run 0 none, .run 0 none, .run 0 none]
    (fun h s => s.IsDead 0 ∧ passerens 0 (terminalMutex (0 : Fin 2)) h = 1 ∧
      verhogens 0 (terminalMutex (0 : Fin 2)) h = 0) (by decide +kernel)
  obtain ⟨hdead, hp, hv⟩ := of_decide_eq_true hq
  have hcontrol := Sys.control_of_isDead hdead
  have heq := hall _ _ _ Sys.fresh_blank hr 0 (by rw [hcontrol]; trivial)
    (terminalMutex (0 : Fin 2))
  rw [hp, hv] at heq
  cases heq

end Kaya.Support
