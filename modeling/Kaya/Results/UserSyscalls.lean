import Kaya.Results.PassUp
import Kaya.Support.Answers

/-!
# Where a user-level syscall returns to

The nucleus advances the program counter of a syscall that it passes up, and `UserSyscallHandler`
advances it once more.
-/

namespace Kaya.Support

open Function Linked

/-- The two ways in which the syscall of a process in the state `st` is to end: the process is
terminated, or it goes on behind the SYSCALL instruction, with the registers but `v0` as they
were. -/
def Ending.Proper (st : State) : Ending → Prop
  | .terminated => True
  | .reloaded st' => st'.sPc = st.sPc + 4 ∧ ∀ r, r ≠ 1 → st'.sReg r = st.sReg r
  | .returned => False

variable {m : Machine} {k : Kernel} {p : PcbIx} {w : Areas} {st : State} {turns : Nat → Turn}
  {tod : Word}

lemma raised_of_le (h9 : 9 ≤ st.sA0) :
    raised (.syscall st) = some (syscallException, st.advancePc) := by
  refine if_neg fun h => ?_
  have hle : (9 : Word) ≤ 8 := BitVec.le_trans h9 h.2
  exact absurd hle (by decide)

lemma proper_iff_terminated {fuel : Nat} {e : Ending}
    (h : (userSyscallHandler st.advancePc).handles tod turns fuel = some e) :
    e.Proper st ↔ e = .terminated := by
  cases e with
  | terminated => exact iff_of_true trivial rfl
  | returned => exact iff_of_false not_false (by simp)
  | reloaded st' =>
    refine iff_of_false (fun hp => ?_) (by simp)
    have hpc := (handles_reloaded h).symm.trans hp.1
    change st.sPc + wordLen + wordLen = st.sPc + 4 at hpc
    rw [BitVec.add_assoc] at hpc
    have h8 : (wordLen + wordLen : Word) = 4 := (BitVec.add_right_inj st.sPc).mp hpc
    exact absurd h8 (by decide)

lemma handles_proper_iff :
    (∃ fuel e, (userSyscallHandler st.advancePc).handles tod turns fuel = some e ∧ e.Proper st) ↔
      EndsProcess st turns := by
  have hiff : EndsProcess st.advancePc turns ↔ EndsProcess st turns := Iff.rfl
  rw [← hiff, ← handles_terminated_iff tod]
  constructor
  · rintro ⟨fuel, e, he, hp⟩
    rw [(proper_iff_terminated he).mp hp] at he
    exact ⟨fuel, he⟩
  · rintro ⟨fuel, he⟩
    exact ⟨fuel, _, he, trivial⟩

/-- Among the other processes, too, a process whose syscall has been handled goes on two
instructions behind it. -/
theorem Sys.pc_after_syscall {n : Nat} {b : Board n} {s s' t : Sys n} {p : Fin n} {st' : State}
    {h : List (Sys n × Event n × Sys n)} (hs : s.step b (.syscall p st) = some s')
    (hr : Run (Sys.step b) (fun _ e => e.Awaits p) s' h t) (hc : t.control p = .user st') :
    st'.sPc = st.sPc + 8 := by
  have hservice : s'.control p = .service st.advancePc := by
    unfold Sys.step at hs
    dsimp only at hs
    split_ifs at hs
    obtain rfl := Option.some.inj hs
    exact Sys.goto_control_self _ _ _
  have hanswers := Sys.answers_of_run hservice hr
  rw [hc] at hanswers
  obtain ⟨tod, turns, fuel, hend⟩ := hanswers
  rw [handles_reloaded hend]
  change st.sPc + wordLen + wordLen = _
  rw [BitVec.add_assoc]
  rfl

/-- A syscall from 9 on of a process with the vector `w`: the nucleus loads the state in the new
area, and what `UserSyscallHandler` then makes of the state in the old area is a proper end of the
syscall exactly if the handler answers the call with SYS18. -/
theorem user_syscall_proper_iff (hc : k.currentProcess = some p)
    (hw : k.procs.areas p syscallException = w) (hs : w.Sound) (h9 : 9 ≤ st.sA0) (tod : Word)
    (turns : Nat → Turn) : ∃ k', step m k (.syscall st) = some k' ∧
      k'.cpu = .running (k.states w.new) ∧
      ((∃ fuel e, (userSyscallHandler (k'.states w.old)).handles tod turns fuel = some e ∧
        e.Proper st) ↔ EndsProcess st turns) := by
  obtain ⟨oldArea, hstep⟩ := passesUp_of_sound (m := m) hc (raised_of_le h9) hw hs
  refine ⟨_, hstep, rfl, ?_⟩
  have hold : update k.states w.old st.advancePc w.old = st.advancePc := update_self _ _ _
  dsimp only
  rw [hold]
  exact handles_proper_iff

/-- The vector of the initial process in what follows. -/
def handlerAreas : Areas := ⟨0x20030000, 0x20040000⟩

lemma exists_vector : ∃ h k, Reaches demo (fun _ e => Specifies e) blankKernel h k ∧
    k.currentProcess = some 0 ∧ k.procs.areas 0 syscallException = handlerAreas := by
  obtain ⟨h, k, hr, hq⟩ := exists_reaches (P := fun _ e => Specifies e) demo blankKernel
    (fun k e => Deliverable demo k e ∧ Specifies e) [sys 5 2 0x20030000 0x20040000]
    (fun _ k => k.currentProcess = some 0 ∧ k.procs.areas 0 syscallException = handlerAreas)
    (fun _ _ hok => hok) (by decide +kernel)
  exact ⟨h, k, hr, of_decide_eq_true hq⟩

def callState (a0 : Word) : State := { zeroState with sReg := update zeroState.sReg 3 a0 }

/-- SYS18. -/
theorem user_syscall_proper_terminate : ∃ h k k',
    Reaches demo (fun _ e => Specifies e) blankKernel h k ∧
    step demo k (.syscall (callState 18)) = some k' ∧ ∃ fuel e,
      (userSyscallHandler (k'.states 0x20030000)).handles 0 (fun _ => ⟨none, none, 0⟩) fuel =
        some e ∧ e.Proper (callState 18) := by
  obtain ⟨h, k, hr, hc, hw⟩ := exists_vector
  have h9 : 9 ≤ (callState 18).sA0 := by decide
  obtain ⟨k', hstep, -, hiff⟩ := user_syscall_proper_iff (m := demo) hc hw (by decide) h9 0
    fun _ => ⟨none, none, 0⟩
  exact ⟨h, k, k', hr, hstep, hiff.mpr (.inl (by decide))⟩

/-- SYS17. -/
theorem getTod_skips_instruction : ¬ ∀ h k (p : PcbIx) (w : Areas) (st : State) (tod : Word)
    (turns : Nat → Turn), Reaches demo (fun _ e => Specifies e) blankKernel h k →
      k.currentProcess = some p → k.procs.areas p syscallException = w → w.Sound → 9 ≤ st.sA0 →
        ∃ k', step demo k (.syscall st) = some k' ∧ ∃ fuel e,
          (userSyscallHandler (k'.states w.old)).handles tod turns fuel = some e ∧ e.Proper st := by
  intro hall
  obtain ⟨h, k, hr, hc, hw⟩ := exists_vector
  have h9 : 9 ≤ (callState 17).sA0 := by decide
  obtain ⟨k', hstep, hproper⟩ := hall h k 0 _ (callState 17) 0 (fun _ => ⟨none, none, 0⟩) hr hc hw
    (by decide) h9
  obtain ⟨oldArea, hpasses⟩ := passesUp_of_sound (m := demo) hc (raised_of_le h9) hw (by decide)
  obtain rfl := Option.some.inj (hstep.symm.trans hpasses)
  have hold : update k.states handlerAreas.old (callState 17).advancePc handlerAreas.old =
    (callState 17).advancePc := update_self _ _ _
  dsimp only at hproper
  rw [hold] at hproper
  rcases handles_proper_iff.mp hproper with ⟨-, -, -, h17⟩ | ⟨h10, -⟩
  · exact h17 (by decide)
  · exact absurd h10 (by decide)

end Kaya.Support
