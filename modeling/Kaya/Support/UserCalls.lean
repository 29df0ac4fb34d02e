import Kaya.Support.SysSupport

/-!
# A user-level syscall to its end

`UserSyscallHandler` with its service functions, given what it finds at the turns of the loop of
`WriteToTerminal`.
-/

namespace Kaya.Support

/-- What a turn of the loop finds: the character for the condition and the character that is
transmitted, with `none` for an address that cannot be read, at which the handler of the exception
asks for SYS18, and the status of the terminal. -/
structure Turn where
  test : Option Word
  send : Option Word
  status : Word

namespace Turn

/-- The loop goes on with the next character. -/
def Goes (t : Turn) : Prop :=
  t.test ≠ none ∧ t.test ≠ some eos ∧ t.send ≠ none ∧ Transmitted t.status

/-- The turn comes to an address that cannot be read. -/
def Traps (t : Turn) : Prop := t.test = none ∨ t.test ≠ some eos ∧ t.send = none

/-- The transmission has failed. -/
def Fails (t : Turn) : Prop :=
  t.test ≠ none ∧ t.test ≠ some eos ∧ t.send ≠ none ∧ ¬ Transmitted t.status

lemma cases (t : Turn) : t.Traps ∨ t.test = some eos ∨ t.Goes ∨ t.Fails := by
  unfold Traps Goes Fails
  by_cases htest : t.test = none
  · exact .inl (.inl htest)
  · by_cases heos : t.test = some eos
    · exact .inr (.inl heos)
    · by_cases hsend : t.send = none
      · exact .inl (.inr ⟨heos, hsend⟩)
      · by_cases hstatus : Transmitted t.status
        · exact .inr (.inr (.inl ⟨htest, heos, hsend, hstatus⟩))
        · exact .inr (.inr (.inr ⟨htest, heos, hsend, hstatus⟩))

end Turn

/-- How the handling of a syscall ends. -/
inductive Ending
  /-- in `UserTerminate` -/
  | terminated
  /-- with `LDST` -/
  | reloaded (st : State)
  /-- with a return from `UserSyscallHandler`, which nobody has called -/
  | returned
  deriving DecidableEq

/-- The loop of `WriteToTerminal`, if it takes no more than `fuel` turns. -/
def Print.writes (turns : Nat → Turn) : Nat → Print → Option Ending
  | 0, _ => none
  | fuel + 1, pr =>
    match (turns 0).test with
    | none => some .terminated
    | some c =>
      if c = eos then some (.reloaded pr.finish)
      else
        match (turns 0).send with
        | none => some .terminated
        | some _ =>
          if Transmitted (turns 0).status then writes (fun j => turns (j + 1)) fuel pr.next
          else some (.reloaded (pr.fail (turns 0).status))

/-- The rest of `UserSyscallHandler`, at the time `tod`. -/
def Service.handles (tod : Word) (turns : Nat → Turn) (fuel : Nat) : Service → Option Ending
  | .returns => some .returned
  | .writes pr => pr.writes turns fuel
  | .getsTod st => some (.reloaded (st.setV0 tod))
  | .terminates => some .terminated

variable {turns : Nat → Turn} {fuel : Nat} {pr : Print} {st old : State} {tod : Word} {e : Ending}

/-! ### One turn -/

namespace Print

lemma writes_traps (h : (turns 0).Traps) : pr.writes turns (fuel + 1) = some .terminated := by
  unfold writes
  rcases h with htest | ⟨heos, hsend⟩
  · rw [htest]
  · cases htest : (turns 0).test with
    | none => rfl
    | some c =>
      rw [htest] at heos
      dsimp only
      rw [if_neg fun hc => heos (congrArg some hc), hsend]

lemma writes_eos (h : (turns 0).test = some eos) :
    pr.writes turns (fuel + 1) = some (.reloaded pr.finish) := by
  unfold writes
  rw [h]
  exact if_pos rfl

lemma writes_goes (h : (turns 0).Goes) :
    pr.writes turns (fuel + 1) = pr.next.writes (fun j => turns (j + 1)) fuel := by
  obtain ⟨htest, heos, hsend, hstatus⟩ := h
  obtain ⟨c, hc⟩ := Option.ne_none_iff_exists'.mp htest
  obtain ⟨d, hd⟩ := Option.ne_none_iff_exists'.mp hsend
  rw [hc] at heos
  rw [writes, hc, hd]
  dsimp only
  rw [if_neg fun he => heos (congrArg some he), if_pos hstatus]

lemma writes_fails (h : (turns 0).Fails) :
    pr.writes turns (fuel + 1) = some (.reloaded (pr.fail (turns 0).status)) := by
  obtain ⟨htest, heos, hsend, hstatus⟩ := h
  obtain ⟨c, hc⟩ := Option.ne_none_iff_exists'.mp htest
  obtain ⟨d, hd⟩ := Option.ne_none_iff_exists'.mp hsend
  rw [hc] at heos
  rw [writes, hc, hd]
  dsimp only
  rw [if_neg fun he => heos (congrArg some he), if_neg hstatus]

/-! ### The whole loop -/

lemma writes_reloaded (h : pr.writes turns fuel = some (.reloaded st)) :
    ∃ v, st = pr.syscallOld.setV0 v := by
  induction fuel generalizing turns pr with
  | zero => cases h
  | succ fuel ih =>
    rcases (turns 0).cases with ht | ht | ht | ht
    · rw [writes_traps ht] at h
      cases h
    · rw [writes_eos ht] at h
      obtain rfl := Ending.reloaded.inj (Option.some.inj h)
      exact ⟨pr.i, rfl⟩
    · rw [writes_goes ht] at h
      have hnext := ih h
      exact hnext
    · rw [writes_fails ht] at h
      obtain rfl := Ending.reloaded.inj (Option.some.inj h)
      exact ⟨-(turns 0).status, rfl⟩

lemma writes_terminated_iff : (∃ fuel, pr.writes turns fuel = some .terminated) ↔
    ∃ k, (∀ j < k, (turns j).Goes) ∧ (turns k).Traps := by
  constructor
  · rintro ⟨fuel, h⟩
    induction fuel generalizing turns pr with
    | zero => cases h
    | succ fuel ih =>
      rcases (turns 0).cases with ht | ht | ht | ht
      · exact ⟨0, fun j hj => absurd hj (Nat.not_lt_zero j), ht⟩
      · rw [writes_eos ht] at h
        cases h
      · rw [writes_goes ht] at h
        obtain ⟨k, hgoes, htraps⟩ := ih h
        refine ⟨k + 1, fun j hj => ?_, htraps⟩
        cases j with
        | zero => exact ht
        | succ j => exact hgoes j (by omega)
      · rw [writes_fails ht] at h
        cases h
  · rintro ⟨k, hgoes, htraps⟩
    induction k generalizing turns pr with
    | zero => exact ⟨1, writes_traps htraps⟩
    | succ k ih =>
      obtain ⟨fuel, hfuel⟩ := @ih (fun j => turns (j + 1)) pr.next
        (fun j hj => hgoes (j + 1) (by omega)) htraps
      exact ⟨fuel + 1, (writes_goes (hgoes 0 (Nat.succ_pos k))).trans hfuel⟩

end Print

lemma handles_reloaded
    (h : (userSyscallHandler old).handles tod turns fuel = some (.reloaded st)) :
    st.sPc = old.advancePc.sPc := by
  unfold userSyscallHandler at h
  dsimp only at h
  split_ifs at h
  · cases h
  · cases h
  · obtain ⟨v, rfl⟩ := Print.writes_reloaded h
    rfl
  · cases h
  · obtain rfl := Ending.reloaded.inj (Option.some.inj h)
    rfl
  · cases h

/-- The call is one that `UserSyscallHandler` answers with SYS18: an unknown number or 18, or a
string with a bad address or a bad length, or one with a character that cannot be read before the
loop has come to its end. -/
def EndsProcess (old : State) (turns : Nat → Turn) : Prop :=
  old.sA0 ≠ readFromTerminalNum ∧ old.sA0 ≠ writeToTerminalNum ∧ old.sA0 ≠ writeToPrinterNum ∧
      old.sA0 ≠ getTodNum ∨
    old.sA0 = writeToTerminalNum ∧ (old.sA1 < legalAddrStart ∨ old.sA2.toInt < 0 ∨
      ∃ k, (∀ j < k, (turns j).Goes) ∧ (turns k).Traps)

lemma handles_terminated_iff (tod : Word) :
    (∃ fuel, (userSyscallHandler old).handles tod turns fuel = some .terminated) ↔
      EndsProcess old turns := by
  have ha0 : old.advancePc.sA0 = old.sA0 := rfl
  have ha1 : old.advancePc.sA1 = old.sA1 := rfl
  have ha2 : old.advancePc.sA2 = old.sA2 := rfl
  unfold userSyscallHandler EndsProcess
  dsimp only
  rw [ha0, ha1, ha2]
  split_ifs with h9 h10 hbad h16 h17
  · rw [h9]
    simp [Service.handles, readFromTerminalNum, writeToTerminalNum]
  · refine iff_of_true ⟨0, rfl⟩ (.inr ⟨h10, ?_⟩)
    rcases hbad with haddr | hlength
    · exact .inl haddr
    · exact .inr (.inl hlength)
  · have hgood := not_or.mp hbad
    change (∃ fuel, Print.writes _ _ _ = _) ↔ _
    rw [Print.writes_terminated_iff]
    simp only [h10, hgood.1, hgood.2, ne_eq, not_true, false_and, and_false, false_or, true_and]
  · rw [h16]
    simp [Service.handles, writeToPrinterNum, writeToTerminalNum]
  · rw [h17]
    simp [Service.handles, getTodNum, writeToTerminalNum]
  · exact iff_of_true ⟨0, rfl⟩ (.inl ⟨h9, h10, h16, h17⟩)

end Kaya.Support
