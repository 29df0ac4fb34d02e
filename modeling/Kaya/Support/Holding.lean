import Kaya.Lib.Holders
import Kaya.Support.DiskLock
import Kaya.Support.Pool

/-!
# Who has which mutex

A process has the mutexes that its control says it has, as long as it does not come to its end
between a P and the matching V.
-/

namespace Kaya.Support

open Function Linked

variable {n : Nat} {b : Board n} {p q : Fin n} {m m' : Sem} {c c' : Control}

lemma Event.Acts.unique {e : Event n} (hp : e.Acts p) (hq : e.Acts q) : p = q := by
  cases e with
  | syscall r st => exact hp.symm.trans hq
  | trap r => exact hp.symm.trans hq
  | run r input => exact hp.symm.trans hq
  | _ => exact hp.elim

instance (e : Event n) : DecidablePred e.Acts := fun p => by
  cases e <;> unfold Event.Acts <;> infer_instance

namespace Control

/-- `c'` is behind the P of `m` and `c` is not, and for the other mutexes it is the same. -/
def Behind (b : Board n) (p : Fin n) (m : Sem) (c c' : Control) : Prop :=
  ¬ c.Holds b p m ∧ ∀ m', c'.Holds b p m' ↔ m' = m ∨ c.Holds b p m'

lemma holds_congr (hswap : c'.InSwap ↔ c.InSwap) (hio : (c'.io b p).isSome = (c.io b p).isSome)
    (hprint : c'.InPrint ↔ c.InPrint) (m : Sem) : c'.Holds b p m ↔ c.Holds b p m := by
  unfold Holds
  rw [hswap, hio, hprint]

lemma inPrint_congr {old old' : State} {back : Back} {stage stage' : TlbStage} :
    (tlb old back stage).InPrint ↔ (tlb old' back stage').InPrint := by
  cases back <;> exact Iff.rfl

lemma behind_swap (hout : ¬ c.InSwap) (hin : c'.InSwap)
    (hio : (c'.io b p).isSome = (c.io b p).isSome) (hprint : c'.InPrint ↔ c.InPrint) :
    Behind b p .swapmutex c c' := by
  refine ⟨?_, fun m' => ?_⟩
  · simp [Holds, hout, diskMutex, terminalMutex]
  · simp [Holds, hout, hin, hio, hprint]

lemma behind_disk (hout : c.io b p = none) (hin : (c'.io b p).isSome)
    (hswap : c'.InSwap ↔ c.InSwap) (hprint : c'.InPrint ↔ c.InPrint) :
    Behind b p diskMutex c c' := by
  have hne := (Sys.terminalMutex_ne b.procCnt_le p).symm
  refine ⟨?_, fun m' => ?_⟩
  · have hsd : diskMutex ≠ .swapmutex := by decide
    simp [Holds, hout, hne, hsd]
  · simp only [Holds, hout, hin, hswap, hprint]
    simp
    tauto

lemma behind_terminal (hout : ¬ c.InPrint) (hin : c'.InPrint) (hswap : c'.InSwap ↔ c.InSwap)
    (hio : (c'.io b p).isSome = (c.io b p).isSome) : Behind b p (terminalMutex p) c c' := by
  have hne := Sys.terminalMutex_ne b.procCnt_le p
  refine ⟨?_, fun m' => ?_⟩
  · have hst : terminalMutex p ≠ .swapmutex := by simp [terminalMutex]
    simp [Holds, hout, hne, hst]
  · simp only [Holds, hout, hin, hswap, hio]
    simp
    tauto

/-- In `UserTerminate` or dead. -/
def Over : Control → Prop
  | .terminate | .ending | .dead => True
  | _ => False

instance : DecidablePred Over
  | .terminate | .ending | .dead => .isTrue trivial
  | .user _ | .readTape _ _ | .service _ | .print _ _ | .ldst _ | .tlb _ _ _ | .lost =>
    .isFalse not_false

lemma Over.not_holds (h : c.Over) (m : Sem) : ¬ c.Holds b p m := by
  cases c with
  | terminate | ending | dead => simp [Holds, InSwap, InPrint, Control.io]
  | _ => exact h.elim

/-- What is known of a fault out of `WriteToTerminal` before `UserTLBHandler` has looked at it. -/
def Serves : Control → Prop
  | .tlb old (.print _ _) .enter => Served old
  | _ => True

end Control

namespace Sys

variable {s s' : Sys n} {e : Event n}

/-- The process is between the P and the V of the mutex. -/
def Inside (b : Board n) (s : Sys n) (p : Fin n) (m : Sem) : Prop := (s.control p).Holds b p m

instance (s : Sys n) (p : Fin n) (m : Sem) : Decidable (s.Inside b p m) :=
  inferInstanceAs (Decidable ((s.control p).Holds b p m))

lemma inside_of_ne (hcontrol : s'.control = update s.control p c) (hq : q ≠ p) :
    s'.Inside b q m ↔ s.Inside b q m := by
  unfold Inside
  rw [hcontrol, update_of_ne hq]

lemma inside_self (hcontrol : s'.control = update s.control p c) :
    s'.Inside b p m ↔ c.Holds b p m := by
  unfold Inside
  rw [hcontrol, update_self]

lemma locking_keep (hcontrol : s'.control = update s.control p c) (hsem : s'.sema4 = s.sema4)
    (hholds : ∀ m, c.Holds b p m ↔ (s.control p).Holds b p m) :
    Locking e.Acts s.sema4 (s.Inside b) (s'.Inside b) s'.sema4 := by
  rw [hsem]
  apply Locking.keep
  intro q m
  by_cases hq : q = p
  · subst hq
    exact (inside_self hcontrol).trans (hholds m)
  · exact inside_of_ne hcontrol hq

lemma locking_passeren (he : e.Acts p) (hcontrol : s'.control = update s.control p c)
    (hsem : s'.sema4 = update s.sema4 m ((s.sema4 m).passeren p))
    (hbehind : Control.Behind b p m (s.control p) c) :
    Locking e.Acts s.sema4 (s.Inside b) (s'.Inside b) s'.sema4 := by
  rw [hsem]
  apply Locking.passeren p m he hbehind.1
  intro q m'
  by_cases hq : q = p
  · subst hq
    simp only [inside_self hcontrol, hbehind.2, true_and]
    exact Iff.rfl
  · simp only [inside_of_ne hcontrol hq, hq, false_and, false_or]

lemma locking_verhogen (he : e.Acts p) (hcontrol : s'.control = update s.control p c)
    (hsem : s'.sema4 = update s.sema4 m (s.sema4 m).verhogen) (hw : p ∉ (s.sema4 m).waiters)
    (hbehind : Control.Behind b p m c (s.control p)) :
    Locking e.Acts s.sema4 (s.Inside b) (s'.Inside b) s'.sema4 := by
  rw [hsem]
  apply Locking.verhogen p m he ((hbehind.2 m).mpr (.inl rfl)) hw
  intro q m'
  by_cases hq : q = p
  · subst hq
    have hin := hbehind.2 m'
    simp only [inside_self hcontrol, true_and]
    unfold Inside
    rw [hin]
    by_cases hm : m' = m
    · subst hm
      simp [hbehind.1]
    · simp [hm]
  · simp only [inside_of_ne hcontrol hq, hq, false_and, not_false_eq_true, true_and]

lemma not_waiting_terminal (b : Board n) (h : ¬ s.Blocked p) :
    p ∉ (s.sema4 (terminalMutex p)).waiters := by
  unfold terminalMutex
  rw [asidOf_entryHi b.procCnt_le]
  exact fun hw => h (.inr (.inr hw))

/-! ### Ends between P and V -/

/-- A process at this place is not led to its end while it has a mutex: where `WriteToTerminal`
reads a character there is an entry for the page, or something to be read, the pointer in the
re-check of `UserTLBHandler` is a good one, and the page that it has loaded has an entry. -/
def SparedAt (s : Sys n) (p : Fin n) (input : Option Word) : Control → Prop
  | .print pr stage =>
    if stage = .wait then True
    else if segmentOf pr.s = kuseg2 ∨ segmentOf pr.s = kuseg3 then
      s.lookup p (accessHi p pr.s) ≠ none
    else input ≠ none
  | .tlb old _ .check =>
    segmentOf old.sAsid = kuseg3 → s.recheck p (pageOf old.sAsid) input ≠ none
  | .tlb old _ (.install _) =>
    segmentOf old.sAsid = kuseg3 ∨ segmentOf old.sAsid = kuseg2 → faultPage p old ≠ none
  | _ => True

def Spares (s : Sys n) : Event n → Prop
  | .run p input => s.SparedAt p input (s.control p)
  | _ => True

instance (s : Sys n) (p : Fin n) (input : Option Word) : DecidablePred (s.SparedAt p input)
  | .print _ _ => inferInstanceAs (Decidable (ite _ _ (ite _ _ _)))
  | .tlb _ _ .check | .tlb _ _ (.install _) => inferInstanceAs (Decidable (_ → _))
  | .tlb _ _ .enter | .tlb _ _ (.boot _ _ _) | .tlb _ _ (.booted _) | .tlb _ _ (.load _ _)
  | .tlb _ _ .leave | .user _ | .readTape _ _ | .service _ | .ldst _ | .terminate | .ending
  | .dead | .lost => .isTrue trivial

instance (s : Sys n) : DecidablePred s.Spares
  | .run p input => inferInstanceAs (Decidable (s.SparedAt p input (s.control p)))
  | .access _ _ _ _ | .syscall _ _ | .trap _ | .disk | .forget _ => .isTrue trivial

/-- No mutex is left to a process that has come to its end. -/
structure Held (b : Board n) (s : Sys n) : Prop where
  guards : ∀ m, (s.sema4 m).Guards fun p => s.Inside b p m
  serves : ∀ p, (s.control p).Serves

lemma serves_goto (h : ∀ q, (s.control q).Serves) (hcontrol : s'.control = update s.control p c)
    (hc : c.Serves) (q : Fin n) : (s'.control q).Serves := by
  rw [hcontrol]
  by_cases hq : q = p
  · subst hq
    rw [update_self]
    exact hc
  · rw [update_of_ne hq]
    exact h q

lemma served_of_lookup {hi cause : Word} (hl : s.lookup p hi ≠ none)
    (hf : s.translate b p hi false = .error cause) (st : State) (x : Word) :
    Served { st with sCause := cause, sAsid := x } := by
  unfold translate at hf
  split at hf
  · exact absurd ‹_› hl
  · simp only [Bool.false_eq_true, if_false, false_and] at hf
    split_ifs at hf with hvalid
    obtain rfl := Except.error.inj hf
    have hcode : excCodeOf (causeOf tlbInvalidLoad) = tlbInvalidLoad := by decide
    exact .inl hcode

lemma Accesses.holds {st : State} {va : Addr} {write : Bool} {back : Back}
    (h : s.Accesses p st va write back e) (old : State) (m : Sem) :
    (Control.tlb old back .enter).Holds b p m ↔ (s.control p).Holds b p m := by
  cases e with
  | access q st' va' op =>
    obtain ⟨-, -, -, -, rfl, st₀, hc⟩ := h
    rw [hc]
    exact Control.holds_congr Iff.rfl rfl Iff.rfl m
  | run q input =>
    obtain ⟨-, -, pr, stage, hc, -, -, rfl, -⟩ := h
    rw [hc]
    exact Control.holds_congr Iff.rfl rfl Iff.rfl m
  | _ => exact h.elim

lemma Spares.not_die {input : Option Word} (he : s.Spares (.run p input))
    (hserves : (s.control p).Serves) :
    ¬ ((∃ pr stage, s.control p = .print pr stage ∧ stage ≠ .wait ∧
          ¬ (segmentOf pr.s = kuseg2 ∨ segmentOf pr.s = kuseg3) ∧ input = none) ∨
        (∃ old pr stage, s.control p = .tlb old (.print pr stage) .enter ∧
          excCodeOf old.sCause ≠ tlbInvalidLoad ∧ excCodeOf old.sCause ≠ tlbInvalidStore) ∨
        ∃ old back, s.control p = .tlb old back .check ∧ segmentOf old.sAsid = kuseg3 ∧
          s.recheck p (pageOf old.sAsid) input = none) := by
  change s.SparedAt p input (s.control p) at he
  rintro (⟨pr, stage, hc, hwait, hseg, hinput⟩ | ⟨old, pr, stage, hc, hload, hstore⟩ |
    ⟨old, back, hc, h3, hnone⟩)
  · rw [hc, SparedAt, if_neg hwait, if_neg hseg] at he
    exact he hinput
  · rw [hc] at hserves
    exact hserves.elim hload hstore
  · rw [hc] at he
    exact he h3 hnone

lemma Accesses.serves {st : State} {va : Addr} {cause : Word} {write : Bool} {back : Back}
    (h : s.Accesses p st va write back e) (he : s.Spares e)
    (hseg : segmentOf va = kuseg2 ∨ segmentOf va = kuseg3)
    (hf : s.translate b p (accessHi p va) write = .error cause) :
    (Control.tlb { st with sCause := cause, sAsid := accessHi p va } back .enter).Serves := by
  cases e with
  | access q st' va' op =>
    obtain ⟨-, -, -, -, rfl, -⟩ := h
    trivial
  | run q input =>
    obtain ⟨rfl, rfl, pr, stage, hc, -, rfl, rfl, hwait⟩ := h
    change s.SparedAt q input (s.control q) at he
    rw [hc, SparedAt, if_neg hwait, if_pos hseg] at he
    exact served_of_lookup he hf st _
  | _ => exact h.elim

/-- The process comes to its end, and a mutex that it has is lost. -/
structure Dies (s : Sys n) (e : Event n) (p : Fin n) (s' : Sys n) : Prop where
  acts : e.Acts p
  free : ¬ s.Blocked p
  control : s'.control = update s.control p .terminate
  sema4 : s'.sema4 = s.sema4
  unspared : (s.control p).Serves → ¬ s.Spares e

lemma Moves.locking_or_dies (hm : s.Moves b e s') :
    Locking e.Acts s.sema4 (s.Inside b) (s'.Inside b) s'.sema4 ∨ ∃ p, s.Dies e p s' := by
  by_cases hdies : ∃ p, s.Dies e p s'
  · exact .inr hdies
  refine .inl ?_
  cases hm with
  | look hlook htlb => exact .keep fun _ _ => Iff.rfl
  | store hc hf =>
    obtain ⟨tlb, hrefill, -⟩ := s.refill_eq _ _
    rw [hrefill]
    exact .keep fun _ _ => Iff.rfl
  | disk hd => exact .keep fun _ _ => Iff.rfl
  | @fault e p st va cause back write hc hseg hf hfree =>
    obtain ⟨tlb, hrefill, -⟩ := s.refill_eq p (accessHi p va)
    rw [hrefill]
    exact locking_keep rfl rfl (hc.holds _)
  | @aside e p c masterSema4 hact hholds hio hio' hns hctl htape hservice hfree =>
    exact locking_keep rfl rfl fun m => (hholds m).symm
  | @die p input hblocked hc =>
    exact absurd ⟨p, rfl, hblocked, rfl, rfl, fun hserves he => he.not_die hserves hc⟩ hdies
  | @installTrap p input old back frame hc hblocked hseg hpage =>
    refine absurd ⟨p, rfl, hblocked, rfl, rfl, fun _ he => ?_⟩ hdies
    change s.SparedAt p input (s.control p) at he
    rw [hc] at he
    exact he hseg hpage
  | @printStart p input old pr hc hblocked =>
    refine locking_passeren rfl rfl rfl ?_
    rw [hc]
    exact Control.behind_terminal not_false trivial Iff.rfl rfl
  | @printEnd p input st pr stage tlb htlb hc hblocked =>
    refine locking_verhogen rfl rfl rfl (not_waiting_terminal b hblocked) ?_
    rw [hc]
    exact Control.behind_terminal not_false trivial Iff.rfl rfl
  | @printNext p input pr pr' stage stage' tlb htlb hc hblocked =>
    refine locking_keep rfl rfl ?_
    rw [hc]
    exact Control.holds_congr Iff.rfl rfl Iff.rfl
  | @tapeStart p input i hc hblocked =>
    refine locking_passeren rfl rfl rfl ?_
    rw [hc]
    exact Control.behind_disk rfl rfl Iff.rfl Iff.rfl
  | @enter p input old back hc hblocked hcode =>
    refine locking_passeren rfl rfl rfl ?_
    rw [hc]
    exact Control.behind_swap not_false trivial rfl Control.inPrint_congr
  | @found p input old back lo hc hblocked hseg hlo hvalid =>
    refine locking_verhogen rfl rfl rfl (not_waiting_swap hblocked) ?_
    rw [hc]
    exact Control.behind_swap not_false trivial rfl Control.inPrint_congr
  | @take p input old back frame hc hblocked hmissing hframe hvacant =>
    refine locking_passeren rfl rfl rfl ?_
    rw [hc]
    exact Control.behind_disk rfl rfl Iff.rfl Control.inPrint_congr
  | @boot p input old back frame u hc hblocked hmissing hframe hocc hpage =>
    refine locking_passeren (m := diskMutex) rfl (by simp [goto, Sys.passeren]; rfl)
      (by simp [goto, Sys.passeren]) ?_
    rw [hc]
    exact Control.behind_disk rfl rfl Iff.rfl Control.inPrint_congr
  | @booted p input old back frame hc hblocked =>
    refine locking_passeren rfl rfl rfl ?_
    rw [hc]
    exact Control.behind_disk rfl rfl Iff.rfl Control.inPrint_congr
  | @seek p input job control hc hstages hblocked
  | @transfer p input job control hc hstages hbusy hblocked =>
    refine locking_keep rfl rfl ?_
    rw [hc]
    cases hstages with
    | tape i => exact Control.holds_congr Iff.rfl rfl Iff.rfl
    | boot old back frame victim => exact Control.holds_congr Iff.rfl rfl Control.inPrint_congr
    | load old back frame => exact Control.holds_congr Iff.rfl rfl Control.inPrint_congr
  | @tapeEnd p input i hc hbusy hblocked =>
    refine locking_verhogen rfl rfl rfl (not_waiting_disk hblocked) ?_
    rw [hc]
    exact Control.behind_disk rfl rfl Iff.rfl Iff.rfl
  | @bootEnd p input old back frame victim hc hbusy hblocked =>
    refine locking_verhogen rfl rfl rfl (not_waiting_disk hblocked) ?_
    rw [hc]
    exact Control.behind_disk rfl rfl Iff.rfl Control.inPrint_congr
  | @loadEnd p input old back frame hc hbusy hblocked =>
    refine locking_verhogen rfl rfl rfl (not_waiting_disk hblocked) ?_
    rw [hc]
    exact Control.behind_disk rfl rfl Iff.rfl Control.inPrint_congr
  | @install p input old back frame u hc hblocked hpage =>
    refine locking_verhogen (m := .swapmutex) rfl (by simp [goto, Sys.verhogen]; rfl)
      (by simp [goto, Sys.verhogen]) (not_waiting_swap hblocked) ?_
    rw [hc]
    exact Control.behind_swap not_false trivial rfl Control.inPrint_congr
  | @installOther p input old back frame hc hblocked hseg =>
    refine locking_verhogen rfl rfl rfl (not_waiting_swap hblocked) ?_
    rw [hc]
    exact Control.behind_swap not_false trivial rfl Control.inPrint_congr

/-- A step at which nobody comes to an end with a mutex. -/
lemma Moves.locking (hm : s.Moves b e s') (he : s.Spares e) (hserves : ∀ q, (s.control q).Serves) :
    Locking e.Acts s.sema4 (s.Inside b) (s'.Inside b) s'.sema4 := by
  rcases hm.locking_or_dies with hlocking | ⟨p, hdies⟩
  · exact hlocking
  · exact absurd he (hdies.unspared (hserves p))

lemma Moves.serves (hm : s.Moves b e s') (he : s.Spares e) (h : ∀ q, (s.control q).Serves)
    (q : Fin n) : (s'.control q).Serves := by
  cases hm with
  | look hlook htlb => exact h q
  | store hc hf =>
    obtain ⟨tlb, hrefill, -⟩ := s.refill_eq _ _
    rw [hrefill]
    exact h q
  | disk hd => exact h q
  | @fault e p st va cause back write hc hseg hf hfree =>
    obtain ⟨tlb, hrefill, -⟩ := s.refill_eq p (accessHi p va)
    rw [hrefill]
    exact serves_goto h rfl (hc.serves he hseg hf) q
  | @aside e p c masterSema4 hact hholds hio hio' hns hctl htape hservice hfree =>
    refine serves_goto h rfl ?_ q
    cases c with
    | tlb old back stage => exact absurd rfl (hctl old back stage)
    | _ => trivial
  | @seek p input job control hc hstages hblocked
  | @transfer p input job control hc hstages hbusy hblocked =>
    refine serves_goto h rfl ?_ q
    cases hstages with
    | tape i => trivial
    | boot old back frame victim => cases back <;> trivial
    | load old back frame => cases back <;> trivial
  | die hblocked hc | printStart hc hblocked | printEnd htlb hc hblocked
  | printNext htlb hc hblocked | tapeStart hc hblocked | tapeEnd hc hbusy hblocked
  | installTrap hc hblocked hseg hpage =>
    exact serves_goto h rfl (by trivial) q
  | @enter p input old back hc hblocked hcode
  | @found p input old back lo hc hblocked hseg hlo hvalid
  | @take p input old back frame hc hblocked hmissing hframe hvacant
  | @booted p input old back frame hc hblocked
  | @bootEnd p input old back frame victim hc hbusy hblocked
  | @loadEnd p input old back frame hc hbusy hblocked
  | @installOther p input old back frame hc hblocked hseg =>
    exact serves_goto h rfl (by cases back <;> trivial) q
  | @boot p input old back frame u hc hblocked hmissing hframe hocc hpage =>
    exact serves_goto h (by simp [goto, Sys.passeren]; rfl) (by cases back <;> trivial) q
  | @install p input old back frame u hc hblocked hpage =>
    exact serves_goto h (by simp [goto, Sys.verhogen]; rfl) (by cases back <;> trivial) q

lemma Moves.held (hm : s.Moves b e s') (he : s.Spares e) (h : s.Held b) : s'.Held b :=
  ⟨fun m => (hm.locking he h.serves).guards m (h.guards m), hm.serves he h.serves⟩

lemma fresh_guards (h0 : s.Fresh) (m : Sem) : (s.sema4 m).Guards fun p => s.Inside b p m := by
  rw [h0.sema4]
  apply Semaphore.Guards.mutex.congr
  intro p
  unfold Inside
  rw [h0.control]
  simp [Control.Holds, Control.InSwap, Control.io, Control.InPrint]

lemma fresh_held (h0 : s.Fresh) : s.Held b := by
  refine ⟨fresh_guards h0, fun p => ?_⟩
  rw [h0.control]
  trivial

/-! ### The records of the swap pool -/

/-- The frame holds no page, or one that is in a page table. -/
def Filed (s : Sys n) (f : Fin poolSize) : Prop :=
  (s.frameSwapPool f).Vacant ∨ s.resident f ≠ none

/-- Only a process that comes to its end in `swapmutex` leaves another record. -/
structure FiledAll (b : Board n) (s : Sys n) : Prop where
  excludes : (s.sema4 .swapmutex).Excludes fun p => s.Inside b p .swapmutex
  filed : (∀ f, s.Filed f) ∨ (s.sema4 .swapmutex).Shut fun p => s.Inside b p .swapmutex

lemma inside_swapmutex : s.Inside b p .swapmutex ↔ (s.control p).InSwap := by
  simp [Inside, Control.Holds, diskMutex, terminalMutex]

lemma Dies.shut (h : s.Dies e p s') (hin : s.Inside b p .swapmutex)
    (hexcludes : (s.sema4 .swapmutex).Excludes fun p => s.Inside b p .swapmutex) :
    (s'.sema4 .swapmutex).Shut fun p => s'.Inside b p .swapmutex := by
  rw [h.sema4]
  refine hexcludes.leave hin (not_waiting_swap h.free) fun q hq => ?_
  have hqp : q ≠ p := by
    rintro rfl
    exact Control.Over.not_holds (c := .terminate) trivial _ ((inside_self h.control).mp hq)
  exact ⟨hqp, (inside_of_ne h.control hqp).mp hq⟩

lemma Moves.filed (hm : s.Moves b e s') (h : ∀ f, s.Filed f) :
    (∀ f, s'.Filed f) ∨ ∃ p, s.Dies e p s' ∧ s.Inside b p .swapmutex := by
  have hrecord {p : Fin n} {old : State} {frame : Fin poolSize}
      (hpool : s'.frameSwapPool = update s.frameSwapPool frame (faultRecord p old))
      (hfiled : (faultRecord p old).Vacant ∨ faultPage p old ≠ none) (f : Fin poolSize) :
      s'.Filed f := by
    unfold Filed resident
    rw [hpool]
    by_cases hf : f = frame
    · subst hf
      rwa [update_self, page_faultRecord b.procCnt_le]
    · rw [update_of_ne hf]
      exact h f
  cases hm with
  | @install p input old back frame u hc hblocked hpage =>
    refine .inl (hrecord (by simp [goto, Sys.verhogen]; rfl) (.inr ?_))
    rw [hpage]
    exact Option.some_ne_none u
  | @installOther p input old back frame hc hblocked hseg =>
    exact .inl (hrecord rfl (.inl (.inr hseg)))
  | @installTrap p input old back frame hc hblocked hseg hpage =>
    refine .inr ⟨p, ⟨rfl, hblocked, rfl, rfl, fun _ he => ?_⟩, ?_⟩
    · change s.SparedAt p input (s.control p) at he
      rw [hc] at he
      exact he hseg hpage
    · rw [inside_swapmutex, hc]
      trivial
  | @store p st va v frame hc hf | @fault e p st va cause back write hc hseg hf hfree =>
    obtain ⟨tlb, hrefill, -⟩ := s.refill_eq p (accessHi p va)
    rw [hrefill]
    exact .inl h
  | @boot p input old back frame u => cases u <;> exact .inl h
  | _ => exact .inl h

lemma Moves.filedAll (hm : s.Moves b e s') (h : s.FiledAll b) : s'.FiledAll b := by
  rcases hm.locking_or_dies with hlocking | ⟨p, hdies⟩
  · refine ⟨hlocking.excludes _ h.excludes, ?_⟩
    rcases h.filed with hfiled | hshut
    · refine (hm.filed hfiled).imp_right ?_
      rintro ⟨p, hdies, hin⟩
      exact hdies.shut hin h.excludes
    · exact .inr (hlocking.shut _ hshut)
  · by_cases hin : s.Inside b p .swapmutex
    · have hshut := hdies.shut hin h.excludes
      exact ⟨.inr hshut, .inr hshut⟩
    · have hcongr (q : Fin n) : s'.Inside b q .swapmutex ↔ s.Inside b q .swapmutex := by
        by_cases hqp : q = p
        · subst hqp
          refine iff_of_false (fun hq => ?_) hin
          exact Control.Over.not_holds (c := .terminate) trivial _
            ((inside_self hdies.control).mp hq)
        · exact inside_of_ne hdies.control hqp
      refine ⟨hdies.sema4 ▸ h.excludes.congr hcongr, ?_⟩
      rcases h.filed with hfiled | hshut
      · refine (hm.filed hfiled).imp_right ?_
        rintro ⟨q, hdies, hin⟩
        exact hdies.shut hin h.excludes
      · exact .inr (hdies.sema4 ▸ hshut.congr hcongr)

lemma fresh_filedAll (h0 : s.Fresh) : s.FiledAll b :=
  ⟨.inl (fresh_guards h0 _), .inl fun f => .inl (.inl (h0.frameSwapPool f))⟩

lemma FiledAll.run {ok : Sys n → Event n → Prop} {s₀ : Sys n}
    {h : List (Sys n × Event n × Sys n)} (h0 : s₀.Fresh) (hr : Run (Sys.step b) ok s₀ h s) :
    s.FiledAll b := by
  induction hr with
  | nil => exact fresh_filedAll h0
  | snoc _ _ hs ih => exact (step_moves hs).filedAll ih

/-- Whoever chooses a frame finds no record outside the page tables. -/
lemma FiledAll.of_inSwap (h : s.FiledAll b) (hc : (s.control p).InSwap) (hblocked : ¬ s.Blocked p)
    (f : Fin poolSize) : s.Filed f := by
  rcases h.filed with hfiled | hshut
  · exact hfiled f
  · exact absurd (hshut.2 p (inside_swapmutex.mpr hc)) (not_waiting_swap hblocked)

lemma FiledAll.of_free (h : s.FiledAll b) (hfree : s.sema4 .swapmutex = .mutex)
    (f : Fin poolSize) : s.Filed f := by
  rcases h.filed with hfiled | hshut
  · exact hfiled f
  · have hle := hshut.1
    rw [hfree] at hle
    exact absurd hle (by simp [Semaphore.mutex])

end Sys

end Kaya.Support
