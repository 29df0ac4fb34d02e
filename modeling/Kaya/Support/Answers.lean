import Kaya.Support.Moves
import Kaya.Support.UserCalls

/-!
# Syscalls among the other processes

Whatever the other processes and the disk do meanwhile, a process whose syscall is handled comes
to an end that `UserSyscallHandler` has for it by itself.
-/

namespace Kaya.Support

open Function Linked

variable {n : Nat} {old st : State} {pr : Print} {stage : PrintStage} {e : Ending}

/-- An end of the syscall that has left `old` in the old area. -/
def Ending.Of (old : State) (e : Ending) : Prop :=
  ∃ tod turns fuel, (userSyscallHandler old).handles tod turns fuel = some e

namespace Print

/-- The turns that are still possible at this place of a turn. -/
def Turns : PrintStage → (Nat → Turn) → Prop
  | .test, _ => True
  | .send, turns => (turns 0).test ≠ none ∧ (turns 0).test ≠ some eos
  | .wait, turns => (turns 0).test ≠ none ∧ (turns 0).test ≠ some eos ∧ (turns 0).send ≠ none

/-- From this place on, the loop leads to an end of the syscall. -/
def Leads (old : State) (pr : Print) (stage : PrintStage) : Prop :=
  ∀ turns, Turns stage turns → ∀ fuel e, pr.writes turns fuel = some e → e.Of old

/-- A turn before the others. -/
def before (t : Turn) (turns : Nat → Turn) : Nat → Turn
  | 0 => t
  | j + 1 => turns j

lemma Leads.terminated (h : pr.Leads old stage) (hstage : stage ≠ .wait) :
    Ending.terminated.Of old := by
  cases stage with
  | test => exact h (fun _ => ⟨none, none, 0⟩) trivial 1 _ (writes_traps (.inl rfl))
  | send =>
    have hne : (some 1 : Option Word) ≠ some eos := by decide
    exact h (fun _ => ⟨some 1, none, 0⟩) ⟨Option.some_ne_none _, hne⟩ 1 _
      (writes_traps (.inr ⟨hne, rfl⟩))
  | wait => exact absurd rfl hstage

lemma Leads.send (h : pr.Leads old .test) : pr.Leads old .send := fun turns _ => h turns trivial

lemma Leads.wait (h : pr.Leads old .send) : pr.Leads old .wait :=
  fun turns ht => h turns ⟨ht.1, ht.2.1⟩

lemma Leads.finish (h : pr.Leads old .test) : (Ending.reloaded pr.finish).Of old :=
  h (fun _ => ⟨some eos, none, 0⟩) trivial 1 _ (writes_eos rfl)

lemma Leads.next {status : Word} (h : pr.Leads old .wait) (hstatus : Transmitted status) :
    pr.next.Leads old .test := by
  intro turns _ fuel e he
  have hne : (some 1 : Option Word) ≠ some eos := by decide
  have hsome : (some 1 : Option Word) ≠ none := Option.some_ne_none _
  apply h (before ⟨some 1, some 1, status⟩ turns) ⟨hsome, hne, hsome⟩ (fuel + 1)
  rw [writes_goes ⟨hsome, hne, hsome, hstatus⟩]
  exact he

lemma Leads.fail {status : Word} (h : pr.Leads old .wait) (hstatus : ¬ Transmitted status) :
    (Ending.reloaded (pr.fail status)).Of old := by
  have hne : (some 1 : Option Word) ≠ some eos := by decide
  have hsome : (some 1 : Option Word) ≠ none := Option.some_ne_none _
  apply h (fun _ => ⟨some 1, some 1, status⟩) ⟨hsome, hne, hsome⟩ 1
  exact writes_fails ⟨hsome, hne, hsome, hstatus⟩

end Print

/-- Where a process is with the syscall that has left `old` in the old area, or how it has ended. -/
def Control.Answers (old : State) : Control → Prop
  | .service old' => old' = old
  | .print pr stage => pr.Leads old stage
  | .tlb _ (.print pr stage) _ => stage ≠ .wait ∧ pr.Leads old stage
  | .ldst st | .user st => (Ending.reloaded st).Of old
  | .terminate | .ending | .dead => Ending.terminated.Of old
  | .lost => Ending.returned.Of old
  | .readTape _ _ | .tlb _ .user _ => False

/-- The process does nothing in user mode. -/
def Event.Awaits (p : Fin n) : Event n → Prop
  | .access q _ _ _ | .syscall q _ | .trap q => q ≠ p
  | .run _ _ | .disk | .forget _ => True

namespace Sys

variable {b : Board n} {s s' : Sys n} {ev : Event n} {p q : Fin n} {input : Option Word}

lemma Moves.control_of_ne (hm : s.Moves b ev s') (hev : ev.Awaits p)
    (hrun : ∀ input, ev ≠ .run p input) : s'.control p = s.control p := by
  have hne : ∀ q input, ev = .run q input → p ≠ q := by
    rintro q input rfl rfl
    exact hrun input rfl
  cases hm with
  | look hlook htlb => rfl
  | store hc hf =>
    obtain ⟨tlb, hrefill, -⟩ := s.refill_eq _ _
    rw [hrefill]
  | disk hd => rfl
  | @fault e q st va cause back write hc hseg hf hfree =>
    obtain ⟨tlb, hrefill, -⟩ := s.refill_eq q (accessHi q va)
    rw [hrefill]
    refine goto_control_of_ne _ _ _ ?_
    cases ev with
    | access q' st' va' op =>
      obtain ⟨rfl, -⟩ := hc
      exact Ne.symm hev
    | run q' input =>
      obtain ⟨rfl, -⟩ := hc
      exact hne _ _ rfl
    | _ => exact hc.elim
  | @aside e q c masterSema4 hact hholds hio hio' hns hctl htape hservice hfree =>
    refine goto_control_of_ne _ _ _ ?_
    cases ev with
    | syscall q' st' =>
      obtain rfl : q' = q := hact
      exact Ne.symm hev
    | trap q' =>
      obtain rfl : q' = q := hact
      exact Ne.symm hev
    | run q' input =>
      obtain rfl : q' = q := hact
      exact hne _ _ rfl
    | _ => exact hact.elim
  | @boot q input old back frame u hc hblocked hmissing hframe hocc hpage =>
    refine (goto_control_of_ne _ _ _ (hne _ _ rfl)).trans ?_
    simp [Sys.passeren]
  | @install q input old back frame u hc hblocked hpage =>
    refine (goto_control_of_ne _ _ _ (hne _ _ rfl)).trans ?_
    simp [Sys.verhogen]
  | _ => exact (goto_control_of_ne _ _ _ (hne _ _ rfl)).trans rfl

lemma answers_goto {c : Control} (h : c.Answers old) :
    ((s.goto p c).control p).Answers old := by
  rwa [goto_control_self]

lemma service_answers (w : Word) : ((s.service p old w).control p).Answers old := by
  unfold service
  cases hservice : userSyscallHandler old with
  | returns =>
    apply answers_goto
    exact ⟨0, fun _ => ⟨none, none, 0⟩, 0, by rw [hservice]; rfl⟩
  | writes pr =>
    apply answers_goto
    intro turns _ fuel e he
    exact ⟨0, turns, fuel, by rw [hservice]; exact he⟩
  | getsTod st =>
    apply answers_goto
    exact ⟨w, fun _ => ⟨none, none, 0⟩, 0, by rw [hservice]; rfl⟩
  | terminates =>
    apply answers_goto
    exact ⟨0, fun _ => ⟨none, none, 0⟩, 0, by rw [hservice]; rfl⟩

lemma readChar_answers {next : Sys n → Word → Sys n} (h : pr.Leads old stage)
    (hstage : stage ≠ .wait) (hnext : ∀ s c, ((next s c).control p).Answers old) :
    ((s.readChar b p pr stage input next).control p).Answers old := by
  unfold readChar
  dsimp only
  split_ifs with hseg
  · split
    · exact hnext _ _
    · apply answers_goto
      exact ⟨hstage, h⟩
  · split
    · apply answers_goto
      exact (h.terminated hstage)
    · exact hnext _ _

lemma writeToTerminal_answers (h : pr.Leads old stage)
    (hs : s.writeToTerminal b p pr input stage = some s') : (s'.control p).Answers old := by
  cases stage with
  | test =>
    obtain rfl := Option.some.inj hs
    refine readChar_answers h (by decide) fun s c => ?_
    split_ifs
    · apply answers_goto
      exact h.finish
    · apply answers_goto
      exact h.send
  | send =>
    obtain rfl := Option.some.inj hs
    refine readChar_answers h (by decide) fun s _ => ?_
    apply answers_goto
    exact h.wait
  | wait =>
    obtain ⟨status, -, hs⟩ := Option.bind_eq_some_iff.mp hs
    dsimp only at hs
    split_ifs at hs with hstatus <;> obtain rfl := Option.some.inj hs
    · apply answers_goto
      exact (h.next hstatus)
    · apply answers_goto
      exact (h.fail hstatus)

lemma userTlbHandler_answers {old' : State} {tlbStage : TlbStage} (h : pr.Leads old stage)
    (hstage : stage ≠ .wait)
    (hs : s.userTlbHandler b p old' (.print pr stage) input tlbStage = some s') :
    (s'.control p).Answers old := by
  have hin : ∀ (s : Sys n) tlbStage,
      ((s.goto p (.tlb old' (.print pr stage) tlbStage)).control p).Answers old := by
    intro s _
    apply answers_goto
    exact ⟨hstage, h⟩
  have htake : s.takeFrame p old' (.print pr stage) = some s' → (s'.control p).Answers old := by
    intro hs
    obtain ⟨f, -, hs⟩ := Option.bind_eq_some_iff.mp hs
    dsimp only at hs
    split_ifs at hs
    · unfold bootOut at hs
      dsimp only at hs
      split_ifs at hs
      · obtain ⟨_, -, hs⟩ := Option.bind_eq_some_iff.mp hs
        obtain ⟨_, -, hs⟩ := Option.bind_eq_some_iff.mp hs
        obtain rfl := Option.some.inj hs
        exact hin _ _
      · obtain ⟨_, -, hs⟩ := Option.bind_eq_some_iff.mp hs
        obtain ⟨_, -, hs⟩ := Option.bind_eq_some_iff.mp hs
        obtain rfl := Option.some.inj hs
        exact hin _ _
      · obtain rfl := Option.some.inj hs
        exact hin _ _
    · obtain rfl := Option.some.inj hs
      exact hin _ _
  have hio : ∀ {job : Job} {control : IoStage → TlbStage} {done : TlbStage} {io : IoStage},
      s.ioStep p job (fun io => .tlb old' (.print pr stage) (control io))
        (.tlb old' (.print pr stage) done) io = some s' → (s'.control p).Answers old := by
    intro job control done io hs
    unfold ioStep at hs
    cases io with
    | seek =>
      obtain rfl := Option.some.inj hs
      exact hin _ _
    | transfer =>
      dsimp only at hs
      split_ifs at hs
      obtain rfl := Option.some.inj hs
      exact hin _ _
    | release =>
      dsimp only at hs
      split_ifs at hs
      obtain rfl := Option.some.inj hs
      exact hin _ _
  cases tlbStage with
  | enter =>
    obtain rfl := Option.some.inj hs
    unfold enterTlb
    dsimp only
    split_ifs
    · apply answers_goto
      exact (h.terminated hstage)
    · exact hin _ _
  | check =>
    change s.checkTlb p old' _ input = some s' at hs
    unfold checkTlb at hs
    split_ifs at hs
    · split at hs
      · obtain rfl := Option.some.inj hs
        apply answers_goto
        exact (h.terminated hstage)
      · split_ifs at hs
        · obtain rfl := Option.some.inj hs
          exact hin _ _
        · exact htake hs
    · exact htake hs
  | boot frame victim io => exact hio hs
  | booted frame =>
    obtain rfl := Option.some.inj hs
    exact hin _ _
  | load frame io => exact hio hs
  | install frame =>
    obtain rfl := Option.some.inj hs
    unfold installPage
    dsimp only
    split
    · apply answers_goto
      exact (h.terminated hstage)
    · exact hin _ _
  | leave =>
    obtain rfl := Option.some.inj hs
    apply answers_goto
    exact h

lemma run_answers (h : (s.control p).Answers old) (hs : s.run b p input = some s') :
    (s'.control p).Answers old := by
  unfold run at hs
  cases hc : s.control p with
  | user st => simp [hc] at hs
  | readTape i tapeStage =>
    rw [hc] at h
    exact h.elim
  | service old' =>
    simp only [hc] at hs h
    obtain rfl : old' = old := h
    obtain ⟨w, -, hs⟩ := Option.bind_eq_some_iff.mp hs
    obtain rfl := Option.some.inj hs
    exact service_answers w
  | print pr stage =>
    simp only [hc] at hs h
    exact writeToTerminal_answers h hs
  | ldst st =>
    simp only [hc] at hs h
    obtain rfl := Option.some.inj hs
    apply answers_goto
    exact h
  | tlb old' back tlbStage =>
    simp only [hc] at hs h
    cases back with
    | user => exact h.elim
    | print pr stage => exact userTlbHandler_answers h.2 h.1 hs
  | terminate | ending =>
    simp only [hc] at hs h
    obtain rfl := Option.some.inj hs
    apply answers_goto
    exact h
  | dead => simp [hc] at hs
  | lost => simp [hc] at hs

/-- The syscalls of a process end in runs with others as they do by themselves. -/
theorem answers_of_run {h : List (Sys n × Event n × Sys n)} (h0 : s.control p = .service old)
    (hr : Run (Sys.step b) (fun _ ev => ev.Awaits p) s h s') : (s'.control p).Answers old := by
  induction hr with
  | nil =>
    rw [h0]
    rfl
  | @snoc h t t' ev _ hev hs ih =>
    by_cases hrun : ∃ input, ev = .run p input
    · obtain ⟨input, rfl⟩ := hrun
      unfold step at hs
      dsimp only at hs
      split_ifs at hs
      exact run_answers ih hs
    · rw [(step_moves hs).control_of_ne hev fun input he => hrun ⟨input, he⟩]
      exact ih

end Sys

end Kaya.Support
