import Kaya.Support.Boot
import Kaya.Support.Flat

/-!
# Processes that have not started yet

What a process that has entered `readTape` does depends neither on the page tables nor on the
control of the others that have not: it is a step of the support level in which those are about
to start.
-/

namespace Kaya.Support

open Function Linked

variable {n : Nat}

/-- After the V of `masterSema4`. -/
def Control.Released : Control → Prop
  | .ending | .dead => True
  | _ => False

instance (c : Control) : Decidable c.Released :=
  match c with
  | .ending | .dead => .isTrue trivial
  | .user _ | .readTape _ _ | .service _ | .print _ _ | .ldst _ | .tlb _ _ _ | .terminate | .lost =>
    .isFalse not_false

namespace Sys

/-- The state in which the processes outside `own` are about to start. `test` has P'd
`masterSema4` so many times. -/
def view (own : Fin n → Prop) [DecidablePred own] (taken : Nat) (s : Sys n) : Sys n := { s with
  control := fun p => if own p then s.control p else .readTape 0 .read
  kuseg2PT := fun p => if own p then s.kuseg2PT p else initialKuseg2PT (p + 1)
  masterSema4 := s.masterSema4 + taken }

/-- The pool has no page of a process outside `own`. -/
def Within (own : Fin n → Prop) (s : Sys n) : Prop :=
  ∀ f q, procOf n (s.frameSwapPool f).ASID = some q → own q

section View

variable {own : Fin n → Prop} [DecidablePred own] {taken : Nat} {b : Board n} {s s' : Sys n}
  {p q : Fin n} {c : Control} {hi : Word} {old : State} {back : Back}

@[simp] lemma view_control (hp : own p) : (s.view own taken).control p = s.control p := if_pos hp

@[simp] lemma view_kuseg2PT (hp : own p) : (s.view own taken).kuseg2PT p = s.kuseg2PT p :=
  if_pos hp

@[simp] lemma view_kuseg3PT : (s.view own taken).kuseg3PT = s.kuseg3PT := rfl

@[simp] lemma view_frameSwapPool : (s.view own taken).frameSwapPool = s.frameSwapPool := rfl

@[simp] lemma view_nextFrame : (s.view own taken).nextFrame = s.nextFrame := rfl

@[simp] lemma view_disk : (s.view own taken).disk = s.disk := rfl

@[simp] lemma view_ram : (s.view own taken).ram = s.ram := rfl

@[simp] lemma view_sema4 : (s.view own taken).sema4 = s.sema4 := rfl

lemma ite_update {α : Type*} (hp : own p) (f g : Fin n → α) (x : α) :
    (fun q => if own q then update f p x q else g q) =
      update (fun q => if own q then f q else g q) p x := by
  funext q
  by_cases hq : q = p
  · subst hq
    simp [hp]
  · simp [hq]

lemma ite_branches {α β : Type*} (f : α → β) {P : Prop} [Decidable P] {x y : α} {x' y' : β}
    (hx : P → f x = x') (hy : ¬ P → f y = y') :
    f (if P then x else y) = if P then x' else y' :=
  (apply_ite f P x y).trans (ite_congr rfl hx hy)

lemma view_goto (hp : own p) :
    (s.goto p c).view own taken = (s.view own taken).goto p c := by
  simp only [view, goto]
  rw [ite_update hp]

lemma view_passeren (m : Sem) :
    (s.passeren m p).view own taken = (s.view own taken).passeren m p := rfl

lemma view_search (hp : own p) : (s.view own taken).search p hi = s.search p hi := by
  simp only [search, view_kuseg2PT hp, view_kuseg3PT]

lemma view_translate (hp : own p) (store : Bool) :
    (s.view own taken).translate b p hi store = s.translate b p hi store := by
  have hlookup : (s.view own taken).lookup p hi = s.lookup p hi := by
    simp only [lookup, view_search hp]
    rfl
  simp only [translate, hlookup]

lemma view_refill (hp : own p) :
    (s.refill p hi).view own taken = (s.view own taken).refill p hi := by
  have htlb : (s.view own taken).tlb = s.tlb := rfl
  simp only [refill, view_search hp, htlb]
  split <;> rfl

lemma view_fault (hp : own p) {st : State} {cause : Word} :
    (s.fault p st hi cause back).view own taken =
      (s.view own taken).fault p st hi cause back := view_goto hp

lemma view_ioStep (hp : own p) {job : Job} {control : IoStage → Control} {done : Control}
    (io : IoStage) :
    (s.ioStep p job control done io).map (view own taken) =
      (s.view own taken).ioStep p job control done io := by
  cases io with
  | seek => exact congrArg some (view_goto hp)
  | transfer => exact ite_branches _ (fun _ => congrArg some (view_goto hp)) fun _ => rfl
  | release => exact ite_branches _ (fun _ => congrArg some (view_goto hp)) fun _ => rfl

lemma view_enterTlb (hp : own p) :
    (s.enterTlb p old back).view own taken = (s.view own taken).enterTlb p old back :=
  ite_branches (view own taken) (fun _ => view_goto hp) fun _ => view_goto hp

lemma view_kuseg2 (hq : own q) (s : Sys n) (x : Fin maxKuseg → Pte) (tlb : List Pte) :
    { s with kuseg2PT := update s.kuseg2PT q x, tlb }.view own taken =
      { s.view own taken with
        kuseg2PT := update (s.view own taken).kuseg2PT q x, tlb } := by
  simp only [view]
  rw [ite_update hq]

lemma view_bootOut (hp : own p) (hs : s.Within own) (frame : Fin poolSize) :
    (s.bootOut p old back frame).map (view own taken) =
      (s.view own taken).bootOut p old back frame := by
  refine ite_branches _ (fun _ => ?_) fun _ => ite_branches _ (fun _ => ?_) fun _ => ?_
  · rw [view_frameSwapPool]
    cases procOf n (s.frameSwapPool frame).ASID with
    | none => rfl
    | some q =>
      cases entryOf (s.frameSwapPool frame).pageNum with
      | none => rfl
      | some i => exact congrArg some (view_goto hp)
  · rw [view_frameSwapPool]
    cases hq : procOf n (s.frameSwapPool frame).ASID with
    | none => rfl
    | some q =>
      have hq : own q := hs _ _ hq
      cases entryOf (s.frameSwapPool frame).pageNum with
      | none => rfl
      | some i =>
        refine congrArg some ?_
        rw [view_goto hp, view_passeren, view_kuseg2 hq, view_kuseg2PT hq]
        rfl
  · exact congrArg some (view_goto hp)

lemma view_takeFrame (hp : own p) (hs : s.Within own) :
    (s.takeFrame p old back).map (view own taken) = (s.view own taken).takeFrame p old back := by
  rw [takeFrame, takeFrame, view_nextFrame]
  cases frameOf (s.nextFrame + 1) with
  | none => rfl
  | some frame =>
    refine ite_branches _ (fun _ => ?_) fun _ => congrArg some (view_goto hp)
    exact view_bootOut (s := { s with nextFrame := s.nextFrame + 1 }) hp hs frame

lemma view_checkTlb (hp : own p) (hs : s.Within own) (input : Option Word) :
    (s.checkTlb p old back input).map (view own taken) =
      (s.view own taken).checkTlb p old back input := by
  have hrecheck : (s.view own taken).recheck p (pageOf old.sAsid) input =
    s.recheck p (pageOf old.sAsid) input := rfl
  refine ite_branches _ (fun _ => ?_) fun _ => view_takeFrame hp hs
  rw [hrecheck]
  cases s.recheck p (pageOf old.sAsid) input with
  | none => exact congrArg some (view_goto hp)
  | some entryLo =>
    exact ite_branches _ (fun _ => congrArg some (view_goto hp)) fun _ => view_takeFrame hp hs

lemma view_placePage (hp : own p) (segment page : Nat) (frame : Fin poolSize) :
    (s.placePage b p segment page frame).map (view own taken) =
      (s.view own taken).placePage b p segment page frame := by
  refine ite_branches _ (fun _ => ?_) fun _ => ite_branches _ (fun _ => ?_) fun _ => rfl
  · cases procOf n (asidOf (entryHi p)) with
    | none => rfl
    | some q => cases entryOf page <;> rfl
  · rw [procOf_asid b.procCnt_le]
    cases entryOf page with
    | none => rfl
    | some i =>
      refine congrArg some ?_
      rw [view_kuseg2 hp, view_kuseg2PT hp]

lemma view_installPage (hp : own p) (frame : Fin poolSize) :
    (s.installPage b p old back frame).view own taken =
      (s.view own taken).installPage b p old back frame := by
  have hplace (record : SwapEntry) :
      ({ s with frameSwapPool := update s.frameSwapPool frame record }.placePage b p
        (segmentOf old.sAsid) (pageOf old.sAsid) frame).map (view own taken) =
      { s.view own taken with
        frameSwapPool := update (s.view own taken).frameSwapPool frame record }.placePage b p
        (segmentOf old.sAsid) (pageOf old.sAsid) frame := view_placePage hp _ _ _
  unfold installPage
  dsimp only at hplace ⊢
  rw [← hplace]
  cases placePage b _ p (segmentOf old.sAsid) (pageOf old.sAsid) frame with
  | none => exact view_goto hp
  | some t => exact view_goto hp

lemma view_userTlbHandler (hp : own p) (hs : s.Within own) (input : Option Word)
    (stage : TlbStage) :
    (s.userTlbHandler b p old back input stage).map (view own taken) =
      (s.view own taken).userTlbHandler b p old back input stage := by
  cases stage with
  | enter => exact congrArg some (view_enterTlb hp)
  | check => exact view_checkTlb hp hs input
  | boot frame victim io =>
    rw [userTlbHandler, userTlbHandler]
    exact view_ioStep hp io
  | booted frame => exact congrArg some (view_goto hp)
  | load frame io =>
    rw [userTlbHandler, userTlbHandler]
    exact view_ioStep hp io
  | install frame => exact congrArg some (view_installPage hp frame)
  | leave => cases back <;> exact congrArg some (view_goto hp)

lemma view_readTape (hp : own p) (i : Nat) (input : Word) (stage : TapeStage) :
    (s.readTape b p i input stage).map (view own taken) =
      (s.view own taken).readTape b p i input stage := by
  have hgoto {t : Sys n} {c : Control} :
      (some (t.goto p c)).map (view own taken) = some ((t.view own taken).goto p c) :=
    congrArg some (view_goto hp)
  cases stage with
  | read => exact ite_branches _ (fun _ => hgoto) fun _ => hgoto
  | io io =>
    rw [readTape, readTape]
    exact view_ioStep hp io
  | next => exact ite_branches _ (fun _ => hgoto) fun _ => hgoto

lemma view_service (hp : own p) (input : Word) :
    (s.service p old input).view own taken = (s.view own taken).service p old input := by
  rw [service, service]
  cases userSyscallHandler old <;> exact view_goto hp

lemma view_readChar (hp : own p) {pr : Print} (stage : PrintStage) (input : Option Word)
    {next : Sys n → Word → Sys n}
    (hnext : ∀ (s : Sys n) w, (next s w).view own taken = next (s.view own taken) w) :
    (s.readChar b p pr stage input next).view own taken =
      (s.view own taken).readChar b p pr stage input next := by
  refine ite_branches (view own taken) (fun _ => ?_) fun _ => ?_
  · rw [view_translate hp, ← view_refill hp]
    cases s.translate b p (accessHi p pr.s) false with
    | error cause => exact view_fault hp
    | ok frame => exact hnext _ _
  · cases input with
    | none => exact view_goto hp
    | some w => exact hnext _ _

lemma view_writeToTerminal (hp : own p) {pr : Print} (input : Option Word) (stage : PrintStage) :
    (s.writeToTerminal b p pr input stage).map (view own taken) =
      (s.view own taken).writeToTerminal b p pr input stage := by
  cases stage with
  | test =>
    refine congrArg some (view_readChar hp .test input fun t w => ?_)
    exact ite_branches (view own taken) (fun _ => view_goto hp) fun _ => view_goto hp
  | send => exact congrArg some (view_readChar hp .send input fun t w => view_goto hp)
  | wait =>
    cases input with
    | none => rfl
    | some status =>
      exact ite_branches _ (fun _ => congrArg some (view_goto hp)) fun _ =>
        congrArg some (view_goto hp)

lemma view_run (hp : own p) (hs : s.Within own) (input : Option Word) :
    (s.run b p input).map (view own taken) = (s.view own taken).run b p input := by
  rw [run, run, view_control hp]
  cases s.control p with
  | user st => rfl
  | readTape i stage =>
    cases input with
    | none => rfl
    | some w => exact view_readTape hp i w stage
  | service old =>
    cases input with
    | none => rfl
    | some w => exact congrArg some (view_service hp w)
  | print pr stage => exact view_writeToTerminal hp input stage
  | ldst st => exact congrArg some (view_goto hp)
  | tlb old back stage => exact view_userTlbHandler hp hs input stage
  | terminate =>
    refine congrArg some ((view_goto hp).trans ?_)
    simp only [view, Int.add_right_comm]
  | ending => exact congrArg some (view_goto hp)
  | dead => rfl
  | lost => rfl

lemma view_access (hp : own p) {st : State} {va : Addr} {op : Op} :
    (s.access b p st va op).view own taken = (s.view own taken).access b p st va op := by
  cases op with
  | load =>
    rw [access, access, view_translate hp, ← view_refill hp]
    cases s.translate b p (accessHi p va) false with
    | error cause => exact view_fault hp
    | ok frame => rfl
  | store v =>
    rw [access, access, view_translate hp, ← view_refill hp]
    cases s.translate b p (accessHi p va) true with
    | error cause => exact view_fault hp
    | ok frame => rfl

lemma view_inUser (hp : own p) : (s.view own taken).InUser p ↔ s.InUser p := by
  rw [InUser, InUser, view_control hp]

/-- A step of a process that has started is a step of the view. -/
theorem view_step {e : Event n} (hp : ∀ p ∈ e.process, own p) (hs : s.Within own) :
    (s.step b e).map (view own taken) = (s.view own taken).step b e := by
  cases e with
  | access p st va op =>
    have hp : own p := hp p rfl
    simp only [step, view_inUser hp]
    exact ite_branches _ (fun _ => congrArg some (view_access hp)) fun _ => rfl
  | syscall p st =>
    have hp : own p := hp p rfl
    simp only [step, view_inUser hp]
    exact ite_branches _ (fun _ => congrArg some (view_goto hp)) fun _ => rfl
  | trap p =>
    have hp : own p := hp p rfl
    simp only [step, view_inUser hp]
    exact ite_branches _ (fun _ => congrArg some (view_goto hp)) fun _ => rfl
  | run p input => exact ite_branches _ (fun _ => rfl) fun _ => view_run (hp p rfl) hs input
  | disk =>
    simp only [step, view_disk, view_ram]
    cases s.disk.complete s.ram <;> rfl
  | forget i => rfl

end View

section Effect

variable {own : Fin n → Prop} {b : Board n} {s s' t : Sys n} {p q : Fin n} {c : Control}
  {old : State} {back : Back} {input : Option Word} {e : Event n}

/-! ### What a step leaves alone -/

/-- `p` has gone on, and not to its V of `masterSema4`. -/
structure GoesOn (s : Sys n) (p : Fin n) (s' : Sys n) : Prop where
  masterSema4 : s'.masterSema4 = s.masterSema4
  control : ∃ c, ¬ c.Released ∧ s'.control = update s.control p c

lemma goesOn_goto (hc : ¬ c.Released) (hmaster : t.masterSema4 = s.masterSema4)
    (hcontrol : t.control = s.control) : s.GoesOn p (t.goto p c) :=
  ⟨hmaster, c, hc, by rw [← hcontrol]; rfl⟩

lemma ioStep_goesOn {job : Job} {control : IoStage → Control} {done : Control} {io : IoStage}
    (hcontrol : ∀ io, ¬ (control io).Released) (hdone : ¬ done.Released)
    (h : s.ioStep p job control done io = some s') : s.GoesOn p s' := by
  unfold ioStep at h
  cases io with
  | seek =>
    obtain rfl := Option.some.inj h
    exact goesOn_goto (hcontrol _) rfl rfl
  | transfer =>
    dsimp only at h
    split_ifs at h
    obtain rfl := Option.some.inj h
    exact goesOn_goto (hcontrol _) rfl rfl
  | release =>
    dsimp only at h
    split_ifs at h
    obtain rfl := Option.some.inj h
    exact goesOn_goto hdone rfl rfl

lemma takeFrame_goesOn (h : s.takeFrame p old back = some s') : s.GoesOn p s' := by
  obtain ⟨frame, -, h⟩ := Option.bind_eq_some_iff.mp h
  dsimp only at h
  split_ifs at h
  · unfold bootOut at h
    dsimp only at h
    split_ifs at h
    · obtain ⟨q, -, h⟩ := Option.bind_eq_some_iff.mp h
      obtain ⟨i, -, h⟩ := Option.bind_eq_some_iff.mp h
      obtain rfl := Option.some.inj h
      exact goesOn_goto (by exact not_false) rfl rfl
    · obtain ⟨q, -, h⟩ := Option.bind_eq_some_iff.mp h
      obtain ⟨i, -, h⟩ := Option.bind_eq_some_iff.mp h
      obtain rfl := Option.some.inj h
      exact goesOn_goto (by exact not_false) rfl rfl
    · obtain rfl := Option.some.inj h
      exact goesOn_goto (by exact not_false) rfl rfl
  · obtain rfl := Option.some.inj h
    exact goesOn_goto (by exact not_false) rfl rfl

lemma checkTlb_goesOn (h : s.checkTlb p old back input = some s') : s.GoesOn p s' := by
  unfold checkTlb at h
  split_ifs at h
  · cases hlo : s.recheck p (pageOf old.sAsid) input with
    | none =>
      rw [hlo] at h
      obtain rfl := Option.some.inj h
      exact goesOn_goto (by exact not_false) rfl rfl
    | some lo =>
      rw [hlo] at h
      dsimp only at h
      split_ifs at h
      · obtain rfl := Option.some.inj h
        exact goesOn_goto (by exact not_false) rfl rfl
      · exact takeFrame_goesOn h
  · exact takeFrame_goesOn h

lemma setPte_masterSema4 (s : Sys n) (u : UPage n) (x : Pte) :
    (s.setPte u x).masterSema4 = s.masterSema4 := by
  cases u <;> rfl

lemma installPage_goesOn {frame : Fin poolSize} :
    s.GoesOn p (s.installPage b p old back frame) := by
  by_cases hseg : segmentOf old.sAsid = kuseg3 ∨ segmentOf old.sAsid = kuseg2
  · cases hpage : faultPage p old with
    | none =>
      rw [installPage_trap hseg hpage]
      exact goesOn_goto (by exact not_false) rfl rfl
    | some u =>
      rw [installPage_eq hpage]
      exact goesOn_goto (by exact not_false) (setPte_masterSema4 _ u _) (setPte_control _ u _)
  · rw [installPage_other hseg]
    exact goesOn_goto (by exact not_false) rfl rfl

lemma userTlbHandler_goesOn {stage : TlbStage}
    (h : s.userTlbHandler b p old back input stage = some s') : s.GoesOn p s' := by
  cases stage with
  | enter =>
    obtain rfl := Option.some.inj h
    unfold enterTlb
    dsimp only
    split_ifs <;> exact goesOn_goto (by exact not_false) rfl rfl
  | check => exact checkTlb_goesOn h
  | boot frame victim io =>
    rw [userTlbHandler] at h
    exact ioStep_goesOn (fun _ => by exact not_false) (by exact not_false) h
  | booted frame =>
    obtain rfl := Option.some.inj h
    exact goesOn_goto (by exact not_false) rfl rfl
  | load frame io =>
    rw [userTlbHandler] at h
    exact ioStep_goesOn (fun _ => by exact not_false) (by exact not_false) h
  | install frame =>
    obtain rfl := Option.some.inj h
    exact installPage_goesOn
  | leave =>
    cases back <;> obtain rfl := Option.some.inj h <;>
      exact goesOn_goto (by exact not_false) rfl rfl

lemma readTape_goesOn {i : Nat} {w : Word} {stage : TapeStage}
    (h : s.readTape b p i w stage = some s') : s.GoesOn p s' := by
  cases stage with
  | read =>
    unfold readTape at h
    dsimp only at h
    split_ifs at h <;> obtain rfl := Option.some.inj h <;>
      exact goesOn_goto (by exact not_false) rfl rfl
  | io io =>
    rw [readTape] at h
    exact ioStep_goesOn (fun _ => by exact not_false) (by exact not_false) h
  | next =>
    unfold readTape at h
    dsimp only at h
    split_ifs at h <;> obtain rfl := Option.some.inj h <;>
      exact goesOn_goto (by exact not_false) rfl rfl

lemma service_goesOn {w : Word} : s.GoesOn p (s.service p old w) := by
  unfold service
  split <;> exact goesOn_goto (by exact not_false) rfl rfl

lemma refill_masterSema4 {hi : Word} : (s.refill p hi).masterSema4 = s.masterSema4 := by
  unfold refill
  split <;> rfl

lemma refill_control {hi : Word} : (s.refill p hi).control = s.control := by
  unfold refill
  split <;> rfl

lemma fault_goesOn {st : State} {hi cause : Word} :
    s.GoesOn p ((s.refill p hi).fault p st hi cause back) :=
  goesOn_goto (by exact not_false) refill_masterSema4 refill_control

lemma readChar_goesOn {pr : Print} {stage : PrintStage} {next : Sys n → Word → Sys n}
    (hnext : ∀ t w, t.masterSema4 = s.masterSema4 → t.control = s.control →
      s.GoesOn p (next t w)) : s.GoesOn p (s.readChar b p pr stage input next) := by
  unfold readChar
  dsimp only
  split_ifs
  · split
    · exact hnext _ _ refill_masterSema4 refill_control
    · exact fault_goesOn
  · split
    · exact goesOn_goto (by exact not_false) rfl rfl
    · exact hnext _ _ rfl rfl

lemma writeToTerminal_goesOn {pr : Print} {stage : PrintStage}
    (h : s.writeToTerminal b p pr input stage = some s') : s.GoesOn p s' := by
  cases stage with
  | test =>
    obtain rfl := Option.some.inj h
    refine readChar_goesOn fun t w hmaster hcontrol => ?_
    split_ifs <;> exact goesOn_goto (by exact not_false) hmaster hcontrol
  | send =>
    obtain rfl := Option.some.inj h
    exact readChar_goesOn fun t w hmaster hcontrol =>
      goesOn_goto (by exact not_false) hmaster hcontrol
  | wait =>
    obtain ⟨status, -, h⟩ := Option.bind_eq_some_iff.mp h
    dsimp only at h
    split_ifs at h <;> obtain rfl := Option.some.inj h <;>
      exact goesOn_goto (by exact not_false) rfl rfl

lemma run_goesOn (hterminate : s.control p ≠ .terminate) (hending : s.control p ≠ .ending)
    (h : s.run b p input = some s') : s.GoesOn p s' := by
  unfold run at h
  cases hcp : s.control p with
  | user st => simp [hcp] at h
  | readTape i stage =>
    simp only [hcp] at h
    obtain ⟨w, -, h⟩ := Option.bind_eq_some_iff.mp h
    exact readTape_goesOn h
  | service old =>
    simp only [hcp] at h
    obtain ⟨w, -, h⟩ := Option.bind_eq_some_iff.mp h
    obtain rfl := Option.some.inj h
    exact service_goesOn
  | print pr stage =>
    simp only [hcp] at h
    exact writeToTerminal_goesOn h
  | ldst st =>
    simp only [hcp] at h
    obtain rfl := Option.some.inj h
    exact goesOn_goto (by exact not_false) rfl rfl
  | tlb old back stage =>
    simp only [hcp] at h
    exact userTlbHandler_goesOn h
  | terminate => exact absurd hcp hterminate
  | ending => exact absurd hcp hending
  | dead => simp [hcp] at h
  | lost => simp [hcp] at h

lemma run_ending (hc : s.control p = .ending) (h : s.run b p input = some s') :
    s' = s.goto p .dead := by
  rw [run, hc] at h
  exact (Option.some.inj h).symm

lemma GoesOn.released_iff (h : s.GoesOn p s') (hp : ¬ (s.control p).Released) (q : Fin n) :
    (s'.control q).Released ↔ (s.control q).Released := by
  obtain ⟨c, hc, hcontrol⟩ := h.control
  rw [hcontrol]
  by_cases hq : q = p
  · subst hq
    rw [update_self]
    exact iff_of_false hc hp
  · rw [update_of_ne hq]

lemma InUser.not_released (h : s.InUser p) : ¬ (s.control p).Released := by
  obtain ⟨st, h⟩ := h
  rw [h]
  exact not_false

lemma access_released {st : State} {va : Addr} {op : Op} (hc : s.InUser p) :
    (s.access b p st va op).masterSema4 = s.masterSema4 ∧
      ∀ q, ((s.access b p st va op).control q).Released ↔ (s.control q).Released := by
  have hok : (s.refill p (accessHi p va)).masterSema4 = s.masterSema4 ∧
      ∀ q, ((s.refill p (accessHi p va)).control q).Released ↔ (s.control q).Released :=
    ⟨refill_masterSema4, fun q => by rw [refill_control]⟩
  have herror (cause : Word) :
      s.GoesOn p ((s.refill p (accessHi p va)).fault p st (accessHi p va) cause .user) :=
    fault_goesOn
  unfold access
  cases op with
  | load =>
    dsimp only
    split
    · exact hok
    · exact ⟨(herror _).masterSema4, (herror _).released_iff hc.not_released⟩
  | store v =>
    dsimp only
    split
    · exact hok
    · exact ⟨(herror _).masterSema4, (herror _).released_iff hc.not_released⟩

/-- Only the V of `masterSema4` changes its value. -/
lemma step_released (hends : ¬ Phase3.Ends s e) (h : s.step b e = some s') :
    s'.masterSema4 = s.masterSema4 ∧
      ∀ q, (s'.control q).Released ↔ (s.control q).Released := by
  have hgoes {p : Fin n} (hp : ¬ (s.control p).Released) (hg : s.GoesOn p s') :=
    And.intro hg.masterSema4 (hg.released_iff hp)
  unfold step at h
  cases e with
  | access p st va op =>
    dsimp only at h
    split_ifs at h with hc
    obtain rfl := Option.some.inj h
    exact access_released hc.1
  | syscall p st =>
    dsimp only at h
    split_ifs at h with hc
    obtain rfl := Option.some.inj h
    exact hgoes hc.1.not_released (goesOn_goto (by exact not_false) rfl rfl)
  | trap p =>
    dsimp only at h
    split_ifs at h with hc
    obtain rfl := Option.some.inj h
    exact hgoes hc.not_released (goesOn_goto (by exact not_false) rfl rfl)
  | run p input =>
    dsimp only at h
    split_ifs at h
    by_cases hending : s.control p = .ending
    · obtain rfl := run_ending hending h
      refine ⟨rfl, fun q => ?_⟩
      by_cases hq : q = p
      · subst hq
        rw [goto_control_self, hending]
        exact Iff.rfl
      · rw [goto_control_of_ne _ _ _ hq]
    · refine hgoes (fun hc => ?_) (run_goesOn hends hending h)
      cases hcp : s.control p with
      | ending => exact hending hcp
      | dead => simp [run, hcp] at h
      | _ =>
        rw [hcp] at hc
        exact hc
  | disk =>
    obtain ⟨⟨disk, ram⟩, -, h⟩ := Option.bind_eq_some_iff.mp h
    obtain rfl := Option.some.inj h
    exact ⟨rfl, fun _ => Iff.rfl⟩
  | forget i =>
    obtain rfl := Option.some.inj h
    exact ⟨rfl, fun _ => Iff.rfl⟩

lemma step_ends (hends : Phase3.Ends s e) (h : s.step b e = some s') :
    ∃ p, e.process = some p ∧ s.control p = .terminate ∧
      s' = { s with masterSema4 := s.masterSema4 + 1 }.goto p .ending := by
  cases e with
  | run p input =>
    refine ⟨p, rfl, hends, ?_⟩
    have hc : s.control p = .terminate := hends
    simp only [step] at h
    split_ifs at h
    rw [run, hc] at h
    exact (Option.some.inj h).symm
  | _ => exact hends.elim

/-- The page tables of the processes outside `own` stay as `test` has built them. -/
structure Apart (own : Fin n → Prop) (s s' : Sys n) : Prop where
  within : s'.Within own
  kuseg2PT : ∀ q, ¬ own q → s'.kuseg2PT q = s.kuseg2PT q

lemma Apart.of_eq (hs : s.Within own) (hpool : s'.frameSwapPool = s.frameSwapPool)
    (htables : s'.kuseg2PT = s.kuseg2PT) : Apart own s s' :=
  ⟨fun f => hpool ▸ hs f, fun q _ => congrFun htables q⟩

lemma Within.update (hs : s.Within own) (hn : n ≤ 63) (hp : own p) (frame : Fin poolSize)
    (old : State) (f : Fin poolSize) (q : Fin n)
    (hq : procOf n (update s.frameSwapPool frame (faultRecord p old) f).ASID = some q) :
    own q := by
  by_cases hf : f = frame
  · subst hf
    rw [update_self, faultRecord, procOf_asid hn] at hq
    obtain rfl := Option.some.inj hq
    exact hp
  · rw [update_of_ne hf] at hq
    exact hs f q hq

theorem Moves.apart (hm : s.Moves b e s') (hp : ∀ p ∈ e.process, own p) (hs : s.Within own) :
    Apart own s s' := by
  cases hm with
  | @store p st va v frame hc hf =>
    obtain ⟨tlb, hrefill, -⟩ := s.refill_eq p (accessHi p va)
    rw [hrefill]
    exact .of_eq hs rfl rfl
  | @fault e p st va cause back write hc hseg hf hfree =>
    obtain ⟨tlb, hrefill, -⟩ := s.refill_eq p (accessHi p va)
    rw [hrefill]
    exact .of_eq hs rfl rfl
  | @boot p input old back frame u hc hblocked hmissing hframe hocc hpage =>
    cases u with
    | shared i => exact .of_eq hs rfl rfl
    | priv q i =>
      refine ⟨hs, fun q' hq' => update_of_ne ?_ _ _⟩
      rintro rfl
      obtain ⟨-, hasid, -⟩ := page_priv hpage
      have hproc : procOf n (s.frameSwapPool frame).ASID = some q' := by
        rw [hasid, ← asidOf_entryHi b.procCnt_le, procOf_asid b.procCnt_le]
      exact hq' (hs frame q' hproc)
  | @install p input old back frame u hc hblocked hpage =>
    have hp : own p := hp p rfl
    cases u with
    | shared i => exact ⟨hs.update b.procCnt_le hp frame old, fun q _ => rfl⟩
    | priv q i =>
      refine ⟨hs.update b.procCnt_le hp frame old, fun q' hq' => update_of_ne ?_ _ _⟩
      rintro rfl
      exact hq' ((faultPage_priv hpage).1 ▸ hp)
  | @installOther p input old back frame hc hblocked hseg
  | @installTrap p input old back frame hc hblocked hseg hpage =>
    exact ⟨hs.update b.procCnt_le (hp p rfl) frame old, fun q _ => rfl⟩
  | _ => exact .of_eq hs rfl rfl

end Effect

end Sys

end Kaya.Support
