import Kaya.Lib.Run
import Kaya.Support.Words

/-!
# What a step of the support level can do

One constructor for each kind of step, with everything the step changes. What the invariants
are about is read off the control of a process: the mutexes it has P'd, the disk operation it
is in and the page it has faulted on.
-/

namespace Kaya.Support

open Function Linked

variable {n : Nat}

/-! ### Kinds of events -/

def Op.writes : Op → Bool
  | .load => false
  | .store _ => true

/-- A load, or a change of the TLB. -/
def Event.Looks : Event n → Prop
  | .access _ _ _ .load | .forget _ => True
  | _ => False

/-- `p` does something other than an access. -/
def Event.Acts (p : Fin n) : Event n → Prop
  | .syscall q _ | .trap q | .run q _ => q = p
  | _ => False

/-! ### What a process has -/

/-- The mutex of the terminal of `p`. -/
def terminalMutex (p : Fin n) : Sem := .deviceSema4 (terminalSem (asidOf (entryHi p)))

namespace TlbStage

/-- Between P and V of `swapmutex`. -/
def InSwap : TlbStage → Prop
  | .enter | .leave => False
  | _ => True

instance (stage : TlbStage) : Decidable stage.InSwap := by
  cases stage <;> unfold InSwap <;> infer_instance

/-- The disk operation that is under way. -/
def io (b : Board n) (p : Fin n) (old : State) : TlbStage → Option (Job × IoStage)
  | .boot frame victim io => some (bootJob (b.getFrameAddr frame) victim, io)
  | .load frame io => some (loadJob (b.getFrameAddr frame) (asidOf (entryHi p))
      (segmentOf old.sAsid) (pageOf old.sAsid), io)
  | _ => none

end TlbStage

namespace Control

/-- The disk operation between P and V of disk 0. -/
def io (b : Board n) (p : Fin n) : Control → Option (Job × IoStage)
  | .readTape i (.io io) => some (tapeJob (asidOf (entryHi p)) i, io)
  | .tlb old _ stage => stage.io b p old
  | _ => none

/-- In the loop of `WriteToTerminal`, or in a TLB exception out of it. -/
def InPrint : Control → Prop
  | .print _ _ | .tlb _ (.print _ _) _ => True
  | _ => False

def InSwap : Control → Prop
  | .tlb _ _ stage => stage.InSwap
  | _ => False

def InTape : Control → Prop
  | .readTape _ _ => True
  | _ => False

instance (c : Control) : Decidable c.InPrint := by
  unfold InPrint
  split <;> infer_instance

instance (c : Control) : Decidable c.InSwap := by
  cases c <;> unfold InSwap <;> infer_instance

instance (c : Control) : Decidable c.InTape := by
  unfold InTape
  split <;> infer_instance

/-- The process has P'd the mutex and not V'd it yet. -/
def Holds (b : Board n) (p : Fin n) (c : Control) (m : Sem) : Prop :=
  m = .swapmutex ∧ c.InSwap ∨ m = diskMutex ∧ (c.io b p).isSome ∨ m = terminalMutex p ∧ c.InPrint

instance (b : Board n) (p : Fin n) (c : Control) (m : Sem) : Decidable (c.Holds b p m) :=
  inferInstanceAs (Decidable (_ ∨ _ ∨ _))

end Control

/-- The stages of a disk operation of `p`. -/
inductive Stages (b : Board n) (p : Fin n) : Job → (IoStage → Control) → Prop
  | tape (i : Nat) : Stages b p (tapeJob (asidOf (entryHi p)) i) fun io => .readTape i (.io io)
  | boot (old : State) (back : Back) (frame : Fin poolSize) (victim : SwapEntry) :
      Stages b p (bootJob (b.getFrameAddr frame) victim) fun io =>
        .tlb old back (.boot frame victim io)
  | load (old : State) (back : Back) (frame : Fin poolSize) :
      Stages b p (loadJob (b.getFrameAddr frame) (asidOf (entryHi p)) (segmentOf old.sAsid)
        (pageOf old.sAsid)) fun io => .tlb old back (.load frame io)

lemma Stages.io_eq {b : Board n} {p : Fin n} {job : Job} {control : IoStage → Control}
    (h : Stages b p job control) (stage : IoStage) :
    (control stage).io b p = some (job, stage) := by
  cases h <;> rfl

/-! ### Pages -/

/-- A private page or a page of the shared segment, by its index in the page table. -/
inductive UPage (n : Nat)
  | priv (p : Fin n) (i : Fin maxKuseg)
  | shared (i : Fin maxKuseg)
  deriving DecidableEq

/-- The page that a record of the swap pool names. -/
def SwapEntry.page (n : Nat) (r : SwapEntry) : Option (UPage n) :=
  if r.segNum = kuseg3 then do
    let _ ← procOf n r.ASID
    return .shared (← entryOf r.pageNum)
  else if r.segNum = kuseg2 then do
    let q ← procOf n r.ASID
    return .priv q (← entryOf r.pageNum)
  else none

/-- The record names no page: the frame is free, or the segment is neither of the two. -/
def SwapEntry.Vacant (r : SwapEntry) : Prop :=
  r.ASID = unoccupiedFrame ∨ r.segNum ≠ kuseg3 ∧ r.segNum ≠ kuseg2

/-- The page whose fault has left the state `old` in the old area. -/
def faultPage (p : Fin n) (old : State) : Option (UPage n) :=
  if segmentOf old.sAsid = kuseg3 then (entryOf (pageOf old.sAsid)).map .shared
  else if segmentOf old.sAsid = kuseg2 then (entryOf (pageOf old.sAsid)).map (.priv p)
  else none

/-- The record of the page that `p` has faulted on. -/
def faultRecord (p : Fin n) (old : State) : SwapEntry :=
  ⟨asidOf (entryHi p), segmentOf old.sAsid, pageOf old.sAsid⟩

namespace Sys

def pte (s : Sys n) : UPage n → Pte
  | .priv p i => s.kuseg2PT p i
  | .shared i => s.kuseg3PT i

def setPte (s : Sys n) (u : UPage n) (e : Pte) : Sys n :=
  match u with
  | .priv p i => { s with kuseg2PT := update s.kuseg2PT p (update (s.kuseg2PT p) i e), tlb := [] }
  | .shared i => { s with kuseg3PT := update s.kuseg3PT i e, tlb := [] }

section frame

variable (s : Sys n) (p : Fin n) (u : UPage n) (x : Pte) (c : Control) {m m' : Sem}

@[simp] lemma setPte_control : (s.setPte u x).control = s.control := by cases u <;> rfl

@[simp] lemma setPte_sema4 : (s.setPte u x).sema4 = s.sema4 := by cases u <;> rfl

@[simp] lemma setPte_disk : (s.setPte u x).disk = s.disk := by cases u <;> rfl

@[simp] lemma setPte_ram : (s.setPte u x).ram = s.ram := by cases u <;> rfl

@[simp] lemma setPte_nextFrame : (s.setPte u x).nextFrame = s.nextFrame := by cases u <;> rfl

@[simp] lemma setPte_frameSwapPool : (s.setPte u x).frameSwapPool = s.frameSwapPool := by
  cases u <;> rfl

@[simp] lemma setPte_tlb : (s.setPte u x).tlb = [] := by cases u <;> rfl

@[simp] lemma passeren_sema4 (m : Sem) : (s.passeren m p).sema4 m = (s.sema4 m).passeren p :=
  update_self _ _ _

@[simp] lemma verhogen_sema4 (m : Sem) : (s.verhogen m).sema4 m = (s.sema4 m).verhogen :=
  update_self _ _ _

lemma passeren_sema4_of_ne (h : m' ≠ m) : (s.passeren m p).sema4 m' = s.sema4 m' :=
  update_of_ne h _ _

lemma verhogen_sema4_of_ne (h : m' ≠ m) : (s.verhogen m).sema4 m' = s.sema4 m' :=
  update_of_ne h _ _

@[simp] lemma goto_sema4 : (s.goto p c).sema4 = s.sema4 := rfl

@[simp] lemma goto_control_self : (s.goto p c).control p = c := update_self _ _ _

lemma goto_control_of_ne {q : Fin n} (h : q ≠ p) : (s.goto p c).control q = s.control q :=
  update_of_ne h _ _

end frame

/-- The re-check of `UserTLBHandler` finds the page missing, or there is none. -/
def Missing (s : Sys n) (p : Fin n) (old : State) (input : Option Word) : Prop :=
  segmentOf old.sAsid = kuseg3 →
    ∃ lo, s.recheck p (pageOf old.sAsid) input = some lo ∧ (lo &&& validMask) >>> validShift = 0

/-- In the event `p` accesses the address `va` in the state `st`, and comes back to `back` after
an exception. -/
def Accesses (s : Sys n) (p : Fin n) (st : State) (va : Addr) (write : Bool) (back : Back) :
    Event n → Prop
  | .access q st' va' op => q = p ∧ st' = st ∧ va' = va ∧ op.writes = write ∧ back = .user ∧
      s.InUser p
  | .run q _ => q = p ∧ write = false ∧ ∃ pr stage, s.control p = .print pr stage ∧
      st = pr.syscallOld ∧ va = pr.s ∧ back = .print pr stage ∧ stage ≠ .wait
  | _ => False

/-- The effect of a step at an event. -/
inductive Moves (b : Board n) (s : Sys n) : Event n → Sys n → Prop
  /-- the TLB loses an entry or gets one from a page table -/
  | look {e : Event n} {tlb : List Pte} (he : e.Looks)
      (htlb : ∀ x ∈ tlb, x ∈ s.tlb ∨ ∃ u, x = s.pte u) : Moves b s e { s with tlb }
  | store {p : Fin n} {st : State} {va : Addr} {v frame : Word} (hc : s.InUser p)
      (hf : s.translate b p (accessHi p va) true = .ok frame) :
      Moves b s (.access p st va (.store v)) { s.refill p (accessHi p va) with
        ram := update s.ram frame (update (s.ram frame) (wordOf va) v) }
  | fault {e : Event n} {p : Fin n} {st : State} {va : Addr} {cause : Word} {back : Back}
      {write : Bool}
      (hc : s.Accesses p st va write back e)
      (hseg : segmentOf va = kuseg2 ∨ segmentOf va = kuseg3)
      (hf : s.translate b p (accessHi p va) write = .error cause)
      (hfree : ¬ s.Blocked p ∨ s.InUser p) :
      Moves b s e ((s.refill p (accessHi p va)).fault p st (accessHi p va) cause back)
  /-- a step that has to do neither with the pager nor with a mutex -/
  | aside {e : Event n} {p : Fin n} {c : Control} (masterSema4 : Int)
      (he : e.Acts p)
      (hholds : ∀ m, (s.control p).Holds b p m ↔ c.Holds b p m)
      (hio : (s.control p).io b p = none) (hio' : c.io b p = none)
      (hswap : ¬ (s.control p).InSwap) (hc : ∀ old back stage, c ≠ .tlb old back stage)
      (htape : c.InTape → (s.control p).InTape)
      (hservice : ∀ old, c = .service old → ∃ st, e = .syscall p st)
      (hfree : ¬ s.Blocked p ∨ s.InUser p) :
      Moves b s e ({ s with masterSema4 }.goto p c)
  /-- SYS18 by a process that has a mutex -/
  | die {p : Fin n} {input : Option Word} (hblocked : ¬ s.Blocked p)
      (hc : (∃ pr stage, s.control p = .print pr stage ∧ stage ≠ .wait ∧
          ¬ (segmentOf pr.s = kuseg2 ∨ segmentOf pr.s = kuseg3) ∧ input = none) ∨
        (∃ old pr stage, s.control p = .tlb old (.print pr stage) .enter ∧
          excCodeOf old.sCause ≠ tlbInvalidLoad ∧ excCodeOf old.sCause ≠ tlbInvalidStore) ∨
        ∃ old back, s.control p = .tlb old back .check ∧ segmentOf old.sAsid = kuseg3 ∧
          s.recheck p (pageOf old.sAsid) input = none) :
      Moves b s (.run p input) (s.goto p .terminate)
  | printStart {p : Fin n} {input : Option Word} {old : State} {pr : Print}
      (hc : s.control p = .service old) (hblocked : ¬ s.Blocked p) :
      Moves b s (.run p input) ((s.passeren (terminalMutex p) p).goto p (.print pr .test))
  | printEnd {p : Fin n} {input : Option Word} {st : State} {pr : Print} {stage : PrintStage}
      {tlb : List Pte} (htlb : ∀ x ∈ tlb, x ∈ s.tlb ∨ ∃ u, x = s.pte u)
      (hc : s.control p = .print pr stage) (hblocked : ¬ s.Blocked p) :
      Moves b s (.run p input)
        (({ s with tlb }.verhogen (terminalMutex p)).goto p (.ldst st))
  | printNext {p : Fin n} {input : Option Word} {pr pr' : Print} {stage stage' : PrintStage}
      {tlb : List Pte} (htlb : ∀ x ∈ tlb, x ∈ s.tlb ∨ ∃ u, x = s.pte u)
      (hc : s.control p = .print pr stage) (hblocked : ¬ s.Blocked p) :
      Moves b s (.run p input) ({ s with tlb }.goto p (.print pr' stage'))
  | tapeStart {p : Fin n} {input : Option Word} {i : Nat}
      (hc : s.control p = .readTape i .read) (hblocked : ¬ s.Blocked p) :
      Moves b s (.run p input) ((s.passeren diskMutex p).goto p (.readTape i (.io .seek)))
  | enter {p : Fin n} {input : Option Word} {old : State} {back : Back}
      (hc : s.control p = .tlb old back .enter) (hblocked : ¬ s.Blocked p)
      (hcode : excCodeOf old.sCause = tlbInvalidLoad ∨ excCodeOf old.sCause = tlbInvalidStore) :
      Moves b s (.run p input) ((s.passeren .swapmutex p).goto p (.tlb old back .check))
  | found {p : Fin n} {input : Option Word} {old : State} {back : Back} {lo : Word}
      (hc : s.control p = .tlb old back .check) (hblocked : ¬ s.Blocked p)
      (hseg : segmentOf old.sAsid = kuseg3)
      (hlo : s.recheck p (pageOf old.sAsid) input = some lo)
      (hvalid : (lo &&& validMask) >>> validShift ≠ 0) :
      Moves b s (.run p input) ((s.verhogen .swapmutex).goto p (.tlb old back .leave))
  /-- a frame that holds no page is taken -/
  | take {p : Fin n} {input : Option Word} {old : State} {back : Back} {frame : Fin poolSize}
      (hc : s.control p = .tlb old back .check) (hblocked : ¬ s.Blocked p)
      (hmissing : s.Missing p old input) (hframe : frameOf (s.nextFrame + 1) = some frame)
      (hvacant : (s.frameSwapPool frame).Vacant) :
      Moves b s (.run p input)
        (({ s with nextFrame := s.nextFrame + 1 }.passeren diskMutex p).goto p
          (.tlb old back (.load frame .seek)))
  /-- the page in the frame is invalidated -/
  | boot {p : Fin n} {input : Option Word} {old : State} {back : Back} {frame : Fin poolSize}
      {u : UPage n} (hc : s.control p = .tlb old back .check) (hblocked : ¬ s.Blocked p)
      (hmissing : s.Missing p old input) (hframe : frameOf (s.nextFrame + 1) = some frame)
      (hoccupied : (s.frameSwapPool frame).ASID ≠ unoccupiedFrame)
      (hpage : (s.frameSwapPool frame).page n = some u) :
      Moves b s (.run p input)
        (({ s with nextFrame := s.nextFrame + 1 }.setPte u (s.pte u).flipValid
          |>.passeren diskMutex p).goto p
          (.tlb old back (.boot frame (s.frameSwapPool frame) .seek)))
  | booted {p : Fin n} {input : Option Word} {old : State} {back : Back} {frame : Fin poolSize}
      (hc : s.control p = .tlb old back (.booted frame)) (hblocked : ¬ s.Blocked p) :
      Moves b s (.run p input)
        ((s.passeren diskMutex p).goto p (.tlb old back (.load frame .seek)))
  /-- the first command of a disk operation -/
  | seek {p : Fin n} {input : Option Word} {job : Job} {control : IoStage → Control}
      (hc : s.control p = control .seek) (hstages : Stages b p job control)
      (hblocked : ¬ s.Blocked p) :
      Moves b s (.run p input)
        ({ s with disk := s.disk.give job.seek }.goto p (control .transfer))
  /-- the second command of a disk operation -/
  | transfer {p : Fin n} {input : Option Word} {job : Job} {control : IoStage → Control}
      (hc : s.control p = control .transfer) (hstages : Stages b p job control)
      (hbusy : s.disk.busy = none) (hblocked : ¬ s.Blocked p) :
      Moves b s (.run p input)
        ({ s with disk := { s.disk with data0 := job.data0 }.give job.command }.goto p
          (control .release))
  | tapeEnd {p : Fin n} {input : Option Word} {i : Nat}
      (hc : s.control p = .readTape i (.io .release)) (hbusy : s.disk.busy = none)
      (hblocked : ¬ s.Blocked p) :
      Moves b s (.run p input) ((s.verhogen diskMutex).goto p (.readTape i .next))
  | bootEnd {p : Fin n} {input : Option Word} {old : State} {back : Back} {frame : Fin poolSize}
      {victim : SwapEntry} (hc : s.control p = .tlb old back (.boot frame victim .release))
      (hbusy : s.disk.busy = none) (hblocked : ¬ s.Blocked p) :
      Moves b s (.run p input) ((s.verhogen diskMutex).goto p (.tlb old back (.booted frame)))
  | loadEnd {p : Fin n} {input : Option Word} {old : State} {back : Back} {frame : Fin poolSize}
      (hc : s.control p = .tlb old back (.load frame .release)) (hbusy : s.disk.busy = none)
      (hblocked : ¬ s.Blocked p) :
      Moves b s (.run p input) ((s.verhogen diskMutex).goto p (.tlb old back (.install frame)))
  | install {p : Fin n} {input : Option Word} {old : State} {back : Back} {frame : Fin poolSize}
      {u : UPage n} (hc : s.control p = .tlb old back (.install frame))
      (hblocked : ¬ s.Blocked p) (hpage : faultPage p old = some u) :
      Moves b s (.run p input)
        (({ s with frameSwapPool := update s.frameSwapPool frame (faultRecord p old) }.setPte u
          ((s.pte u).place (b.getFrameAddr frame)) |>.verhogen .swapmutex).goto p
          (.tlb old back .leave))
  /-- a fault outside the two segments -/
  | installOther {p : Fin n} {input : Option Word} {old : State} {back : Back}
      {frame : Fin poolSize} (hc : s.control p = .tlb old back (.install frame))
      (hblocked : ¬ s.Blocked p)
      (hseg : segmentOf old.sAsid ≠ kuseg3 ∧ segmentOf old.sAsid ≠ kuseg2) :
      Moves b s (.run p input)
        (({ s with frameSwapPool := update s.frameSwapPool frame (faultRecord p old) }.verhogen
          .swapmutex).goto p (.tlb old back .leave))
  /-- the entry of the page is behind the table -/
  | installTrap {p : Fin n} {input : Option Word} {old : State} {back : Back}
      {frame : Fin poolSize} (hc : s.control p = .tlb old back (.install frame))
      (hblocked : ¬ s.Blocked p)
      (hseg : segmentOf old.sAsid = kuseg3 ∨ segmentOf old.sAsid = kuseg2)
      (hpage : faultPage p old = none) :
      Moves b s (.run p input)
        ({ s with frameSwapPool := update s.frameSwapPool frame (faultRecord p old) }.goto p
          .terminate)
  | disk {disk : Disk} {ram : Ram} (hd : s.disk.complete s.ram = some (disk, ram)) :
      Moves b s .disk { s with disk, ram }

variable {b : Board n} {s s' : Sys n} {e : Event n} {p : Fin n} {hi : Word} {x : Pte}
  {input : Option Word} {old : State} {back : Back} {pr : Print}

/-! ### Every step is one of these -/

lemma search_pte (h : s.search p hi = some x) : ∃ u, x = s.pte u := by
  unfold search at h
  split_ifs at h
  · obtain ⟨i, rfl⟩ := (List.mem_ofFn' _ _).mp (List.mem_of_find?_eq_some h)
    exact ⟨.priv p i, rfl⟩
  · obtain ⟨i, rfl⟩ := (List.mem_ofFn' _ _).mp (List.mem_of_find?_eq_some h)
    exact ⟨.shared i, rfl⟩

lemma refill_eq (s : Sys n) (p : Fin n) (hi : Word) : ∃ tlb, s.refill p hi = { s with tlb } ∧
    ∀ x ∈ tlb, x ∈ s.tlb ∨ ∃ u, x = s.pte u := by
  unfold refill
  split
  · exact ⟨s.tlb, rfl, fun x hx => .inl hx⟩
  · refine ⟨_, rfl, fun x hx => ?_⟩
    rcases List.mem_append.mp hx with hx | hx
    · exact .inr (search_pte (Option.mem_toList.mp hx))
    · exact .inl hx

lemma access_moves {st : State} {va : Addr} {op : Op} (hc : s.InUser p)
    (hseg : segmentOf va = kuseg2 ∨ segmentOf va = kuseg3) :
    s.Moves b (.access p st va op) (s.access b p st va op) := by
  unfold access
  cases op with
  | load =>
    dsimp only
    split
    · obtain ⟨tlb, hrefill, htlb⟩ := s.refill_eq p (accessHi p va)
      rw [hrefill]
      exact .look trivial htlb
    · exact .fault ⟨rfl, rfl, rfl, rfl, rfl, hc⟩ hseg ‹_› (.inr hc)
  | store v =>
    dsimp only
    split
    · exact .store hc ‹_›
    · exact .fault ⟨rfl, rfl, rfl, rfl, rfl, hc⟩ hseg ‹_› (.inr hc)

lemma ioStep_moves (control : IoStage → Control) {job : Job} {done : Control} {stage : IoStage}
    (hc : s.control p = control stage) (hstages : Stages b p job control)
    (hblocked : ¬ s.Blocked p) (h : s.ioStep p job control done stage = some s')
    (hend : stage = .release → s.disk.busy = none →
      s.Moves b (.run p input) ((s.verhogen diskMutex).goto p done)) :
    s.Moves b (.run p input) s' := by
  unfold ioStep at h
  cases stage with
  | seek =>
    obtain rfl := Option.some.inj h
    exact .seek hc hstages hblocked
  | transfer =>
    dsimp only at h
    split_ifs at h with hbusy
    obtain rfl := Option.some.inj h
    exact .transfer hc hstages hbusy hblocked
  | release =>
    dsimp only at h
    split_ifs at h with hbusy
    obtain rfl := Option.some.inj h
    exact hend rfl hbusy

lemma takeFrame_moves (hc : s.control p = .tlb old back .check) (hblocked : ¬ s.Blocked p)
    (hmissing : s.Missing p old input) (h : s.takeFrame p old back = some s') :
    s.Moves b (.run p input) s' := by
  obtain ⟨frame, hframe, h⟩ := Option.bind_eq_some_iff.mp h
  dsimp only at h
  split_ifs at h with hocc
  · unfold bootOut at h
    dsimp only at h
    split_ifs at h with h3 h2
    · obtain ⟨q, hq, h⟩ := Option.bind_eq_some_iff.mp h
      obtain ⟨i, hi, h⟩ := Option.bind_eq_some_iff.mp h
      obtain rfl := Option.some.inj h
      refine .boot (u := .shared i) hc hblocked hmissing hframe hocc ?_
      simp [SwapEntry.page, h3, hq, hi]
    · obtain ⟨q, hq, h⟩ := Option.bind_eq_some_iff.mp h
      obtain ⟨i, hi, h⟩ := Option.bind_eq_some_iff.mp h
      obtain rfl := Option.some.inj h
      refine .boot (u := .priv q i) hc hblocked hmissing hframe hocc ?_
      rw [SwapEntry.page, if_neg h3, if_pos h2, hq, hi]
      rfl
    · obtain rfl := Option.some.inj h
      exact .take hc hblocked hmissing hframe (.inr ⟨h3, h2⟩)
  · obtain rfl := Option.some.inj h
    exact .take hc hblocked hmissing hframe (.inl (not_not.mp hocc))

lemma placePage_eq (b : Board n) (s : Sys n) (p : Fin n) (old : State) (frame : Fin poolSize) :
    s.placePage b p (segmentOf old.sAsid) (pageOf old.sAsid) frame =
      if segmentOf old.sAsid = kuseg3 ∨ segmentOf old.sAsid = kuseg2 then
        (faultPage p old).map fun u => s.setPte u ((s.pte u).place (b.getFrameAddr frame))
      else some s := by
  unfold placePage faultPage
  dsimp only
  rw [procOf_asid b.procCnt_le]
  by_cases h3 : segmentOf old.sAsid = kuseg3
  · rw [if_pos h3, if_pos (.inl h3), if_pos h3]
    cases entryOf (pageOf old.sAsid) <;> rfl
  · by_cases h2 : segmentOf old.sAsid = kuseg2
    · rw [if_neg h3, if_pos h2, if_pos (.inr h2), if_neg h3, if_pos h2]
      cases entryOf (pageOf old.sAsid) <;> rfl
    · rw [if_neg h3, if_neg h2, if_neg fun h => h.elim h3 h2]
      rfl

lemma segment_of_faultPage {u : UPage n} (hpage : faultPage p old = some u) :
    segmentOf old.sAsid = kuseg3 ∨ segmentOf old.sAsid = kuseg2 := by
  unfold faultPage at hpage
  split_ifs at hpage with h3 h2
  · exact .inl h3
  · exact .inr h2

lemma installPage_eq {frame : Fin poolSize} {u : UPage n} (hpage : faultPage p old = some u) :
    s.installPage b p old back frame =
      ({ s with frameSwapPool := update s.frameSwapPool frame (faultRecord p old) }.setPte u
        ((s.pte u).place (b.getFrameAddr frame)) |>.verhogen .swapmutex).goto p
        (.tlb old back .leave) := by
  unfold installPage
  dsimp only
  rw [placePage_eq, if_pos (segment_of_faultPage hpage), hpage]
  rfl

lemma installPage_trap {frame : Fin poolSize}
    (hseg : segmentOf old.sAsid = kuseg3 ∨ segmentOf old.sAsid = kuseg2)
    (hpage : faultPage p old = none) :
    s.installPage b p old back frame =
      { s with frameSwapPool := update s.frameSwapPool frame (faultRecord p old) }.goto p
        .terminate := by
  unfold installPage
  dsimp only
  rw [placePage_eq, if_pos hseg, hpage]
  rfl

lemma installPage_other {frame : Fin poolSize}
    (hseg : ¬ (segmentOf old.sAsid = kuseg3 ∨ segmentOf old.sAsid = kuseg2)) :
    s.installPage b p old back frame =
      ({ s with frameSwapPool := update s.frameSwapPool frame (faultRecord p old) }.verhogen
        .swapmutex).goto p (.tlb old back .leave) := by
  unfold installPage
  dsimp only
  rw [placePage_eq, if_neg hseg]
  rfl

lemma installPage_moves {frame : Fin poolSize} (hc : s.control p = .tlb old back (.install frame))
    (hblocked : ¬ s.Blocked p) :
    s.Moves b (.run p input) (s.installPage b p old back frame) := by
  by_cases hseg : segmentOf old.sAsid = kuseg3 ∨ segmentOf old.sAsid = kuseg2
  · cases hpage : faultPage p old with
    | none =>
      rw [installPage_trap hseg hpage]
      exact .installTrap hc hblocked hseg hpage
    | some u =>
      rw [installPage_eq hpage]
      exact .install hc hblocked hpage
  · rw [installPage_other hseg]
    exact .installOther hc hblocked (not_or.mp hseg)

lemma aside_moves {c c' : Control} (he : e.Acts p)
    (hc : s.control p = c) (hfree : ¬ s.Blocked p ∨ s.InUser p)
    (hio : c.io b p = none) (hio' : c'.io b p = none) (hswap : ¬ c.InSwap)
    (htlb : ∀ old back stage, c' ≠ .tlb old back stage) (hprint : c.InPrint ↔ c'.InPrint)
    (htape : c'.InTape → c.InTape) (hservice : ∀ old, c' = .service old → ∃ st, e = .syscall p st) :
    s.Moves b e (s.goto p c') := by
  subst hc
  have hswap' : ¬ c'.InSwap := by
    cases c' with
    | tlb old back stage => exact absurd rfl (htlb old back stage)
    | _ => exact not_false
  refine .aside s.masterSema4 he (fun m => ?_) hio hio' hswap htlb htape hservice hfree
  simp [Control.Holds, hio, hio', hswap, hswap', hprint]

lemma userTlbHandler_moves {stage : TlbStage} (hc : s.control p = .tlb old back stage)
    (hblocked : ¬ s.Blocked p) (h : s.userTlbHandler b p old back input stage = some s') :
    s.Moves b (.run p input) s' := by
  cases stage with
  | enter =>
    obtain rfl := Option.some.inj h
    unfold enterTlb
    dsimp only
    split_ifs with hcode
    · cases back with
      | user =>
        exact aside_moves rfl hc (.inl hblocked) rfl rfl not_false (by simp) Iff.rfl
          id (by simp)
      | print pr stage => exact .die hblocked (.inr (.inl ⟨old, pr, stage, hc, hcode⟩))
    · refine .enter hc hblocked ?_
      rcases not_and_or.mp hcode with h2 | h3
      · exact .inl (not_not.mp h2)
      · exact .inr (not_not.mp h3)
  | check =>
    change s.checkTlb p old back input = some s' at h
    unfold checkTlb at h
    split_ifs at h with h3
    · cases hlo : s.recheck p (pageOf old.sAsid) input with
      | none =>
        rw [hlo] at h
        obtain rfl := Option.some.inj h
        exact .die hblocked (.inr (.inr ⟨old, back, hc, h3, hlo⟩))
      | some lo =>
        rw [hlo] at h
        dsimp only at h
        split_ifs at h with hvalid
        · obtain rfl := Option.some.inj h
          exact .found hc hblocked h3 hlo hvalid
        · exact takeFrame_moves hc hblocked (fun _ => ⟨lo, hlo, not_not.mp hvalid⟩) h
    · exact takeFrame_moves hc hblocked (fun he => absurd he h3) h
  | boot frame victim io =>
    refine ioStep_moves _ hc (.boot old back frame victim) hblocked h ?_
    rintro rfl hbusy
    exact .bootEnd hc hbusy hblocked
  | booted frame =>
    obtain rfl := Option.some.inj h
    exact .booted hc hblocked
  | load frame io =>
    refine ioStep_moves _ hc (.load old back frame) hblocked h ?_
    rintro rfl hbusy
    exact .loadEnd hc hbusy hblocked
  | install frame =>
    obtain rfl := Option.some.inj h
    exact installPage_moves hc hblocked
  | leave =>
    cases back with
    | user =>
      obtain rfl := Option.some.inj h
      exact aside_moves rfl hc (.inl hblocked) rfl rfl not_false (by simp) Iff.rfl
        id (by simp)
    | print pr stage =>
      obtain rfl := Option.some.inj h
      exact aside_moves rfl hc (.inl hblocked) rfl rfl not_false (by simp) Iff.rfl
        id (by simp)

lemma readTape_moves {i : Nat} {w : Word} {stage : TapeStage}
    (hc : s.control p = .readTape i stage) (hblocked : ¬ s.Blocked p)
    (h : s.readTape b p i w stage = some s') : s.Moves b (.run p input) s' := by
  cases stage with
  | read =>
    unfold readTape at h
    dsimp only at h
    split_ifs at h <;> obtain rfl := Option.some.inj h
    · exact .tapeStart hc hblocked
    · exact aside_moves rfl hc (.inl hblocked) rfl rfl not_false (by simp) Iff.rfl
        False.elim (by simp)
  | io io =>
    refine ioStep_moves _ hc (.tape i) hblocked h ?_
    rintro rfl hbusy
    exact .tapeEnd hc hbusy hblocked
  | next =>
    unfold readTape at h
    dsimp only at h
    split_ifs at h <;> obtain rfl := Option.some.inj h
    · exact aside_moves rfl hc (.inl hblocked) rfl rfl not_false (by simp) Iff.rfl
        id (by simp)
    · exact aside_moves rfl hc (.inl hblocked) rfl rfl not_false (by simp) Iff.rfl
        False.elim (by simp)

lemma service_moves {w : Word} (hc : s.control p = .service old) (hblocked : ¬ s.Blocked p) :
    s.Moves b (.run p input) (s.service p old w) := by
  unfold service
  split
  · exact aside_moves rfl hc (.inl hblocked) rfl rfl not_false (by simp) Iff.rfl
      id (by simp)
  · exact .printStart hc hblocked
  · exact aside_moves rfl hc (.inl hblocked) rfl rfl not_false (by simp) Iff.rfl
      id (by simp)
  · exact aside_moves rfl hc (.inl hblocked) rfl rfl not_false (by simp) Iff.rfl
      id (by simp)

lemma readChar_moves {stage : PrintStage} {next : Sys n → Word → Sys n}
    (hc : s.control p = .print pr stage) (hstage : stage ≠ .wait) (hblocked : ¬ s.Blocked p)
    (hnext : ∀ tlb c, (∀ x ∈ tlb, x ∈ s.tlb ∨ ∃ u, x = s.pte u) →
      s.Moves b (.run p input) (next { s with tlb } c)) :
    s.Moves b (.run p input) (s.readChar b p pr stage input next) := by
  unfold readChar
  dsimp only
  split_ifs with hseg
  · split
    · obtain ⟨tlb, hrefill, htlb⟩ := s.refill_eq p (accessHi p pr.s)
      rw [hrefill]
      exact hnext tlb _ htlb
    · exact .fault ⟨rfl, rfl, pr, stage, hc, rfl, rfl, rfl, hstage⟩ hseg ‹_› (.inl hblocked)
  · split
    · exact .die hblocked (.inl ⟨pr, stage, hc, hstage, hseg, rfl⟩)
    · exact hnext s.tlb _ fun x hx => .inl hx

lemma writeToTerminal_moves {stage : PrintStage} (hc : s.control p = .print pr stage)
    (hblocked : ¬ s.Blocked p) (h : s.writeToTerminal b p pr input stage = some s') :
    s.Moves b (.run p input) s' := by
  have hsame : ∀ x ∈ s.tlb, x ∈ s.tlb ∨ ∃ u, x = s.pte u := fun x hx => .inl hx
  cases stage with
  | test =>
    obtain rfl := Option.some.inj h
    refine readChar_moves hc (by decide) hblocked fun tlb c htlb => ?_
    split_ifs
    · exact .printEnd htlb hc hblocked
    · exact .printNext htlb hc hblocked
  | send =>
    obtain rfl := Option.some.inj h
    exact readChar_moves hc (by decide) hblocked fun tlb c htlb => .printNext htlb hc hblocked
  | wait =>
    obtain ⟨status, -, h⟩ := Option.bind_eq_some_iff.mp h
    dsimp only at h
    split_ifs at h <;> obtain rfl := Option.some.inj h
    · exact .printNext hsame hc hblocked
    · exact .printEnd hsame hc hblocked

lemma run_moves (hblocked : ¬ s.Blocked p) (h : s.run b p input = some s') :
    s.Moves b (.run p input) s' := by
  unfold run at h
  cases hc : s.control p with
  | user st => simp [hc] at h
  | readTape i stage =>
    simp only [hc] at h
    obtain ⟨w, -, h⟩ := Option.bind_eq_some_iff.mp h
    exact readTape_moves hc hblocked h
  | service old =>
    simp only [hc] at h
    obtain ⟨w, -, h⟩ := Option.bind_eq_some_iff.mp h
    obtain rfl := Option.some.inj h
    exact service_moves hc hblocked
  | print pr stage =>
    simp only [hc] at h
    exact writeToTerminal_moves hc hblocked h
  | ldst st =>
    simp only [hc] at h
    obtain rfl := Option.some.inj h
    exact aside_moves rfl hc (.inl hblocked) rfl rfl not_false (by simp) Iff.rfl
      id (by simp)
  | tlb old back stage =>
    simp only [hc] at h
    exact userTlbHandler_moves hc hblocked h
  | terminate =>
    simp only [hc] at h
    obtain rfl := Option.some.inj h
    refine .aside _ rfl (fun m => ?_) ?_ rfl ?_ (by simp) False.elim (by simp)
      (.inl hblocked) <;> rw [hc]
    · simp [Control.Holds, Control.InSwap, Control.InPrint, Control.io]
    · rfl
    · exact not_false
  | ending =>
    simp only [hc] at h
    obtain rfl := Option.some.inj h
    exact aside_moves rfl hc (.inl hblocked) rfl rfl not_false (by simp) Iff.rfl
      False.elim (by simp)
  | dead => simp [hc] at h
  | lost => simp [hc] at h

/-- What a step can do. -/
theorem step_moves (h : s.step b e = some s') : s.Moves b e s' := by
  unfold step at h
  cases e with
  | access p st va op =>
    dsimp only at h
    split_ifs at h with hc
    obtain rfl := Option.some.inj h
    exact access_moves hc.1 hc.2
  | syscall p st =>
    dsimp only at h
    split_ifs at h with hc
    obtain rfl := Option.some.inj h
    obtain ⟨⟨st', hc⟩, -⟩ := hc
    exact aside_moves rfl hc (.inr ⟨st', hc⟩) rfl rfl not_false (by simp) Iff.rfl id
      fun _ _ => ⟨st, rfl⟩
  | trap p =>
    dsimp only at h
    split_ifs at h with hc
    obtain rfl := Option.some.inj h
    obtain ⟨st', hc⟩ := hc
    exact aside_moves rfl hc (.inr ⟨st', hc⟩) rfl rfl not_false (by simp) Iff.rfl
      id (by simp)
  | run p input =>
    dsimp only at h
    split_ifs at h with hblocked
    exact run_moves hblocked h
  | disk =>
    obtain ⟨⟨disk, ram⟩, hd, h⟩ := Option.bind_eq_some_iff.mp h
    obtain rfl := Option.some.inj h
    exact .disk hd
  | forget i =>
    obtain rfl := Option.some.inj h
    exact .look trivial fun x hx => .inl (List.mem_of_mem_eraseIdx hx)

end Sys

end Kaya.Support
