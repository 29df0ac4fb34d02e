import Kaya.Lib.Drain
import Kaya.Support.Alone
import Kaya.Support.Holding

/-!
# Who can go on

As long as no process faults on its stack page, every process between the P and the V of a mutex
can go on or waits for one that can. What is left to do until all mutexes are free is bounded.
-/

namespace Kaya.Support

open Function Linked

variable {n : Nat} {b : Board n} {p q : Fin n}

/-- The fault that a process is serving is on a page with an entry in the page tables. -/
def Control.Housed (p : Fin n) : Control → Prop
  | .tlb old _ .enter => Served old → ∃ u, faultPage p old = some u
  | .tlb _ _ .leave => True
  | .tlb old _ _ => ∃ u, faultPage p old = some u
  | _ => True

/-- The page with the stack in kuseg2 has an entry, but its number lies behind the table. -/
def OnStackPage (va : Addr) : Prop := va >>> pageShift = kuseg2Last

instance (va : Addr) : Decidable (OnStackPage va) := inferInstanceAs (Decidable (_ = _))

lemma Stages.housed_iff {job : Job} {control : IoStage → Control} (h : Stages b p job control)
    (io io' : IoStage) : (control io).Housed p ↔ (control io').Housed p := by
  cases h <;> exact Iff.rfl

namespace Sys

variable {s s' : Sys n} {e : Event n} {c : Control} {old : State} {back : Back}

/-- The event accesses no stack page. -/
def OffStack (s : Sys n) : Event n → Prop
  | .access _ _ va _ => ¬ OnStackPage va
  | .run p _ => match s.control p with
    | .print pr _ => ¬ OnStackPage pr.s
    | _ => True
  | _ => True

instance (s : Sys n) : DecidablePred s.OffStack
  | .access _ _ va _ => inferInstanceAs (Decidable (¬ OnStackPage va))
  | .run p _ =>
    match h : s.control p with
    | .print pr _ => decidable_of_iff (¬ OnStackPage pr.s) (by simp [OffStack, h])
    | .user _ | .readTape _ _ | .service _ | .ldst _ | .tlb _ _ _ | .terminate | .ending | .dead
    | .lost => .isTrue (by simp [OffStack, h])
  | .syscall _ _ | .trap _ | .disk | .forget _ => .isTrue trivial

/-- No handler has left the tables, and those who wait for `swapmutex` have just P'd it. -/
structure Standing (s : Sys n) : Prop where
  tables : s.Tables
  records : ∀ f, (s.frameSwapPool f).Vacant ∨ ∃ u, (s.frameSwapPool f).page n = some u
  queue : ∀ p ∈ (s.sema4 .swapmutex).waiters, ∃ old back, s.control p = .tlb old back .check
  housed : ∀ p, (s.control p).Housed p

namespace Standing

lemma not_waiting (h : s.Standing) (hfree : ¬ s.Blocked p ∨ s.InUser p) :
    p ∉ (s.sema4 .swapmutex).waiters := by
  rcases hfree with hfree | ⟨st, hc⟩
  · exact not_waiting_swap hfree
  · intro hw
    obtain ⟨old, back, hcheck⟩ := h.queue p hw
    rw [hc] at hcheck
    cases hcheck

lemma goto (h : s.Standing) (hp : p ∉ (s.sema4 .swapmutex).waiters)
    (hcontrol : s'.control = update s.control p c) (hc : c.Housed p)
    (hwait : ∀ q ∈ (s'.sema4 .swapmutex).waiters, q ∈ (s.sema4 .swapmutex).waiters)
    (htables : s'.Tables)
    (hrecords : ∀ f, (s'.frameSwapPool f).Vacant ∨ ∃ u, (s'.frameSwapPool f).page n = some u) :
    s'.Standing := by
  refine ⟨htables, hrecords, fun q hq => ?_, fun q => ?_⟩
  · have hw := hwait q hq
    have hne : q ≠ p := by
      rintro rfl
      exact hp hw
    rw [hcontrol, update_of_ne hne]
    exact h.queue q hw
  · rw [hcontrol]
    by_cases hq : q = p
    · subst hq
      rw [update_self]
      exact hc
    · rw [update_of_ne hq]
      exact h.housed q

lemma same (h : s.Standing) (hp : p ∉ (s.sema4 .swapmutex).waiters)
    (hcontrol : s'.control = update s.control p c) (hc : c.Housed p)
    (hsem : s'.sema4 .swapmutex = s.sema4 .swapmutex) (hpte : s'.pte = s.pte)
    (htlb : ∀ x ∈ s'.tlb, x ∈ s.tlb ∨ ∃ u, x = s.pte u)
    (hpool : s'.frameSwapPool = s.frameSwapPool) : s'.Standing :=
  h.goto hp hcontrol hc (fun _ hq => hsem ▸ hq) (h.tables.of_eq hpte htlb)
    fun f => hpool ▸ h.records f

lemma verhogen (h : s.Standing) (hp : p ∉ (s.sema4 .swapmutex).waiters)
    (hcontrol : s'.control = update s.control p c) (hc : c.Housed p)
    (hsem : s'.sema4 = update s.sema4 .swapmutex (s.sema4 .swapmutex).verhogen)
    (htables : s'.Tables)
    (hrecords : ∀ f, (s'.frameSwapPool f).Vacant ∨ ∃ u, (s'.frameSwapPool f).page n = some u) :
    s'.Standing := by
  refine h.goto hp hcontrol hc (fun q hq => ?_) htables hrecords
  rw [hsem, update_self] at hq
  exact Semaphore.of_mem_waiters_verhogen hq

end Standing

lemma Tables.faultPage_of_fault (h : s.Tables) (st : State) {va : Addr} {cause : Word}
    {write : Bool} (hseg : segmentOf va = kuseg2 ∨ segmentOf va = kuseg3)
    (hva : ¬ OnStackPage va)
    (hf : s.translate b p (accessHi p va) write = .error cause)
    (hserved : Served { st with sCause := cause, sAsid := accessHi p va }) :
    ∃ u, faultPage p { st with sCause := cause, sAsid := accessHi p va } = some u := by
  have hn := b.procCnt_le
  obtain ⟨v, -, hm⟩ := translate_error h.cached hf hserved
  obtain ⟨hnumber, -⟩ := number_of_matches hn (h.built v) hm
  have hva' : va.toNat / 4096 ≠ 0xBFFFF := by
    intro he
    apply hva
    unfold OnStackPage
    apply BitVec.eq_of_toNat_eq
    rw [BitVec.toNat_ushiftRight, Nat.shiftRight_eq_div_pow]
    exact he
  have hpage : pageOf (accessHi p va) < maxKuseg := by
    rw [pageOf_accessHi hn, pageOf_eq]
    have hlt := va.isLt
    cases v with
    | priv q i =>
      have hcases := number_priv q i
      omega
    | shared i =>
      have hi : i.val < 32 := i.isLt
      have hshared : 0xC0000 + i.val = va.toNat / 4096 := hnumber
      omega
  unfold faultPage entryOf
  dsimp only
  rw [segmentOf_accessHi hn, dif_pos hpage]
  rcases hseg with hseg | hseg
  · rw [if_neg (by rw [hseg]; decide), if_pos hseg]
    exact ⟨_, rfl⟩
  · rw [if_pos hseg]
    exact ⟨_, rfl⟩

lemma Accesses.offStack {st : State} {va : Addr} {write : Bool}
    (h : s.Accesses p st va write back e) (he : s.OffStack e) : ¬ OnStackPage va := by
  cases e with
  | access q st' va' op =>
    obtain ⟨-, -, rfl, -⟩ := h
    exact he
  | run q input =>
    obtain ⟨rfl, -, pr, stage, hc, -, rfl, -⟩ := h
    unfold OffStack at he
    dsimp only at he
    rw [hc] at he
    exact he
  | _ => exact h.elim

/-- Every step off the stack pages keeps the handlers in the tables. -/
lemma Moves.standing (hm : s.Moves b e s') (he : s.OffStack e) (h : s.Standing) :
    s'.Standing := by
  have hdisk : Sem.swapmutex ≠ diskMutex := by decide
  have hterm : ∀ p : Fin n, Sem.swapmutex ≠ terminalMutex p := fun p he => by cases he
  have htlb : ∀ x ∈ s.tlb, x ∈ s.tlb ∨ ∃ u, x = s.pte u := fun x hx => .inl hx
  cases hm with
  | look hlook htlb => exact ⟨h.tables.of_eq rfl htlb, h.records, h.queue, h.housed⟩
  | @store p st va v frame hc hf =>
    obtain ⟨tlb, hrefill, htlb⟩ := s.refill_eq p (accessHi p va)
    rw [hrefill]
    exact ⟨h.tables.of_eq rfl htlb, h.records, h.queue, h.housed⟩
  | @fault e p st va cause back write hc hseg hf hfree =>
    obtain ⟨tlb, hrefill, htlb⟩ := s.refill_eq p (accessHi p va)
    rw [hrefill]
    exact h.same (h.not_waiting hfree) rfl
      (h.tables.faultPage_of_fault st hseg (hc.offStack he) hf) rfl rfl htlb rfl
  | @aside e p c masterSema4 hact hholds hio hio' hns hctl htape hservice hfree =>
    refine h.same (h.not_waiting hfree) rfl ?_ rfl rfl htlb rfl
    cases c with
    | tlb old back stage => exact absurd rfl (hctl old back stage)
    | _ => trivial
  | @die p input hblocked hc =>
    exact h.same (not_waiting_swap hblocked) rfl trivial rfl rfl htlb rfl
  | @printStart p input old pr hc hblocked =>
    exact h.same (not_waiting_swap hblocked) rfl trivial
      (passeren_sema4_of_ne s p (hterm p)) rfl htlb rfl
  | @printEnd p input st pr stage tlb htlb hc hblocked =>
    exact h.same (not_waiting_swap hblocked) rfl trivial
      (verhogen_sema4_of_ne { s with tlb } (hterm p)) rfl htlb rfl
  | @printNext p input pr pr' stage stage' tlb htlb hc hblocked =>
    exact h.same (not_waiting_swap hblocked) rfl trivial rfl rfl htlb rfl
  | @tapeStart p input i hc hblocked =>
    exact h.same (not_waiting_swap hblocked) rfl trivial (passeren_sema4_of_ne s p hdisk) rfl htlb
      rfl
  | @enter p input old back hc hblocked hcode =>
    have hhoused := h.housed p
    rw [hc] at hhoused
    have hp := not_waiting_swap hblocked
    refine ⟨h.tables.of_eq rfl htlb, h.records, fun q hq => ?_, fun q => ?_⟩
    · rw [goto_sema4, passeren_sema4] at hq
      by_cases hqp : q = p
      · subst hqp
        exact ⟨old, back, goto_control_self _ _ _⟩
      · rw [goto_control_of_ne _ _ _ hqp]
        exact h.queue q ((Semaphore.of_mem_waiters_passeren hq).resolve_left hqp)
    · by_cases hqp : q = p
      · subst hqp
        rw [goto_control_self]
        exact hhoused hcode
      · rw [goto_control_of_ne _ _ _ hqp]
        exact h.housed q
  | @found p input old back lo hc hblocked hseg hlo hvalid =>
    exact h.verhogen (not_waiting_swap hblocked) rfl trivial rfl (h.tables.of_eq rfl htlb) h.records
  | @take p input old back frame hc hblocked hmissing hframe hvacant =>
    have hhoused := h.housed p
    rw [hc] at hhoused
    exact h.same (not_waiting_swap hblocked) rfl hhoused
      (passeren_sema4_of_ne { s with nextFrame := s.nextFrame + 1 } p hdisk) rfl htlb rfl
  | @boot p input old back frame u hc hblocked hmissing hframe hocc hpage =>
    have hhoused := h.housed p
    rw [hc] at hhoused
    have htables : ({ s with nextFrame := s.nextFrame + 1 } : Sys n).Tables :=
      h.tables.of_eq rfl htlb
    refine h.goto (not_waiting_swap hblocked) (c := .tlb old back
      (.boot frame (s.frameSwapPool frame) .seek)) ?_ hhoused (fun q hq => ?_)
      ((htables.setPte (h.tables.built u).flipValid).of_eq rfl fun x hx => .inl hx) fun f => ?_
    · simp [Sys.goto, Sys.passeren]
    · rw [goto_sema4, passeren_sema4_of_ne _ _ hdisk, setPte_sema4] at hq
      exact hq
    · simpa [Sys.goto, Sys.passeren] using h.records f
  | @booted p input old back frame hc hblocked =>
    have hhoused := h.housed p
    rw [hc] at hhoused
    exact h.same (not_waiting_swap hblocked) rfl hhoused (passeren_sema4_of_ne s p hdisk) rfl htlb
      rfl
  | @seek p input job control hc hstages hblocked =>
    have hhoused := h.housed p
    rw [hc] at hhoused
    exact h.same (not_waiting_swap hblocked) rfl ((hstages.housed_iff _ _).mp hhoused) rfl rfl htlb
      rfl
  | @transfer p input job control hc hstages hbusy hblocked =>
    have hhoused := h.housed p
    rw [hc] at hhoused
    exact h.same (not_waiting_swap hblocked) rfl ((hstages.housed_iff _ _).mp hhoused) rfl rfl htlb
      rfl
  | @tapeEnd p input i hc hbusy hblocked =>
    exact h.same (not_waiting_swap hblocked) rfl trivial (verhogen_sema4_of_ne s hdisk) rfl htlb rfl
  | @bootEnd p input old back frame victim hc hbusy hblocked =>
    have hhoused := h.housed p
    rw [hc] at hhoused
    exact h.same (not_waiting_swap hblocked) rfl hhoused (verhogen_sema4_of_ne s hdisk) rfl htlb rfl
  | @loadEnd p input old back frame hc hbusy hblocked =>
    have hhoused := h.housed p
    rw [hc] at hhoused
    exact h.same (not_waiting_swap hblocked) rfl hhoused (verhogen_sema4_of_ne s hdisk) rfl htlb rfl
  | @install p input old back frame u hc hblocked hpage =>
    have htables : ({ s with
        frameSwapPool := update s.frameSwapPool frame (faultRecord p old) } : Sys n).Tables :=
      h.tables.of_eq rfl htlb
    refine h.verhogen (not_waiting_swap hblocked) (c := .tlb old back .leave) ?_ trivial ?_
      ((htables.setPte ((h.tables.built u).place (b.getFrameAddr_aligned frame))).of_eq rfl
        fun x hx => .inl hx) fun f => ?_
    · simp [Sys.goto, Sys.verhogen]
    · simp [Sys.goto, Sys.verhogen]
    · simp only [Sys.goto, Sys.verhogen, setPte_frameSwapPool]
      by_cases hf : f = frame
      · subst hf
        rw [update_self, page_faultRecord b.procCnt_le]
        exact .inr ⟨u, hpage⟩
      · rw [update_of_ne hf]
        exact h.records f
  | @installOther p input old back frame hc hblocked hseg =>
    refine h.verhogen (not_waiting_swap hblocked) rfl trivial rfl (h.tables.of_eq rfl htlb)
      fun f => ?_
    change (update s.frameSwapPool frame (faultRecord p old) f).Vacant ∨
      ∃ u, (update s.frameSwapPool frame (faultRecord p old) f).page n = some u
    by_cases hf : f = frame
    · subst hf
      rw [update_self]
      exact .inl (.inr hseg)
    · rw [update_of_ne hf]
      exact h.records f
  | @installTrap p input old back frame hc hblocked hseg hpage =>
    have hhoused := h.housed p
    rw [hc] at hhoused
    obtain ⟨u, hu⟩ := hhoused
    rw [hpage] at hu
    cases hu
  | disk hd => exact ⟨h.tables.of_eq rfl htlb, h.records, h.queue, h.housed⟩

lemma fresh_standing (b : Board n) (h0 : s.Fresh) : s.Standing := by
  refine ⟨(fresh_paged (b := b) h0).tables, fun f => .inl (.inl (h0.frameSwapPool f)),
    fun p hp => ?_, fun p => ?_⟩
  · rw [h0.sema4] at hp
    cases hp
  · rw [h0.control]
    trivial

end Sys

/-! ### What is left to do -/

/-- The steps to the V, with those of the disk. -/
def IoStage.left : IoStage → Nat
  | .seek => 6
  | .transfer => 4
  | .release => 2

def TlbStage.left : TlbStage → Nat
  | .enter | .leave => 0
  | .check => 15
  | .boot _ _ io => 8 + io.left
  | .booted _ => 8
  | .load _ io => 1 + io.left
  | .install _ => 1

/-- The steps until the process has neither `swapmutex` nor disk 0. -/
def Control.left : Control → Nat
  | .readTape _ (.io io) => io.left
  | .tlb _ _ stage => stage.left
  | _ => 0

lemma IoStage.left_le (io : IoStage) : io.left ≤ 6 := by cases io <;> decide

lemma TlbStage.left_le (stage : TlbStage) : stage.left ≤ 15 := by
  cases stage with
  | boot frame victim io | load frame io =>
    have hio := io.left_le
    simp only [left]
    omega
  | _ => simp [left]

lemma Control.left_le (c : Control) : c.left ≤ 15 := by
  unfold left
  split
  · exact (IoStage.left_le _).trans (by decide)
  · exact TlbStage.left_le _
  · exact Nat.zero_le _

namespace Sys

variable {s s' : Sys n} {e : Event n} {c : Control} {old : State} {back : Back}

def left (s : Sys n) : Nat :=
  ∑ p, (s.control p).left + if s.disk.busy = none then 0 else 1

lemma left_le (s : Sys n) : s.left ≤ 15 * n + 1 := by
  have hsum : ∑ p, (s.control p).left ≤ ∑ _p : Fin n, 15 :=
    Finset.sum_le_sum fun p _ => (s.control p).left_le
  rw [Finset.sum_const, Finset.card_univ, Fintype.card_fin, smul_eq_mul] at hsum
  unfold left
  split_ifs <;> omega

lemma sum_left (hcontrol : s'.control = update s.control p c) :
    ∑ q, (s'.control q).left + (s.control p).left = ∑ q, (s.control q).left + c.left := by
  have hrest : ∑ q ∈ Finset.univ.erase p, (s'.control q).left =
      ∑ q ∈ Finset.univ.erase p, (s.control q).left := by
    apply Finset.sum_congr rfl
    intro q hq
    rw [hcontrol, update_of_ne (Finset.ne_of_mem_erase hq)]
  rw [← Finset.add_sum_erase _ _ (Finset.mem_univ p), hrest, hcontrol, update_self,
    ← Finset.add_sum_erase _ (fun q => (s.control q).left) (Finset.mem_univ p)]
  omega

lemma left_lt (hcontrol : s'.control = update s.control p c) (hidle : s.disk.busy = none)
    (hlt : c.left + (if s'.disk.busy = none then 0 else 1) < (s.control p).left) :
    s'.left < s.left := by
  have hsum := sum_left hcontrol
  unfold left
  rw [if_pos hidle]
  omega

/-- The disk works, or a process between the P and the V of `swapmutex` or disk 0 goes on. -/
def Urgent (b : Board n) (s : Sys n) : Event n → Prop
  | .disk => True
  | .run p _ => s.Inside b p .swapmutex ∨ s.Inside b p diskMutex
  | _ => False

/-- Nobody is between the P and the V of `swapmutex` or disk 0. -/
def Clear (b : Board n) (s : Sys n) : Prop :=
  ∀ p, ¬ s.Inside b p .swapmutex ∧ ¬ s.Inside b p diskMutex

lemma inside_disk : s.Inside b p diskMutex ↔ (s.ios b p).isSome := by
  have hdisk : diskMutex ≠ .swapmutex := by decide
  have hterm := (terminalMutex_ne b.procCnt_le p).symm
  simp [Inside, Control.Holds, hdisk, hterm, ios]

lemma inside_terminal : s.Inside b q (terminalMutex p) → q = p := by
  have hswap : terminalMutex p ≠ .swapmutex := fun he => by cases he
  have hdisk := terminalMutex_ne b.procCnt_le p
  rintro (⟨hm, -⟩ | ⟨hm, -⟩ | ⟨hm, -⟩)
  · exact absurd hm hswap
  · exact absurd hm hdisk
  · unfold terminalMutex at hm
    rw [asidOf_entryHi b.procCnt_le, asidOf_entryHi b.procCnt_le] at hm
    have hsem := Sem.deviceSema4.inj hm
    simp only [terminalSem] at hsem
    exact Fin.ext (by omega)

lemma Held.terminal (h : s.Held b) (p : Fin n) :
    (s.sema4 (.deviceSema4 (terminalSem (p + 1)))).waiters = [] := by
  have hguards := h.guards (terminalMutex p)
  have hnil := hguards.waiters_eq_nil fun q hq => inside_terminal hq
  unfold terminalMutex at hnil
  rwa [asidOf_entryHi b.procCnt_le] at hnil

lemma Held.not_blocked (h : s.Held b) (hswap : p ∉ (s.sema4 .swapmutex).waiters)
    (hdisk : p ∉ (s.sema4 diskMutex).waiters) : ¬ s.Blocked p := by
  rintro (hw | hw | hw)
  · exact hswap hw
  · exact hdisk hw
  · rw [h.terminal] at hw
    cases hw

lemma Held.not_blocked_of_clear (h : s.Held b) (hc : s.Clear b) (p : Fin n) : ¬ s.Blocked p :=
  h.not_blocked (fun hw => (hc p).1 ((h.guards _).of_mem_waiters hw))
    fun hw => (hc p).2 ((h.guards _).of_mem_waiters hw)

/-! ### Somebody can go on -/

/-- `e` is an urgent step after which less is left to do. -/
structure Drains (b : Board n) (s : Sys n) (e : Event n) (s' : Sys n) : Prop where
  urgent : s.Urgent b e
  spares : s.Spares e
  offStack : s.OffStack e
  step : s.step b e = some s'
  left : s'.left < s.left
  nextFrame : s'.nextFrame = s.nextFrame ∨ s'.nextFrame = s.nextFrame + 1

lemma exists_disk (hbusy : s.disk.busy ≠ none) : ∃ s', s.Drains b .disk s' := by
  obtain ⟨command, hcommand⟩ := Option.ne_none_iff_exists'.mp hbusy
  obtain ⟨disk, ram, hd⟩ := s.disk.exists_complete command s.ram
  have hgive : s.disk.give command = s.disk := by
    unfold Disk.give
    rw [← hcommand]
  rw [hgive] at hd
  have hstep : s.step b .disk = some { s with disk, ram } := by
    unfold step
    dsimp only
    rw [hd]
    rfl
  refine ⟨_, trivial, trivial, trivial, hstep, ?_, .inl rfl⟩
  have hidle := Disk.complete_idle hd
  unfold left
  dsimp only
  rw [if_pos hidle, if_neg hbusy]
  omega

lemma run_eq (hblocked : ¬ s.Blocked p) (input : Option Word) :
    s.step b (.run p input) = s.run b p input := by
  unfold step
  dsimp only
  rw [if_neg hblocked]

lemma exists_io (job : Job) (control : IoStage → Control) (done : Control) (k : Nat)
    {stage : IoStage} (hc : s.control p = control stage) (hidle : s.disk.busy = none)
    (hk : ∀ io, (control io).left = k + io.left) (hdone : done.left ≤ k + 1) :
    ∃ s', s.ioStep p job control done stage = some s' ∧ s'.left < s.left ∧
      s'.nextFrame = s.nextFrame := by
  have hleft := congrArg Control.left hc
  rw [hk] at hleft
  cases stage with
  | seek =>
    refine ⟨_, rfl, left_lt (p := p) rfl hidle ?_, rfl⟩
    rw [hleft, hk]
    simp [IoStage.left, goto, Disk.give]
  | transfer =>
    refine ⟨_, if_pos hidle, left_lt (p := p) rfl hidle ?_, rfl⟩
    rw [hleft, hk]
    simp [IoStage.left, goto, Disk.give]
  | release =>
    refine ⟨_, if_pos hidle, left_lt (p := p) rfl hidle ?_, rfl⟩
    rw [hleft]
    simp [IoStage.left, goto, Sys.verhogen, hidle]
    omega

lemma exists_disk_client (hs : s.Standing) (hh : s.Held b) (hp : s.Inside b p diskMutex) :
    ∃ e s', s.Drains b e s' := by
  by_cases hidle : s.disk.busy = none
  swap
  · obtain ⟨s', hd⟩ := exists_disk (b := b) hidle
    exact ⟨.disk, s', hd⟩
  obtain ⟨q, hq, hw⟩ := (hh.guards diskMutex).exists_first hp
  obtain ⟨⟨job, stage⟩, hio⟩ := Option.isSome_iff_exists.mp (inside_disk.mp hq)
  have hswap : q ∉ (s.sema4 .swapmutex).waiters := by
    intro hmem
    obtain ⟨old, back, hc⟩ := hs.queue q hmem
    rw [ios_of_control hc] at hio
    cases hio
  have hrun := run_eq (b := b) (hh.not_blocked hswap hw) (some 0)
  unfold run at hrun
  have hurgent : s.Urgent b (.run q (some 0)) := .inr hq
  cases hc : s.control q with
  | readTape i stage' =>
    cases stage' with
    | io io =>
      obtain ⟨s', hs', hlt, hnext⟩ := exists_io (tapeJob (asidOf (entryHi q)) i)
        (fun io => .readTape i (.io io)) (.readTape i .next) 0 hc hidle
        (fun io => (Nat.zero_add _).symm) (Nat.zero_le _)
      refine ⟨.run q (some 0), s', hurgent, ?_, ?_, ?_, hlt, .inl hnext⟩
      · unfold Spares
        simp only [hc]
        trivial
      · unfold OffStack
        simp only [hc]
      · rw [hrun, hc]
        exact hs'
    | _ =>
      rw [ios_of_control hc] at hio
      cases hio
  | tlb old back stage' =>
    have hoff : s.OffStack (.run q (some 0)) := by
      unfold OffStack
      simp only [hc]
    cases stage' with
    | boot frame victim io =>
      obtain ⟨s', hs', hlt, hnext⟩ := exists_io (bootJob (b.getFrameAddr frame) victim)
        (fun io => .tlb old back (.boot frame victim io)) (.tlb old back (.booted frame)) 8 hc
        hidle (fun io => rfl) (Nat.le_succ 8)
      refine ⟨.run q (some 0), s', hurgent, ?_, hoff, ?_, hlt, .inl hnext⟩
      · unfold Spares
        simp only [hc]
        trivial
      · rw [hrun, hc]
        exact hs'
    | load frame io =>
      obtain ⟨s', hs', hlt, hnext⟩ := exists_io
        (loadJob (b.getFrameAddr frame) (asidOf (entryHi q)) (segmentOf old.sAsid)
          (pageOf old.sAsid))
        (fun io => .tlb old back (.load frame io)) (.tlb old back (.install frame)) 1 hc hidle
        (fun io => rfl) (Nat.le_succ 1)
      refine ⟨.run q (some 0), s', hurgent, ?_, hoff, ?_, hlt, .inl hnext⟩
      · unfold Spares
        simp only [hc]
        trivial
      · rw [hrun, hc]
        exact hs'
    | _ =>
      rw [ios_of_control hc] at hio
      cases hio
  | _ =>
    rw [ios_of_control hc] at hio
    cases hio

lemma exists_takeFrame (hs : s.Standing) (hc : s.control p = .tlb old back .check)
    (hidle : s.disk.busy = none) (hcount : s.nextFrame.toNat + 1 < 2 ^ 31) :
    ∃ s', s.takeFrame p old back = some s' ∧ s'.left < s.left ∧
      s'.nextFrame = s.nextFrame + 1 := by
  obtain ⟨f, hf⟩ : ∃ f, frameOf (s.nextFrame + 1) = some f := by
    have hnat : (s.nextFrame + 1).toNat = s.nextFrame.toNat + 1 := by
      rw [BitVec.toNat_add]
      exact Nat.mod_eq_of_lt (by simpa using by omega)
    exact ⟨_, frameOf_of_lt (hnat ▸ hcount)⟩
  have hleft : (s.control p).left = 15 := congrArg Control.left hc
  rcases hs.records f with hv | ⟨u, hu⟩
  · refine ⟨_, takeFrame_vacant hf hv, left_lt (p := p) rfl hidle ?_, rfl⟩
    rw [hleft]
    simp [Control.left, TlbStage.left, IoStage.left, goto, Sys.passeren, hidle]
  · refine ⟨_, takeFrame_boot hf hu, left_lt (p := p) (c := .tlb old back
      (.boot f (s.frameSwapPool f) .seek)) ?_ hidle ?_, ?_⟩
    · simp [goto, Sys.passeren]
    · rw [hleft]
      simp [Control.left, TlbStage.left, IoStage.left, goto, Sys.passeren, hidle]
    · simp [goto, Sys.passeren]

lemma installPage_left {f : Fin poolSize} {u : UPage n} (hu : faultPage p old = some u)
    (hc : s.control p = .tlb old back (.install f)) (hidle : s.disk.busy = none) :
    (s.installPage b p old back f).left < s.left := by
  have hleft : (s.control p).left = 1 := congrArg Control.left hc
  rw [installPage_eq hu]
  refine left_lt (p := p) (c := .tlb old back .leave) ?_ hidle ?_
  · simp [goto, Sys.verhogen]
  · rw [hleft]
    simp [Control.left, TlbStage.left, goto, Sys.verhogen, hidle]

lemma installPage_nextFrame {f : Fin poolSize} {u : UPage n} (hu : faultPage p old = some u) :
    (s.installPage b p old back f).nextFrame = s.nextFrame := by
  rw [installPage_eq hu]
  simp [goto, Sys.verhogen]

lemma recheck_ne_none {i : Fin maxKuseg} {page : Nat} (hi : entryOf page = some i) (w : Word) :
    s.recheck p page (some w) ≠ none := by
  unfold recheck
  rw [hi]
  split <;> simp

lemma entryOf_of_shared (hs : s.Standing) (hc : s.control p = .tlb old back .check)
    (h3 : segmentOf old.sAsid = kuseg3) : ∃ i, entryOf (pageOf old.sAsid) = some i := by
  have hhoused := hs.housed p
  rw [hc] at hhoused
  obtain ⟨u, hu⟩ := hhoused
  unfold faultPage at hu
  rw [if_pos h3] at hu
  obtain ⟨i, hi, -⟩ := Option.map_eq_some_iff.mp hu
  exact ⟨i, hi⟩

lemma exists_checkTlb (hs : s.Standing) (hc : s.control p = .tlb old back .check)
    (hidle : s.disk.busy = none) (hcount : s.nextFrame.toNat + 1 < 2 ^ 31) :
    ∃ s', s.checkTlb p old back (some 0) = some s' ∧ s'.left < s.left ∧
      (s'.nextFrame = s.nextFrame ∨ s'.nextFrame = s.nextFrame + 1) := by
  obtain ⟨t, ht, hlt, hnext⟩ := exists_takeFrame hs hc hidle hcount
  have hleft : (s.control p).left = 15 := congrArg Control.left hc
  unfold checkTlb
  by_cases h3 : segmentOf old.sAsid = kuseg3
  · rw [if_pos h3]
    obtain ⟨i, hi⟩ := entryOf_of_shared hs hc h3
    obtain ⟨lo, hlo⟩ := Option.ne_none_iff_exists'.mp (recheck_ne_none (s := s) (p := p) hi 0)
    rw [hlo]
    dsimp only
    split_ifs
    · refine ⟨_, rfl, left_lt (p := p) rfl hidle ?_, .inl rfl⟩
      rw [hleft]
      simp [Control.left, TlbStage.left, goto, Sys.verhogen, hidle]
    · exact ⟨t, ht, hlt, .inr hnext⟩
  · rw [if_neg h3]
    exact ⟨t, ht, hlt, .inr hnext⟩

/-- With nobody at disk 0, the process that has `swapmutex`, or the disk. -/
lemma exists_swap_client (hs : s.Standing) (hh : s.Held b)
    (hcount : s.nextFrame.toNat + 1 < 2 ^ 31) (hp : s.Inside b p .swapmutex)
    (hdisk : ∀ q, ¬ s.Inside b q diskMutex) : ∃ e s', s.Drains b e s' := by
  by_cases hidle : s.disk.busy = none
  swap
  · obtain ⟨s', hd⟩ := exists_disk (b := b) hidle
    exact ⟨.disk, s', hd⟩
  obtain ⟨q, hq, hw⟩ := (hh.guards .swapmutex).exists_first hp
  have hio : s.ios b q = none := by
    rw [← Option.not_isSome_iff_eq_none]
    exact fun h => hdisk q (inside_disk.mpr h)
  have hrun := run_eq (b := b) (hh.not_blocked hw
    fun hw => hdisk q ((hh.guards diskMutex).of_mem_waiters hw)) (some 0)
  unfold run at hrun
  have hurgent : s.Urgent b (.run q (some 0)) := .inl hq
  have hin := inside_swapmutex.mp hq
  cases hc : s.control q with
  | tlb old back stage =>
    rw [hc] at hin hrun
    have hoff : s.OffStack (.run q (some 0)) := by
      unfold OffStack
      simp only [hc]
    cases stage with
    | enter | leave => exact absurd hin not_false
    | check =>
      obtain ⟨s', hs', hlt, hnext⟩ := exists_checkTlb hs hc hidle hcount
      refine ⟨.run q (some 0), s', hurgent, ?_, hoff, hrun.trans hs', hlt, hnext⟩
      unfold Spares
      simp only [hc]
      intro h3
      obtain ⟨i, hi⟩ := entryOf_of_shared hs hc h3
      exact recheck_ne_none hi 0
    | boot frame victim io | load frame io =>
      rw [ios_of_control hc] at hio
      cases hio
    | booted frame =>
      refine ⟨.run q (some 0), _, hurgent, ?_, hoff, hrun, left_lt (p := q) rfl hidle ?_, .inl rfl⟩
      · unfold Spares
        simp only [hc]
        trivial
      · rw [hc]
        simp [Control.left, TlbStage.left, IoStage.left, goto, Sys.passeren, hidle]
    | install frame =>
      obtain ⟨u, hu⟩ : ∃ u, faultPage q old = some u := by
        have hhoused := hs.housed q
        rwa [hc] at hhoused
      refine ⟨.run q (some 0), _, hurgent, ?_, hoff, hrun, installPage_left hu hc hidle,
        .inl (installPage_nextFrame hu)⟩
      unfold Spares
      simp only [hc]
      intro _
      rw [hu]
      exact Option.some_ne_none u
  | _ =>
    rw [hc] at hin
    exact hin.elim

/-- As long as somebody is between P and V of `swapmutex` or disk 0 an urgent step is possible. -/
lemma exists_drains (hs : s.Standing) (hh : s.Held b) (hcount : s.nextFrame.toNat + 1 < 2 ^ 31)
    (hc : ¬ s.Clear b) : ∃ e s', s.Drains b e s' := by
  by_cases hdisk : ∃ p, s.Inside b p diskMutex
  · obtain ⟨p, hp⟩ := hdisk
    exact exists_disk_client hs hh hp
  · have hnone : ∀ q, ¬ s.Inside b q diskMutex := fun q hq => hdisk ⟨q, hq⟩
    obtain ⟨p, hp⟩ : ∃ p, s.Inside b p .swapmutex := by
      by_contra hn
      exact hc fun p => ⟨fun hp => hn ⟨p, hp⟩, hnone p⟩
    exact exists_swap_client hs hh hcount hp hnone

end Sys

end Kaya.Support
