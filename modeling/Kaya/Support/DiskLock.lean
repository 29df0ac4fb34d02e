import Kaya.Support.Moves

/-!
# Disk 0 under its mutex

What the disk is doing is settled by the process that has its mutex: nobody else gives it
commands between the seek and the end of the transfer.
-/

namespace Kaya.Support

open Function Linked

variable {n : Nat} {b : Board n} {p q : Fin n} {job : Job} {stage : IoStage}

/-- The first command moves the arm and the second one does not. -/
structure Job.Sound (job : Job) : Prop where
  seek : opOf job.seek = seekCyl
  command : opOf job.command ≠ seekCyl

lemma opOf_add_shift (op : Word) (i j : Int) (hop : op.toNat < 256) :
    opOf (op + BitVec.ofInt 32 i <<< deviceCommandShift +
      BitVec.ofInt 32 j <<< (2 * deviceCommandShift)) = op := by
  apply BitVec.eq_of_toNat_eq
  rw [toNat_opOf, BitVec.toNat_add, BitVec.toNat_add, BitVec.toNat_shiftLeft,
    BitVec.toNat_shiftLeft, Nat.shiftLeft_eq, Nat.shiftLeft_eq]
  simp only [deviceCommandShift]
  omega

lemma sound_of_commands {page : Nat} {op addr : Word} {procNum : Int} {segment : Nat}
    (hop : op.toNat < 256) (hne : op ≠ seekCyl) :
    Job.Sound ⟨seekCommand page, addr, blockCommand op procNum segment⟩ := by
  refine ⟨opOf_seekCommand page, ?_⟩
  change opOf (blockCommand op procNum segment) ≠ seekCyl
  unfold blockCommand
  rw [opOf_add_shift _ _ _ hop]
  exact hne

lemma Control.sound_of_io {c : Control} (h : c.io b p = some (job, stage)) : job.Sound := by
  have hwrite : writeBlk.toNat < 256 := by decide
  have hread : readBlk.toNat < 256 := by decide
  cases c with
  | readTape i st =>
    cases st with
    | io st =>
      obtain ⟨rfl, -⟩ := Prod.mk.inj (Option.some.inj h)
      exact sound_of_commands hwrite (by decide)
    | _ => cases h
  | tlb old back st =>
    cases st with
    | boot frame victim io =>
      obtain ⟨rfl, -⟩ := Prod.mk.inj (Option.some.inj h)
      exact sound_of_commands hwrite (by decide)
    | load frame io =>
      obtain ⟨rfl, -⟩ := Prod.mk.inj (Option.some.inj h)
      exact sound_of_commands hread (by decide)
    | _ => cases h
  | _ => cases h

/-- The disk as the process at this stage of the operation leaves it or waits for it. -/
def Disk.Follows (d : Disk) (job : Job) : IoStage → Prop
  | .seek => d.busy = none
  | .transfer => d.busy = some job.seek ∨ d.busy = none ∧ d.arm = cylinderOf job.seek
  | .release => d.arm = cylinderOf job.seek ∧ d.data0 = job.data0 ∧
      (d.busy = some job.command ∨ d.busy = none)

/-- The operations `io` of the processes, the mutex `m` of the disk and the disk `d`. -/
structure DiskLock (io : Fin n → Option (Job × IoStage)) (m : Semaphore (Fin n)) (d : Disk) :
    Prop where
  guards : m.Guards fun p => (io p).isSome
  fresh : ∀ p ∈ m.waiters, ∃ job, io p = some (job, .seek)
  follows : ∀ p job stage, io p = some (job, stage) → p ∉ m.waiters → d.Follows job stage
  idle : (∀ p, io p = none) → d.busy = none
  sound : ∀ p job stage, io p = some (job, stage) → job.Sound

namespace DiskLock

variable {io : Fin n → Option (Job × IoStage)} {m : Semaphore (Fin n)} {d d' : Disk}
  {ram ram' : Ram}

lemma not_mem_waiters (h : DiskLock io m d) (hp : io p = some (job, stage))
    (hne : stage ≠ .seek) : p ∉ m.waiters := by
  intro hw
  obtain ⟨job', hio⟩ := h.fresh p hw
  rw [hp] at hio
  exact hne (Prod.mk.inj (Option.some.inj hio)).2

lemma eq_of_not_waiting (h : DiskLock io m d) (hp : (io p).isSome) (hwp : p ∉ m.waiters)
    (hq : (io q).isSome) (hwq : q ∉ m.waiters) : p = q :=
  h.guards.unique hp hwp hq hwq

lemma passeren (h : DiskLock io m d) (hp : io p = none) (hj : job.Sound) :
    DiskLock (update io p (some (job, .seek))) (m.passeren p) d := by
  have hnp : ¬ (io p).isSome := by simp [hp]
  refine ⟨h.guards.passeren hnp fun q => ?_, fun q hq => ?_, fun q job' stage hq hw => ?_,
    fun hn => ?_, fun q job' stage hq => ?_⟩
  · by_cases hqp : q = p <;> simp [hqp]
  · by_cases hqp : q = p
    · exact ⟨job, by simp [hqp]⟩
    · obtain ⟨job', hio⟩ := h.fresh q ((Semaphore.of_mem_waiters_passeren hq).resolve_left hqp)
      exact ⟨job', by rw [update_of_ne hqp, hio]⟩
  · have hwq : q ∉ m.waiters := fun hqw => hw (Semaphore.mem_waiters_passeren hqw)
    by_cases hqp : q = p
    · subst hqp
      rw [update_self] at hq
      obtain ⟨rfl, rfl⟩ := Prod.mk.inj (Option.some.inj hq)
      exact h.idle fun r => Option.not_isSome_iff_eq_none.mp (h.guards.alone_of_passeren hnp hw)
    · rw [update_of_ne hqp] at hq
      exact h.follows q job' stage hq hwq
  · have hsome := hn p
    simp at hsome
  · by_cases hqp : q = p
    · subst hqp
      rw [update_self] at hq
      obtain ⟨rfl, -⟩ := Prod.mk.inj (Option.some.inj hq)
      exact hj
    · rw [update_of_ne hqp] at hq
      exact h.sound q job' stage hq

/-- The process that has the mutex takes its operation to the next stage. -/
lemma advance (h : DiskLock io m d) (hp : io p = some (job, stage)) (hw : p ∉ m.waiters)
    (d' : Disk) (stage' : IoStage) (hf : d'.Follows job stage') :
    DiskLock (update io p (some (job, stage'))) m d' := by
  refine ⟨h.guards.congr fun q => ?_, fun q hq => ?_, fun q job' stage'' hq hwq => ?_,
    fun hn => ?_, fun q job' stage'' hq => ?_⟩
  · by_cases hqp : q = p
    · simp [hqp, hp]
    · simp [hqp]
  · have hqp : q ≠ p := fun he => hw (he ▸ hq)
    rw [update_of_ne hqp]
    exact h.fresh q hq
  · by_cases hqp : q = p
    · subst hqp
      rw [update_self] at hq
      obtain ⟨rfl, rfl⟩ := Prod.mk.inj (Option.some.inj hq)
      exact hf
    · rw [update_of_ne hqp] at hq
      exact absurd (h.eq_of_not_waiting (by simp [hq]) hwq (by simp [hp]) hw) hqp
  · have hsome := hn p
    simp at hsome
  · by_cases hqp : q = p
    · subst hqp
      rw [update_self] at hq
      obtain ⟨rfl, -⟩ := Prod.mk.inj (Option.some.inj hq)
      exact h.sound q job stage hp
    · rw [update_of_ne hqp] at hq
      exact h.sound q job' stage'' hq

lemma verhogen (h : DiskLock io m d) (hp : io p = some (job, stage)) (hw : p ∉ m.waiters)
    (hbusy : d.busy = none) : DiskLock (update io p none) m.verhogen d := by
  have hsome : (io p).isSome := by simp [hp]
  refine ⟨h.guards.verhogen hsome hw fun q => ?_, fun q hq => ?_, fun q job' stage' hq hwq => ?_,
    fun _ => hbusy, fun q job' stage' hq => ?_⟩
  · by_cases hqp : q = p <;> simp [hqp]
  · have hqm := Semaphore.of_mem_waiters_verhogen hq
    have hqp : q ≠ p := fun he => hw (he ▸ hqm)
    rw [update_of_ne hqp]
    exact h.fresh q hqm
  · have hqp : q ≠ p := by
      rintro rfl
      simp at hq
    rw [update_of_ne hqp] at hq
    by_cases hqm : q ∈ m.waiters
    · obtain ⟨job'', hio⟩ := h.fresh q hqm
      rw [hq] at hio
      obtain ⟨-, rfl⟩ := Prod.mk.inj (Option.some.inj hio)
      exact hbusy
    · exact absurd (h.eq_of_not_waiting (by simp [hq]) hqm hsome hw) hqp
  · have hqp : q ≠ p := by
      rintro rfl
      simp at hq
    rw [update_of_ne hqp] at hq
    exact h.sound q job' stage' hq

lemma exists_owner {command : Word} (h : DiskLock io m d) (hbusy : d.busy = some command) :
    ∃ p job, (io p = some (job, .transfer) ∧ command = job.seek ∨
      io p = some (job, .release) ∧ command = job.command ∧ d.arm = cylinderOf job.seek ∧
        d.data0 = job.data0) ∧ p ∉ m.waiters := by
  have hex : ∃ r, (io r).isSome := by
    by_contra hn
    have hidle := h.idle fun r => Option.not_isSome_iff_eq_none.mp fun hr => hn ⟨r, hr⟩
    rw [hbusy] at hidle
    cases hidle
  obtain ⟨r, hr⟩ := hex
  obtain ⟨p, hp, hw⟩ := h.guards.exists_first hr
  obtain ⟨⟨job, stage⟩, hio⟩ := Option.isSome_iff_exists.mp hp
  have hfollows := h.follows p job stage hio hw
  refine ⟨p, job, ?_, hw⟩
  cases stage with
  | seek =>
    have hnone : d.busy = none := hfollows
    rw [hbusy] at hnone
    cases hnone
  | transfer =>
    rcases hfollows with hseek | ⟨hnone, -⟩
    · exact .inl ⟨hio, Option.some.inj (hbusy.symm.trans hseek)⟩
    · rw [hbusy] at hnone
      cases hnone
  | release =>
    obtain ⟨harm, hdata, hcommand | hnone⟩ := hfollows
    · exact .inr ⟨hio, Option.some.inj (hbusy.symm.trans hcommand), harm, hdata⟩
    · rw [hbusy] at hnone
      cases hnone

/-- What the disk has done is what its owner waits for. -/
lemma complete (h : DiskLock io m d) (hd : d.complete ram = some (d', ram')) :
    DiskLock io m d' := by
  unfold Disk.complete at hd
  cases hbusy : d.busy with
  | none => simp [hbusy] at hd
  | some command =>
    simp only [hbusy] at hd
    obtain ⟨p, job, hcases, hw⟩ := h.exists_owner hbusy
    rcases hcases with ⟨hio, rfl⟩ | ⟨hio, rfl, harm, hdata⟩
    · rw [if_pos (h.sound p job _ hio).seek] at hd
      obtain ⟨rfl, -⟩ := Prod.mk.inj (Option.some.inj hd)
      have hadv := h.advance hio hw { d with busy := none, arm := cylinderOf job.seek } .transfer
        (.inr ⟨rfl, rfl⟩)
      rwa [update_eq_self_iff.mpr hio.symm] at hadv
    · rw [if_neg (h.sound p job _ hio).command] at hd
      have hadv : ∀ d₁ : Disk, d₁.busy = none → d₁.arm = d.arm → d₁.data0 = d.data0 →
          DiskLock io m d₁ := by
        intro d₁ hb ha h0
        have hadv := h.advance hio hw d₁ .release ⟨ha.trans harm, h0.trans hdata, .inr hb⟩
        rwa [update_eq_self_iff.mpr hio.symm] at hadv
      split_ifs at hd <;> obtain ⟨rfl, -⟩ := Prod.mk.inj (Option.some.inj hd) <;>
        exact hadv _ rfl rfl rfl

end DiskLock

namespace Sys

variable {s s' : Sys n} {e : Event n}

/-- The disk operations of the processes. -/
def ios (b : Board n) (s : Sys n) (p : Fin n) : Option (Job × IoStage) := (s.control p).io b p

def DiskSafe (b : Board n) (s : Sys n) : Prop := DiskLock (s.ios b) (s.sema4 diskMutex) s.disk

lemma ios_goto (s : Sys n) (p : Fin n) (c : Control) :
    (s.goto p c).ios b = update (s.ios b) p (c.io b p) := by
  funext q
  by_cases hq : q = p
  · subst hq
    simp [ios, goto]
  · simp [ios, goto, hq]

lemma ios_goto_of_eq {c : Control} (h : s.ios b p = c.io b p) : (s.goto p c).ios b = s.ios b := by
  rw [ios_goto, ← h, update_eq_self]

lemma ios_of_control {c : Control} (hc : s.control p = c) : s.ios b p = c.io b p := by
  rw [ios, hc]

lemma ios_goto_of_control {c c' : Control} (hc : s.control p = c) (h : c.io b p = c'.io b p) :
    (s.goto p c').ios b = s.ios b :=
  ios_goto_of_eq ((ios_of_control hc).trans h)

lemma terminalMutex_ne (hn : n ≤ 63) (p : Fin n) : terminalMutex p ≠ diskMutex := by
  unfold terminalMutex diskMutex
  rw [asidOf_entryHi hn]
  intro he
  have hidx := Sem.deviceSema4.inj he
  change (7 - 3) * 8 + (p.val + 1 - 1) = (3 - 3) * 8 + 0 at hidx
  omega

lemma not_waiting_disk (h : ¬ s.Blocked p) : p ∉ (s.sema4 diskMutex).waiters :=
  fun hw => h (.inr (.inl hw))

lemma DiskSafe.same (h : s.DiskSafe b) (hio : s'.ios b = s.ios b)
    (hm : s'.sema4 diskMutex = s.sema4 diskMutex) (hd : s'.disk = s.disk) : s'.DiskSafe b := by
  unfold DiskSafe
  rw [hio, hm, hd]
  exact h

lemma DiskSafe.begin {c : Control} (h : s.DiskSafe b) (hp : s.ios b p = none)
    (hc : c.io b p = some (job, .seek)) (hcontrol : s'.control = update s.control p c)
    (hm : s'.sema4 diskMutex = (s.sema4 diskMutex).passeren p) (hd : s'.disk = s.disk) :
    s'.DiskSafe b := by
  have hio : s'.ios b = update (s.ios b) p (some (job, .seek)) := by
    rw [← hc, ← ios_goto]
    funext q
    simp [ios, goto, hcontrol]
  unfold DiskSafe
  rw [hio, hm, hd]
  exact DiskLock.passeren h hp (Control.sound_of_io hc)

lemma DiskSafe.finish {c : Control} (h : s.DiskSafe b) (hp : s.ios b p = some (job, stage))
    (hc : c.io b p = none) (hw : ¬ s.Blocked p) (hbusy : s.disk.busy = none) :
    ((s.verhogen diskMutex).goto p c).DiskSafe b := by
  have hfinish := DiskLock.verhogen h hp (not_waiting_disk hw) hbusy
  have hios : (s.verhogen diskMutex).ios b = s.ios b := rfl
  unfold DiskSafe
  rw [ios_goto, hc, hios]
  simpa [verhogen, goto] using hfinish

lemma Accesses.ios_eq_none {st : State} {va : Addr} {write : Bool} {back : Back}
    (h : s.Accesses p st va write back e) : s.ios b p = none := by
  cases e with
  | access q st' va' op =>
    obtain ⟨-, -, -, -, -, st₀, hc⟩ := h
    exact ios_of_control hc
  | run q input =>
    obtain ⟨-, -, pr, stage, hc, -⟩ := h
    exact ios_of_control hc
  | _ => exact h.elim

/-- Every step keeps the disk under its mutex. -/
theorem Moves.diskSafe (hm : s.Moves b e s') (h : s.DiskSafe b) : s'.DiskSafe b := by
  have hterm : ∀ p : Fin n, diskMutex ≠ terminalMutex p := fun p =>
    (terminalMutex_ne b.procCnt_le p).symm
  have hswap : diskMutex ≠ .swapmutex := by decide
  cases hm with
  | look he htlb => exact h.same rfl rfl rfl
  | store hc hf =>
    obtain ⟨tlb, hrefill, -⟩ := s.refill_eq _ _
    rw [hrefill]
    exact h.same rfl rfl rfl
  | fault hc hseg hf hfree =>
    obtain ⟨tlb, hrefill, -⟩ := s.refill_eq _ _
    rw [hrefill]
    exact h.same (ios_goto_of_eq hc.ios_eq_none) rfl rfl
  | aside masterSema4 he hholds hio hio' hns htlb htape hservice hfree =>
    exact h.same (ios_goto_of_eq (hio.trans hio'.symm)) rfl rfl
  | die hblocked hc =>
    refine h.same ?_ rfl rfl
    rcases hc with ⟨pr, stage, hc, -⟩ | ⟨old, pr, stage, hc, -⟩ | ⟨old, back, hc, -⟩ <;>
      exact ios_goto_of_control hc rfl
  | printStart hc hblocked =>
    exact h.same (ios_goto_of_control hc rfl) (passeren_sema4_of_ne _ _ (hterm _)) rfl
  | printEnd htlb hc hblocked =>
    exact h.same (ios_goto_of_control hc rfl) (verhogen_sema4_of_ne _ (hterm _)) rfl
  | printNext htlb hc hblocked =>
    exact h.same (ios_goto_of_control hc rfl) rfl rfl
  | @tapeStart p input i hc hblocked =>
    exact h.begin (p := p) (c := .readTape i (.io .seek)) (ios_of_control hc) rfl rfl
      (by simp [goto, Sys.passeren]) rfl
  | @enter p input old back hc hblocked hcode =>
    exact h.same (ios_goto_of_control hc rfl) (passeren_sema4_of_ne s p hswap) rfl
  | found hc hblocked hseg hlo hvalid =>
    exact h.same (ios_goto_of_control hc rfl) (verhogen_sema4_of_ne _ hswap) rfl
  | @take p input old back frame hc hblocked hmissing hframe hvacant =>
    exact h.begin (p := p) (c := .tlb old back (.load frame .seek)) (ios_of_control hc) rfl rfl
      (by simp [goto, Sys.passeren]) rfl
  | @boot p input old back frame u hc hblocked hmissing hframe hoccupied hpage =>
    exact h.begin (p := p) (c := .tlb old back (.boot frame (s.frameSwapPool frame) .seek))
      (ios_of_control hc) rfl (by simp [goto, Sys.passeren]) (by simp [goto, Sys.passeren])
      (by simp [goto, Sys.passeren])
  | @booted p input old back frame hc hblocked =>
    exact h.begin (p := p) (c := .tlb old back (.load frame .seek)) (ios_of_control hc) rfl rfl
      (by simp [goto, Sys.passeren]) rfl
  | @seek p input job control hc hstages hblocked =>
    have hp : s.ios b p = some (job, .seek) := by rw [ios, hc, hstages.io_eq]
    have hadv := DiskLock.advance h hp (not_waiting_disk hblocked) (s.disk.give job.seek)
      .transfer (.inl rfl)
    rw [← hstages.io_eq .transfer, ← ios_goto] at hadv
    exact hadv
  | @transfer p input job control hc hstages hbusy hblocked =>
    have hp : s.ios b p = some (job, .transfer) := by rw [ios, hc, hstages.io_eq]
    have hw := not_waiting_disk hblocked
    have harm : s.disk.arm = cylinderOf job.seek := by
      rcases h.follows p job .transfer hp hw with hseek | ⟨-, harm⟩
      · rw [hbusy] at hseek
        cases hseek
      · exact harm
    have hadv := DiskLock.advance h hp hw ({ s.disk with data0 := job.data0 }.give job.command)
      .release ⟨harm, rfl, .inl rfl⟩
    rw [← hstages.io_eq .release, ← ios_goto] at hadv
    exact hadv
  | tapeEnd hc hbusy hblocked => exact h.finish (ios_of_control hc) rfl hblocked hbusy
  | bootEnd hc hbusy hblocked => exact h.finish (ios_of_control hc) rfl hblocked hbusy
  | loadEnd hc hbusy hblocked => exact h.finish (ios_of_control hc) rfl hblocked hbusy
  | install hc hblocked hpage =>
    refine h.same ?_ ?_ (by simp [goto, Sys.verhogen])
    · refine (ios_goto_of_eq ?_).trans ?_
      · simp [ios, Sys.verhogen, hc]
        rfl
      · funext q
        simp [ios, Sys.verhogen]
    · simp [goto, Sys.verhogen, hswap]
  | installOther hc hblocked hseg =>
    exact h.same (ios_goto_of_control hc rfl) (verhogen_sema4_of_ne _ hswap) rfl
  | installTrap hc hblocked hseg hpage =>
    exact h.same (ios_goto_of_control hc rfl) rfl rfl
  | disk hd => exact DiskLock.complete h hd

lemma fresh_diskSafe (h0 : s.Fresh) : s.DiskSafe b := by
  have hios : ∀ p, s.ios b p = none := fun p => by
    rw [ios, h0.control p]
    rfl
  have hnone : ∀ p job stage, s.ios b p ≠ some (job, stage) := by simp [hios]
  refine ⟨?_, fun p hp => ?_, fun p job stage hp => absurd hp (hnone p job stage),
    fun _ => h0.busy, fun p job stage hp => absurd hp (hnone p job stage)⟩
  · rw [h0.sema4]
    exact Semaphore.Guards.mutex.congr fun p => by simp [hios]
  · rw [h0.sema4] at hp
    cases hp

lemma DiskSafe.run {ok : Sys n → Event n → Prop} {s₀ : Sys n} {h : List (Sys n × Event n × Sys n)}
    (h0 : s₀.Fresh) (hr : Run (Sys.step b) ok s₀ h s) : s.DiskSafe b := by
  induction hr with
  | nil => exact fresh_diskSafe h0
  | snoc _ _ hs ih => exact (step_moves hs).diskSafe ih

end Sys

end Kaya.Support
