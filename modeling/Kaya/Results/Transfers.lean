import Kaya.Support.DiskLock

/-!
# The transfers of disk 0

The commands that the user processes give to disk 0, in the order in which they are given. The
block that the disk transfers is the one its user has sought.
-/

namespace Kaya.Support

open Function Linked

variable {n : Nat}

/-- A process has written a command, with this buffer address in `DATA0`. -/
structure Order (n : Nat) where
  process : Fin n
  command : Word
  data0 : Word

/-- The command that is given in a transition. -/
def Order.of (b : Board n) : Sys n × Event n × Sys n → Option (Order n)
  | (s, .run p _, s') =>
    match (s.control p).io b p with
    | some (_, .seek) | some (_, .transfer) =>
      s'.disk.busy.map fun command => ⟨p, command, s'.disk.data0⟩
    | _ => none
  | _ => none

def orders (b : Board n) (h : List (Sys n × Event n × Sys n)) : List (Order n) :=
  h.filterMap (Order.of b)

lemma orders_snoc (b : Board n) (h : List (Sys n × Event n × Sys n)) (x : Sys n × Event n × Sys n) :
    orders b (h ++ [x]) = orders b h ++ (Order.of b x).toList := by
  unfold orders
  rw [List.filterMap_append, List.filterMap_cons, List.filterMap_nil]
  cases Order.of b x <;> rfl

/-- The last commands given are a seek of `p` for `job` and, once that is done, its transfer. -/
def Gave (l : List (Order n)) (p : Fin n) (job : Job) : IoStage → Prop
  | .seek => True
  | .transfer => ∃ pre d, l = pre ++ [⟨p, job.seek, d⟩]
  | .release => ∃ pre d, l = pre ++ [⟨p, job.seek, d⟩, ⟨p, job.command, job.data0⟩]

namespace Sys

variable {b : Board n} {s s' : Sys n} {e : Event n} {p q : Fin n} {job : Job} {stage : IoStage}
  {input : Option Word} {c : Control} {l : List (Order n)}

/-- A step without a command to the disk, in which no process gets past its seek. -/
def Quiet (b : Board n) (s : Sys n) (e : Event n) (s' : Sys n) : Prop :=
  Order.of b (s, e, s') = none ∧ ∀ p job stage, stage ≠ .seek →
    s'.ios b p = some (job, stage) → s.ios b p = some (job, stage)

lemma order_of_run (h : s.ios b p = none ∨ ∃ job, s.ios b p = some (job, .release)) :
    Order.of b (s, .run p input, s') = none := by
  unfold ios at h
  unfold Order.of
  rcases h with h | ⟨job, h⟩ <;> simp [h]

lemma quiet_of_ios (ho : Order.of b (s, e, s') = none) (hio : s'.ios b = s.ios b) :
    Quiet b s e s' := by
  refine ⟨ho, fun p job stage _ h => ?_⟩
  rwa [hio] at h

lemma quiet_of_run (h : s.ios b p = none ∨ ∃ job, s.ios b p = some (job, .release))
    (hcontrol : s'.control = update s.control p c)
    (hc : c.io b p = none ∨ ∃ job, c.io b p = some (job, .seek)) :
    Quiet b s (.run p input) s' := by
  refine ⟨order_of_run h, fun q job stage hne hq => ?_⟩
  unfold ios at hq ⊢
  rw [hcontrol] at hq
  by_cases hqp : q = p
  · subst hqp
    rw [update_self] at hq
    rcases hc with hc | ⟨job', hc⟩
    · rw [hc] at hq
      cases hq
    · rw [hc] at hq
      exact absurd (Prod.mk.inj (Option.some.inj hq)).2.symm hne
  · rwa [update_of_ne hqp] at hq

/-- Either a step gives no command, or it is one of the two of a disk operation. -/
lemma Moves.orders (hm : s.Moves b e s') : Quiet b s e s' ∨ ∃ p job, ¬ s.Blocked p ∧
    (s.ios b p = some (job, .seek) ∧ Order.of b (s, e, s') = some ⟨p, job.seek, s.disk.data0⟩ ∧
      s'.ios b = update (s.ios b) p (some (job, .transfer)) ∨
    s.ios b p = some (job, .transfer) ∧
      Order.of b (s, e, s') = some ⟨p, job.command, job.data0⟩ ∧
      s'.ios b = update (s.ios b) p (some (job, .release))) := by
  cases hm with
  | @look e tlb he htlb =>
    cases e with
    | run p input => exact he.elim
    | _ => exact .inl (quiet_of_ios rfl rfl)
  | store hc hf =>
    obtain ⟨tlb, hrefill, -⟩ := s.refill_eq _ _
    rw [hrefill]
    exact .inl (quiet_of_ios rfl rfl)
  | @fault e p st va cause back write hc hseg hf hfree =>
    obtain ⟨tlb, hrefill, -⟩ := s.refill_eq p (accessHi p va)
    rw [hrefill]
    have hio := hc.ios_eq_none (b := b)
    cases e with
    | run q input =>
      obtain rfl := hc.1
      exact .inl (quiet_of_run (.inl hio) rfl (.inl rfl))
    | _ => exact .inl (quiet_of_ios rfl (ios_goto_of_eq hio))
  | @aside e p c masterSema4 he hholds hio hio' hns htlb htape hservice hfree =>
    cases e with
    | run q input =>
      obtain rfl := (he : q = p)
      exact .inl (quiet_of_run (.inl hio) rfl (.inl hio'))
    | _ => exact .inl (quiet_of_ios rfl (ios_goto_of_eq (hio.trans hio'.symm)))
  | die hblocked hc =>
    refine .inl (quiet_of_run (.inl ?_) rfl (.inl rfl))
    rcases hc with ⟨pr, stage, hc, -⟩ | ⟨old, pr, stage, hc, -⟩ | ⟨old, back, hc, -⟩ <;>
      exact ios_of_control hc
  | printStart hc hblocked | printEnd htlb hc hblocked | printNext htlb hc hblocked
  | enter hc hblocked hcode | found hc hblocked hseg hlo hvalid | installOther hc hblocked hseg
  | installTrap hc hblocked hseg hpage =>
    refine .inl (quiet_of_run (.inl ?_) rfl (.inl rfl))
    exact ios_of_control hc
  | install hc hblocked hpage =>
    refine .inl (quiet_of_run (.inl ?_) (by simp [goto, Sys.verhogen]; rfl) (.inl rfl))
    exact ios_of_control hc
  | tapeStart hc hblocked | take hc hblocked hmissing hframe hvacant | booted hc hblocked =>
    refine .inl (quiet_of_run (.inl ?_) rfl (.inr ⟨_, rfl⟩))
    exact ios_of_control hc
  | boot hc hblocked hmissing hframe hoccupied hpage =>
    refine .inl (quiet_of_run (.inl ?_) (by simp [goto, Sys.passeren]; rfl) (.inr ⟨_, rfl⟩))
    exact ios_of_control hc
  | tapeEnd hc hbusy hblocked | bootEnd hc hbusy hblocked | loadEnd hc hbusy hblocked =>
    refine .inl (quiet_of_run (.inr ?_) rfl (.inl rfl))
    exact ⟨_, ios_of_control hc⟩
  | @seek p input job control hc hstages hblocked =>
    have hp : (s.control p).io b p = some (job, .seek) := by rw [hc, hstages.io_eq]
    refine .inr ⟨p, job, hblocked, .inl ⟨hp, ?_, ?_⟩⟩
    · simp only [Order.of, hp]
      rfl
    · rw [← hstages.io_eq .transfer]
      exact ios_goto _ _ _
  | @transfer p input job control hc hstages hbusy hblocked =>
    have hp : (s.control p).io b p = some (job, .transfer) := by rw [hc, hstages.io_eq]
    refine .inr ⟨p, job, hblocked, .inr ⟨hp, ?_, ?_⟩⟩
    · simp only [Order.of, hp]
      rfl
    · rw [← hstages.io_eq .release]
      exact ios_goto _ _ _
  | disk hd => exact .inl (quiet_of_ios rfl rfl)

/-- The operations of the processes are the commands given last. -/
structure Recorded (b : Board n) (l : List (Order n)) (s : Sys n) : Prop where
  safe : s.DiskSafe b
  gave : ∀ p job stage, s.ios b p = some (job, stage) → Gave l p job stage

lemma fresh_recorded (h0 : s.Fresh) : Recorded b [] s := by
  refine ⟨fresh_diskSafe h0, fun p job stage hp => ?_⟩
  rw [ios, h0.control p] at hp
  cases hp

/-- The process that has the mutex of the disk has given the last commands. -/
lemma Recorded.moves (h : Recorded b l s) (hm : s.Moves b e s') :
    Recorded b (l ++ (Order.of b (s, e, s')).toList) s' := by
  refine ⟨hm.diskSafe h.safe, fun q job' stage hq => ?_⟩
  rcases hm.orders with ⟨hnone, hquiet⟩ | ⟨p, job, hblocked, hcases⟩
  · rw [hnone]
    cases stage with
    | seek => trivial
    | _ =>
      have hgave := h.gave q job' _ (hquiet q job' _ (by simp) hq)
      simpa using hgave
  · have hw := not_waiting_disk hblocked
    have hother : ∀ stage', stage' ≠ .seek → (s.ios b p).isSome →
        s.ios b q = some (job', stage') → q = p := fun stage' hne hp hq =>
      h.safe.eq_of_not_waiting (by simp [hq]) (h.safe.not_mem_waiters hq hne) hp hw
    rcases hcases with ⟨hp, hgiven, hios⟩ | ⟨hp, hgiven, hios⟩
    · rw [hgiven]
      rw [hios] at hq
      by_cases hqp : q = p
      · subst hqp
        rw [update_self] at hq
        obtain ⟨rfl, rfl⟩ := Prod.mk.inj (Option.some.inj hq)
        exact ⟨l, s.disk.data0, rfl⟩
      · rw [update_of_ne hqp] at hq
        cases stage with
        | seek => trivial
        | _ => exact absurd (hother _ (by simp) (by simp [hp]) hq) hqp
    · rw [hgiven]
      rw [hios] at hq
      by_cases hqp : q = p
      · subst hqp
        rw [update_self] at hq
        obtain ⟨rfl, rfl⟩ := Prod.mk.inj (Option.some.inj hq)
        obtain ⟨pre, d, rfl⟩ := h.gave q job .transfer hp
        exact ⟨pre, d, by simp⟩
      · rw [update_of_ne hqp] at hq
        cases stage with
        | seek => trivial
        | _ => exact absurd (hother _ (by simp) (by simp [hp]) hq) hqp

lemma Recorded.run {ok : Sys n → Event n → Prop} {h : List (Sys n × Event n × Sys n)}
    (h0 : s.Fresh) (hr : Run (Sys.step b) ok s h s') : Recorded b (Support.orders b h) s' := by
  induction hr with
  | nil => exact fresh_recorded h0
  | snoc _ _ hs ih =>
    rw [orders_snoc]
    exact ih.moves (step_moves hs)

end Sys

/-- Every block is transferred with the arm where the process that gave the command has sought
just before and with the buffer that it has set, and at most one process is past its seek. -/
theorem transfers_not_torn {b : Board n} {s₀ s : Sys n} {h : List (Sys n × Event n × Sys n)}
    (h0 : s₀.Fresh) (hr : Run (Sys.step b) (fun _ _ => True) s₀ h s) :
    (∀ p q job job' stage stage', (s.control p).io b p = some (job, stage) → stage ≠ .seek →
      (s.control q).io b q = some (job', stage') → stage' ≠ .seek → p = q) ∧
    ∀ command, s.disk.busy = some command → opOf command = readBlk ∨ opOf command = writeBlk →
      ∃ p pre sought d, orders b h = pre ++ [⟨p, sought, d⟩, ⟨p, command, s.disk.data0⟩] ∧
        opOf sought = seekCyl ∧ s.disk.arm = cylinderOf sought ∧
        ∃ job, (s.control p).io b p = some (job, .release) ∧ job.seek = sought ∧
          job.command = command ∧ job.data0 = s.disk.data0 := by
  have hrec := Sys.Recorded.run h0 hr
  have hsafe := hrec.safe
  refine ⟨fun p q job job' stage stage' hp hne hq hne' => ?_, fun command hbusy hop => ?_⟩
  · exact hsafe.eq_of_not_waiting (by simp [Sys.ios, hp]) (hsafe.not_mem_waiters hp hne)
      (by simp [Sys.ios, hq]) (hsafe.not_mem_waiters hq hne')
  · obtain ⟨p, job, hcases, -⟩ := hsafe.exists_owner hbusy
    rcases hcases with ⟨hio, rfl⟩ | ⟨hio, rfl, harm, hdata⟩
    · rw [(hsafe.sound p job _ hio).seek] at hop
      exact absurd hop (by decide)
    · obtain ⟨pre, d, hgave⟩ := hrec.gave p job .release hio
      refine ⟨p, pre, job.seek, d, ?_, (hsafe.sound p job _ hio).seek, harm, job, hio, rfl, rfl,
        hdata.symm⟩
      rw [hgave, hdata]

/-- The second process waits for the disk while a block is written for the first one. -/
theorem transfers_not_torn_waiting : ∃ h s, Run (Sys.step twoProcesses) (fun _ _ => True)
    (Sys.blank 2) h s ∧ 1 ∈ (s.sema4 diskMutex).waiters ∧
    ∃ p pre sought d, orders twoProcesses h =
      pre ++ [⟨p, sought, d⟩, ⟨p, blockCommand writeBlk 1 kuseg2, s.disk.data0⟩] := by
  obtain ⟨h, s, hr, hq⟩ := exists_run (Sys.step twoProcesses) (fun _ _ => True) (Sys.blank 2)
    [.run 0 (some Sys.tapeReady), .run 1 (some Sys.tapeReady), .run 0 (some 0), .disk,
      .run 0 (some 0)]
    (fun _ s => 1 ∈ (s.sema4 diskMutex).waiters ∧
      s.disk.busy = some (blockCommand writeBlk 1 kuseg2)) (by decide +kernel)
  obtain ⟨hwaits, hbusy⟩ := of_decide_eq_true hq
  obtain ⟨p, pre, sought, d, horders, -⟩ := (transfers_not_torn Sys.fresh_blank hr).2 _ hbusy
    (.inr (by decide))
  exact ⟨h, s, hr, hwaits, p, pre, sought, d, horders⟩

end Kaya.Support
