import Kaya.Lib.Rotation
import Kaya.Results.FlatMemory

/-!
# First in, first out

`findFrame` goes around the frames, and a fault is over before the next one gets a frame. So the
swap pool has the pages that were fetched last, and a page is evicted when `POOLSIZE` pages have
been fetched after it.
-/

namespace Kaya.Support

open Function Linked

variable {n : Nat} {b : Board n} {p q : Fin n} {u : UPage n} {e : Event n}

/-- The record of the page that a transition enters into the swap pool. -/
def fetchedAt (t : Sys n × Event n × Sys n) : Option SwapEntry :=
  match t.2.1 with
  | .run p _ =>
    match t.1.control p with
    | .tlb old _ (.install _) => some (faultRecord p old)
    | _ => none
  | _ => none

/-- The records of the pages that have been fetched in a run, in the order of the fetches. -/
def fetched (h : List (Sys n × Event n × Sys n)) : List SwapEntry := h.filterMap fetchedAt

/-- The process sends the page of the record out of the frame. -/
def Control.Boots (f : Fin poolSize) (victim : SwapEntry) : Control → Prop
  | .tlb _ _ (.boot g r _) => g = f ∧ r = victim
  | _ => False

instance (f : Fin poolSize) (victim : SwapEntry) : DecidablePred (Control.Boots f victim)
  | .tlb _ _ (.boot g r _) => inferInstanceAs (Decidable (g = f ∧ r = victim))
  | .tlb _ _ .enter | .tlb _ _ .check | .tlb _ _ (.booted _) | .tlb _ _ (.load _ _)
  | .tlb _ _ (.install _) | .tlb _ _ .leave | .user _ | .readTape _ _ | .service _ | .print _ _
  | .ldst _ | .terminate | .ending | .dead | .lost => .isFalse id

lemma Control.Boots.phase {f : Fin poolSize} {r : SwapEntry} {c : Control} (h : c.Boots f r) :
    ∃ old, c.phase = .filling old f := by
  cases c with
  | tlb old back stage =>
    cases stage with
    | boot g r' io =>
      obtain ⟨rfl, -⟩ := h
      exact ⟨old, rfl⟩
    | _ => exact h.elim
  | _ => exact h.elim

lemma Stages.boots_iff {job : Job} {control : IoStage → Control} (h : Stages b p job control)
    (io io' : IoStage) (f : Fin poolSize) (r : SwapEntry) :
    (control io).Boots f r ↔ (control io').Boots f r := by
  cases h <;> exact Iff.rfl

namespace Sys

variable {s s' s₀ : Sys n} {c : Control} {h : List (Sys n × Event n × Sys n)}
  {pool : Fin poolSize → SwapEntry} {l : List SwapEntry}

/-- A frame has been chosen for everything that has been fetched, and one more while a process is
filling its frame. -/
structure Queued (pool : Fin poolSize → SwapEntry) (l : List SwapEntry) (s : Sys n) : Prop where
  counter : s.nextFrame.toNat < 2 ^ 31
  rotates : Rotates pool l s.frameSwapPool
  idle : (∀ p old f, s.phase p ≠ .filling old f) → s.nextFrame.toNat = l.length
  filling : ∀ p old f, s.phase p = .filling old f →
    s.nextFrame.toNat = l.length + 1 ∧ f.val = (l.length + 1) % poolSize
  boots : ∀ p f r, (s.control p).Boots f r → r = s.frameSwapPool f ∧ r.ASID ≠ unoccupiedFrame

namespace Queued

lemma same (hs : s.Queued pool l) (hnext : s'.nextFrame = s.nextFrame)
    (hpool : s'.frameSwapPool = s.frameSwapPool)
    (hfill : ∀ p old f, s'.phase p = .filling old f ↔ s.phase p = .filling old f)
    (hboots : ∀ p f r, (s'.control p).Boots f r → (s.control p).Boots f r) :
    s'.Queued pool l := by
  refine ⟨hnext ▸ hs.counter, hpool ▸ hs.rotates, fun hn => ?_, fun p old f hp => ?_,
    fun p f r hp => ?_⟩
  · rw [hnext]
    exact hs.idle fun p old f hp => hn p old f ((hfill p old f).mpr hp)
  · rw [hnext]
    exact hs.filling p old f ((hfill p old f).mp hp)
  · rw [hpool]
    exact hs.boots p f r (hboots p f r hp)

lemma goto (hs : s.Queued pool l) (hcontrol : s'.control = update s.control p c)
    (hnext : s'.nextFrame = s.nextFrame) (hpool : s'.frameSwapPool = s.frameSwapPool)
    (hfill : ∀ old f, c.phase = .filling old f ↔ s.phase p = .filling old f)
    (hboots : ∀ f r, c.Boots f r → (s.control p).Boots f r) : s'.Queued pool l := by
  refine hs.same hnext hpool (fun q old f => ?_) fun q f r hq => ?_
  · unfold phase
    rw [hcontrol]
    by_cases hqp : q = p
    · subst hqp
      rw [update_self]
      exact hfill old f
    · rw [update_of_ne hqp]
  · rw [hcontrol] at hq
    by_cases hqp : q = p
    · subst hqp
      rw [update_self] at hq
      exact hboots f r hq
    · rwa [update_of_ne hqp] at hq

lemma out (hs : s.Queued pool l) (hcontrol : s'.control = update s.control p c)
    (hnext : s'.nextFrame = s.nextFrame) (hpool : s'.frameSwapPool = s.frameSwapPool)
    (hp : ∀ old f, s.phase p ≠ .filling old f) (hc : ∀ old f, c.phase ≠ .filling old f) :
    s'.Queued pool l := by
  refine hs.goto hcontrol hnext hpool (fun old f => iff_of_false (hc old f) (hp old f)) ?_
  intro f r hb
  obtain ⟨old, hphase⟩ := hb.phase
  exact absurd hphase (hc old f)

lemma take {f : Fin poolSize} {old : State} (hs : s.Queued pool l)
    (hcontrol : s'.control = update s.control p c) (hnext : s'.nextFrame = s.nextFrame + 1)
    (hpool : s'.frameSwapPool = s.frameSwapPool) (hframe : frameOf (s.nextFrame + 1) = some f)
    (hnone : ∀ q old f, s.phase q ≠ .filling old f) (hc : c.phase = .filling old f)
    (hboots : ∀ g r, c.Boots g r → r = s.frameSwapPool g ∧ r.ASID ≠ unoccupiedFrame) :
    s'.Queued pool l := by
  have hidle := hs.idle hnone
  have hcounter := hs.counter
  have hadd : (s.nextFrame + 1).toNat = l.length + 1 := by
    rw [BitVec.toNat_add, ← hidle]
    exact Nat.mod_eq_of_lt (by simpa using by omega)
  have hlt := lt_of_frameOf_eq_some hframe (by omega)
  have hf : f.val = (s.nextFrame + 1).toNat % poolSize := by
    rw [frameOf_of_lt hlt] at hframe
    exact (congrArg Fin.val (Option.some.inj hframe)).symm
  have hphase : ∀ q old' g, s'.phase q = .filling old' g → g = f := by
    intro q old' g hq
    unfold phase at hq
    rw [hcontrol] at hq
    by_cases hqp : q = p
    · subst hqp
      rw [update_self, hc] at hq
      exact (Phase.filling.inj hq).2.symm
    · rw [update_of_ne hqp] at hq
      exact absurd hq (hnone q old' g)
  refine ⟨hnext ▸ hlt, hpool ▸ hs.rotates, fun hn => ?_, fun q old' g hq => ?_, fun q g r hq => ?_⟩
  · refine absurd ?_ (hn p old f)
    unfold phase
    rw [hcontrol, update_self, hc]
  · obtain rfl := hphase q old' g hq
    rw [hnext, hadd]
    exact ⟨rfl, hadd ▸ hf⟩
  · rw [hpool]
    rw [hcontrol] at hq
    by_cases hqp : q = p
    · subst hqp
      rw [update_self] at hq
      exact hboots g r hq
    · rw [update_of_ne hqp] at hq
      obtain ⟨old', hphase⟩ := hq.phase
      exact absurd hphase (hnone q old' g)

lemma install {f : Fin poolSize} {old : State} {r : SwapEntry} (hs : s.Queued pool l)
    (hcontrol : s'.control = update s.control p c) (hnext : s'.nextFrame = s.nextFrame)
    (hpool : s'.frameSwapPool = update s.frameSwapPool f r) (hp : s.phase p = .filling old f)
    (hone : ∀ q old' g, s.phase q = .filling old' g → q = p)
    (hc : ∀ old f, c.phase ≠ .filling old f) : s'.Queued pool (l ++ [r]) := by
  obtain ⟨hcount, hf⟩ := hs.filling p old f hp
  have hphase : ∀ q old' g, s'.phase q ≠ .filling old' g := by
    intro q old' g hq
    unfold phase at hq
    rw [hcontrol] at hq
    by_cases hqp : q = p
    · subst hqp
      rw [update_self] at hq
      exact hc old' g hq
    · rw [update_of_ne hqp] at hq
      exact hqp (hone q old' g hq)
  refine ⟨hnext ▸ hs.counter, hpool ▸ hs.rotates.push hf, fun _ => ?_,
    fun q old' g hq => absurd hq (hphase q old' g), fun q g r' hq => ?_⟩
  · rw [hnext, hcount, List.length_append, List.length_singleton]
  · obtain ⟨old', hq⟩ := hq.phase
    exact absurd hq (hphase q old' g)

end Queued

lemma fetchedAt_run {input : Option Word}
    (hc : ∀ old back f, s.control p ≠ .tlb old back (.install f)) :
    fetchedAt (s, .run p input, s') = none := by
  unfold fetchedAt
  dsimp only
  split
  · rename_i old back f he
    exact absurd he (hc old back f)
  · rfl

lemma fetchedAt_install {input : Option Word} {old : State} {back : Back} {f : Fin poolSize}
    (hc : s.control p = .tlb old back (.install f)) :
    fetchedAt (s, .run p input, s') = some (faultRecord p old) := by
  unfold fetchedAt
  dsimp only
  rw [hc]

lemma Queued.unfetched (hq : s'.Queued pool l) (hnone : fetchedAt (s, e, s') = none) :
    s'.Queued pool (l ++ (fetchedAt (s, e, s')).toList) := by
  rw [hnone, Option.toList_none, List.append_nil]
  exact hq

/-- A step of the pool and what it fetches. -/
lemma Moves.queued (hm : s.Moves b e s') (hp : s.Paged b) (hs : s.Queued pool l) :
    s'.Queued pool (l ++ (fetchedAt (s, e, s')).toList) := by
  cases hm with
  | @look e tlb he htlb =>
    refine .unfetched (hs.same rfl rfl (fun _ _ _ => Iff.rfl) fun _ _ _ hb => hb) ?_
    cases e with
    | run q input => exact he.elim
    | _ => rfl
  | @store p st va v frame hc hf =>
    obtain ⟨tlb, hrefill, -⟩ := s.refill_eq p (accessHi p va)
    rw [hrefill]
    exact .unfetched (hs.same rfl rfl (fun _ _ _ => Iff.rfl) fun _ _ _ hb => hb) rfl
  | @fault e p st va cause back write hc hseg hf hfree =>
    obtain ⟨tlb, hrefill, -⟩ := s.refill_eq p (accessHi p va)
    have hout := hc.phase_eq
    rw [hrefill]
    refine .unfetched (hs.out rfl rfl rfl (fun _ _ he => ?_) fun _ _ he => ?_) ?_
    · rw [hout] at he
      cases he
    · cases he
    · cases e with
      | run q input =>
        obtain ⟨rfl, -, pr, stage, hcontrol, -⟩ := hc
        exact fetchedAt_run fun old back f he => by cases hcontrol.symm.trans he
      | _ => rfl
  | @aside e p c masterSema4 he hholds hio hio' hns hctl htape hservice hfree =>
    refine .unfetched (hs.out rfl rfl rfl (fun old f hfill => hns ?_) fun old f hfill => ?_) ?_
    · rw [Control.inSwap_iff]
      change (s.phase p).Inside
      rw [hfill]
      trivial
    · cases c with
      | tlb old back stage => exact absurd rfl (hctl old back stage)
      | _ => cases hfill
    · cases e with
      | run q input =>
        obtain rfl : q = p := he
        refine fetchedAt_run fun old back f hc => hns ?_
        rw [hc]
        trivial
      | _ => rfl
  | @die p input hblocked hc =>
    obtain ⟨hinstall, hfill⟩ : (∀ old back f, s.control p ≠ .tlb old back (.install f)) ∧
        ∀ old f, s.phase p ≠ .filling old f := by
      rcases hc with ⟨pr, stage, hc, -⟩ | ⟨old, pr, stage, hc, -⟩ | ⟨old, back, hc, -⟩ <;>
        refine ⟨fun _ _ _ he => ?_, fun _ _ he => ?_⟩
      all_goals first
        | cases hc.symm.trans he
        | cases (phase_of_control hc).symm.trans he
    exact .unfetched (hs.out (c := .terminate) rfl rfl rfl hfill fun _ _ he => by cases he)
      (fetchedAt_run hinstall)
  | @printStart p input old pr hc hblocked
  | @printEnd p input st pr stage tlb htlb hc hblocked
  | @printNext p input pr pr' stage stage' tlb htlb hc hblocked
  | @tapeStart p input i hc hblocked
  | @tapeEnd p input i hc hbusy hblocked
  | @enter p input old back hc hblocked hcode
  | @found p input old back lo hc hblocked hseg hlo hvalid =>
    refine .unfetched (hs.out rfl rfl rfl (fun _ _ he => ?_) fun _ _ he => by cases he)
      (fetchedAt_run fun _ _ _ he => by cases hc.symm.trans he)
    cases (phase_of_control hc).symm.trans he
  | @take p input old back frame hc hblocked hmissing hframe hvacant =>
    have hphase : s.phase p = .waiting old := phase_of_control hc
    refine .unfetched
      (hs.take rfl rfl rfl hframe (fun q old' f hq => ?_) rfl fun _ _ hb => hb.elim)
      (fetchedAt_run fun _ _ _ he => by cases hc.symm.trans he)
    exact hp.pool.not_busy hphase (not_waiting_swap hblocked) ⟨q, old', hq⟩
  | @boot p input old back frame u hc hblocked hmissing hframe hocc hpage =>
    have hphase : s.phase p = .waiting old := phase_of_control hc
    refine .unfetched (hs.take (c := .tlb old back (.boot frame (s.frameSwapPool frame) .seek))
      (p := p) (f := frame) ?_ ?_ ?_ hframe (fun q old' f hq => ?_) rfl ?_)
      (fetchedAt_run fun _ _ _ he => by cases hc.symm.trans he)
    · simp [Sys.goto, Sys.passeren]
    · simp [Sys.goto, Sys.passeren]
    · simp [Sys.goto, Sys.passeren]
    · exact hp.pool.not_busy hphase (not_waiting_swap hblocked) ⟨q, old', hq⟩
    · rintro g r ⟨rfl, rfl⟩
      exact ⟨rfl, hocc⟩
  | @booted p input old back frame hc hblocked
  | @loadEnd p input old back frame hc hbusy hblocked =>
    refine .unfetched (hs.goto rfl rfl rfl (fun _ _ => ?_) fun _ _ hb => hb.elim)
      (fetchedAt_run fun _ _ _ he => by cases hc.symm.trans he)
    rw [phase_of_control hc]
    exact Iff.rfl
  | @bootEnd p input old back frame victim hc hbusy hblocked =>
    refine .unfetched (hs.goto rfl rfl rfl (fun _ _ => ?_) fun _ _ hb => hb.elim)
      (fetchedAt_run fun _ _ _ he => by cases hc.symm.trans he)
    rw [phase_of_control hc]
    exact Iff.rfl
  | @seek p input job control hc hstages hblocked
  | @transfer p input job control hc hstages hbusy hblocked =>
    refine .unfetched (hs.goto rfl rfl rfl (fun old f => ?_) fun f r hb => ?_)
      (fetchedAt_run fun old back f he => ?_)
    · rw [phase_of_control hc]
      exact iff_of_eq (congrArg (· = Phase.filling old f) (hstages.phase_eq _ _))
    · rw [hc]
      exact (hstages.boots_iff _ _ f r).mp hb
    · cases hstages <;> cases hc.symm.trans he
  | @install p input old back frame u hc hblocked hpage =>
    have hphase : s.phase p = .filling old frame := phase_of_control hc
    rw [fetchedAt_install hc]
    refine hs.install (c := .tlb old back .leave) ?_ ?_ ?_ hphase
      (fun q old' g hq => (hp.pool.eq_of_filling hphase hq).symm) fun _ _ he => by cases he
    · simp [Sys.goto, Sys.verhogen]
    · simp [Sys.goto, Sys.verhogen]
    · simp [Sys.goto, Sys.verhogen]
  | @installOther p input old back frame hc hblocked hseg =>
    have hphase : s.phase p = .filling old frame := phase_of_control hc
    rw [fetchedAt_install hc]
    exact hs.install (c := .tlb old back .leave) rfl rfl rfl hphase
      (fun q old' g hq => (hp.pool.eq_of_filling hphase hq).symm) fun _ _ he => by cases he
  | @installTrap p input old back frame hc hblocked hseg hpage =>
    have hphase : s.phase p = .filling old frame := phase_of_control hc
    rw [fetchedAt_install hc]
    exact hs.install (c := .terminate) rfl rfl rfl hphase
      (fun q old' g hq => (hp.pool.eq_of_filling hphase hq).symm) fun _ _ he => by cases he
  | disk hd => exact .unfetched (hs.same rfl rfl (fun _ _ _ => Iff.rfl) fun _ _ _ hb => hb) rfl

lemma fresh_queued (h0 : s.Fresh) : s.Queued s.frameSwapPool [] := by
  refine ⟨?_, .start _, fun _ => ?_, fun p old f hp => ?_, fun p f r hp => ?_⟩
  · rw [h0.nextFrame]
    decide
  · rw [h0.nextFrame]
    rfl
  · rw [phase_of_control (h0.control p)] at hp
    cases hp
  · rw [h0.control] at hp
    exact hp.elim

lemma Queued.run (h0 : s₀.Fresh) (hr : Run (step b) Agrees s₀ h s) :
    s.Queued s₀.frameSwapPool (fetched h) := by
  induction hr with
  | nil => exact fresh_queued h0
  | @snoc h t t' e hr _ hs ih =>
    have hq := (step_moves hs).queued (Paged.run h0 hr) ih
    have hfetched : fetched (h ++ [(t, e, t')]) =
        fetched h ++ (fetchedAt (t, e, t')).toList := by
      unfold fetched
      rw [List.filterMap_append]
      cases hf : fetchedAt (t, e, t') <;> simp [hf]
    rw [hfetched]
    exact hq

end Sys

/-- As long as the re-checks of shared pages find what the page table says, each of the last
`POOLSIZE` pages that have been fetched is the one that the swap pool has for the frame it was
loaded into, and the page that a process sends out is the one fetched `POOLSIZE` fetches ago. No
run goes on with the fetch number `2 ^ 31`, which has no frame in the pool. -/
theorem replacement_is_fifo {s₀ s : Sys n} {h : List (Sys n × Event n × Sys n)} (h0 : s₀.Fresh)
    (hr : Run (Sys.step b) Sys.Agrees s₀ h s) :
    (∀ i f, i < (fetched h).length → (fetched h).length ≤ i + poolSize →
      f.val = (i + 1) % poolSize → (fetched h)[i]? = some (s.frameSwapPool f)) ∧
    ∀ p f victim, (s.control p).Boots f victim → poolSize ≤ (fetched h).length ∧
      (fetched h)[(fetched h).length - poolSize]? = some victim := by
  have hq := Sys.Queued.run h0 hr
  refine ⟨hq.rotates.recent, fun p f victim hb => ?_⟩
  obtain ⟨rfl, hocc⟩ := hq.boots p f victim hb
  obtain ⟨old, hphase⟩ := hb.phase
  obtain ⟨-, hf⟩ := hq.filling p old f hphase
  rcases hq.rotates.oldest hf with hinit | hold
  · rw [hinit] at hocc
    exact absurd (h0.frameSwapPool f) hocc
  · exact hold

/-- A process has fetched six pages and faults on a seventh one: the first one has to go. -/
theorem replacement_is_fifo_seventh : ∃ h s, Run (Sys.step twoProcesses) Sys.Agrees (Sys.blank 2)
    h s ∧ (s.control 0).Boots 1 ⟨1, kuseg2, 0⟩ ∧ (fetched h).length = 6 ∧
      (fetched h)[0]? = some ⟨1, kuseg2, 0⟩ := by
  obtain ⟨h, s, hr, hq⟩ := exists_run (Sys.step twoProcesses) Sys.Agrees (Sys.blank 2)
    ([.run 0 (some 0), .run 0 none] ++ reading 0 0x80000000 false ++
      reading 0 0x80001000 false ++ reading 0 0x80002000 false ++ reading 0 0x80003000 false ++
      reading 0 0x80004000 false ++ reading 0 0x80005000 false ++
      [.access 0 ⟨0, 0, 0, 0, fun _ => 0⟩ 0x80006000 .load, .run 0 none, .run 0 none])
    (fun h s => (s.control 0).Boots 1 ⟨1, kuseg2, 0⟩ ∧ (fetched h).length = 6)
    (by decide +kernel)
  obtain ⟨hboots, hlen⟩ := of_decide_eq_true hq
  obtain ⟨-, hold⟩ := (replacement_is_fifo Sys.fresh_blank hr).2 0 1 _ hboots
  rw [hlen] at hold
  exact ⟨h, s, hr, hboots, hlen, hold⟩

end Kaya.Support
