import Kaya.Lib.Ledger
import Kaya.Results.RoundRobin
import Mathlib.Data.BitVec

/-!
# Processor time

Without terminations and with a clock that does not go back, the times of the processes are
what a ledger of their turns says.
-/

namespace Kaya

open Function Linked

/-- The reading number `i` of the clock, a signed number. -/
def Machine.time (m : Machine) (i : Nat) : ℤ := (m.reading i).toInt

/-- The readings never decrease, and hence never wrap. -/
def Machine.Steady (m : Machine) : Prop := ∀ i, m.time i ≤ m.time (i + 1)

/-- A turn of the process that has been started, if any, begins with the reading before number
`reads`. -/
def beginTurn (m : Machine) (reads : Nat) (L : Ledger PcbIx) : PcbPtr → Ledger PcbIx
  | none => L
  | some p => (L.read (m.time (reads - 1))).start p

/-- The ledger after a transition. A turn ends with the first reading the handler takes and
begins with the last one. -/
def ledgerAfter (m : Machine) (L : Ledger PcbIx) : Kernel × Event × Kernel → Ledger PcbIx
  | (k, e, k') =>
    let L :=
      if EndsTurn m k.mem e then (L.read (m.time k.todReads)).close
      else if IsGetCpuTime e then L.read (m.time k.todReads)
      else L
    beginTurn m k'.todReads L (started m (k, e, k'))

/-- `main` starts the first process when the first reading is taken. -/
def bootLedger (m : Machine) (k₀ : Kernel) : Ledger PcbIx :=
  ⟨[], some (0, m.time k₀.todReads), m.time k₀.todReads⟩

/-- The turns of a history. -/
def ledger (m : Machine) (k₀ : Kernel) (h : History) : Ledger PcbIx :=
  h.foldl (ledgerAfter m) (bootLedger m k₀)

/-! ### The ledger and the times -/

/-- The times on the machine are those of the ledger, as far as words can tell. -/
structure Tallies (m : Machine) (L : Ledger PcbIx) (t : Turns) : Prop where
  reads : 0 < t.reads
  now : L.now = m.time (t.reads - 1)
  total : ∀ p ∉ t.free, t.total p = BitVec.ofInt 32 (L.spent p)
  unborn : ∀ p ∈ t.free, L.spent p = 0
  sane : L.Sane

/-- The ledger agrees on whose turn it is, and since when. -/
structure OnTurn (L : Ledger PcbIx) (t : Turns) : Prop where
  current : L.current.map Prod.fst = t.current
  start : ∀ x ∈ L.current, t.start = BitVec.ofInt 32 x.2

variable {m : Machine} {L : Ledger PcbIx} {t : Turns} {n : News} {p : PcbIx}

lemma ofInt_sub (x y : ℤ) :
    BitVec.ofInt 32 (x - y) = BitVec.ofInt 32 x - BitVec.ofInt 32 y := by
  rw [Int.sub_eq_add_neg, BitVec.ofInt_add, BitVec.ofInt_neg, BitVec.sub_eq_add_neg]

lemma ofInt_time (m : Machine) (i : Nat) : BitVec.ofInt 32 (m.time i) = m.reading i :=
  BitVec.ofInt_toInt

lemma Tallies.le_time (h : Tallies m L t) (hm : m.Steady) : L.now ≤ m.time t.reads := by
  have hstep := hm (t.reads - 1)
  have hpos := h.reads
  rw [Nat.sub_add_cancel hpos] at hstep
  rw [h.now]
  exact hstep

lemma Tallies.read (h : Tallies m L t) (hm : m.Steady) :
    Tallies m (L.read (m.time t.reads)) t.read :=
  ⟨Nat.succ_pos _, rfl, h.total, h.unborn, h.sane.read (h.le_time hm)⟩

lemma Tallies.append (h : Tallies m L t) (l : List PcbIx) : Tallies m L (t.append l) :=
  ⟨h.reads, h.now, h.total, h.unborn, h.sane⟩

lemma Tallies.charge (h : Tallies m L t) (hm : m.Steady) (ho : OnTurn L t)
    (hc : t.current = some p) (hp : p ∉ t.free) :
    Tallies m (L.read (m.time t.reads)).close (t.charge m.reading) := by
  obtain ⟨⟨q, s⟩, hx, hq⟩ := Option.map_eq_some_iff.mp (ho.current.trans hc)
  obtain rfl : q = p := hq
  have hs : t.start = BitVec.ofInt 32 s := ho.start _ hx
  have hspent : ∀ r, (L.read (m.time t.reads)).close.spent r =
      L.spent r + if q = r then m.time t.reads - s else 0 := by
    intro r
    rw [Ledger.spent_close]
    unfold Ledger.account Ledger.pending Ledger.read
    simp only [hx]
    rfl
  unfold Turns.charge
  rw [hc]
  refine ⟨Nat.succ_pos _, ?_, fun r hr => ?_, fun r hr => ?_, (h.sane.read (h.le_time hm)).close⟩
  · rw [Ledger.close_now]
    rfl
  · rw [hspent]
    by_cases hrq : r = q
    · subst hrq
      simp only [update_self, if_true]
      rw [h.total r hr, hs, ← ofInt_time m, ← ofInt_sub, ← BitVec.ofInt_add]
    · have hqr : q ≠ r := Ne.symm hrq
      simp only [update_of_ne hrq, if_neg hqr, add_zero]
      exact h.total r hr
  · have hqr : q ≠ r := fun he => hp (he ▸ hr)
    rw [hspent, if_neg hqr, add_zero]
    exact h.unborn r hr

lemma Tallies.reset (h : Tallies m L t) {q : PcbPtr}
    (hq : ∀ p, q = some p → t.free.head? = some p) : Tallies m L (t.reset q) := by
  unfold Turns.reset
  cases q with
  | none => exact h
  | some q =>
    have hhead := hq q rfl
    obtain ⟨rest, hf⟩ := List.head?_eq_some_iff.mp hhead
    refine ⟨h.reads, h.now, fun r hr => ?_, fun r hr => ?_, h.sane⟩
    · dsimp only at hr
      rw [hf, List.tail_cons] at hr
      dsimp only
      by_cases hrq : r = q
      · subst hrq
        rw [update_self, h.unborn r (by simp [hf])]
        rfl
      · rw [update_of_ne hrq]
        exact h.total r (by simp [hf, hrq, hr])
    · dsimp only at hr
      rw [hf, List.tail_cons] at hr
      exact h.unborn r (by simp [hf, hr])

lemma Tallies.dispatch (h : Tallies m L t) (hm : m.Steady) (hc : L.current = none) :
    let t' := t.dispatch m.reading
    let L' := beginTurn m t'.reads L t'.current
    Tallies m L' t' ∧ OnTurn L' t' ∧ L.Grows L' := by
  unfold Turns.dispatch
  cases hr : t.ready with
  | nil =>
    refine ⟨⟨h.reads, h.now, h.total, h.unborn, h.sane⟩, ⟨?_, ?_⟩, .refl L⟩
    · simp [beginTurn, hc]
    · simp [beginTurn, hc]
  | cons p rest =>
    refine ⟨⟨Nat.succ_pos _, rfl, h.total, h.unborn, ?_⟩, ⟨rfl, ?_⟩, ?_⟩
    · exact (h.sane.read (h.le_time hm)).start p
    · intro x hx
      obtain rfl := Option.some.inj hx
      exact (ofInt_time m t.reads).symm
    · have hread : (L.read (m.time t.reads)).current = none := hc
      exact (Ledger.grows_read (h.le_time hm)).trans (Ledger.grows_start hread p)

/-- What the ledger notes of an event. -/
def noteTurns (m : Machine) (n : News) (t t' : Turns) (L : Ledger PcbIx) : Ledger PcbIx :=
  let L :=
    if n.ends then (L.read (m.time t.reads)).close
    else if n.asks then L.read (m.time t.reads)
    else L
  beginTurn m t'.reads L (if n.switches then t'.current else none)

/-- News that fit the state: only a running process ends a turn, by giving up the processor
without asking for the time, and the processor is given away only when it is free. -/
structure News.Fits (n : News) (t : Turns) : Prop where
  ends : n.ends → (∃ p, t.current = some p ∧ p ∉ t.free) ∧ n.asks = false ∧ n.switches
  switches : n.switches → n.ends ∨ t.current = none
  created : ∀ p, n.created = some p → t.free.head? = some p

lemma OnTurn.append_reset (ho : OnTurn L t) (l : List PcbIx) (q : PcbPtr) :
    OnTurn L ((t.append l).reset q) := by
  unfold Turns.reset
  cases q <;> exact ⟨ho.current, ho.start⟩

/-- The ledger keeps track of the times. -/
theorem Tallies.step (h : Tallies m L t) (hm : m.Steady) (ho : OnTurn L t) (hn : n.Fits t) :
    Tallies m (noteTurns m n t (t.step m.reading n) L) (t.step m.reading n) ∧
      OnTurn (noteTurns m n t (t.step m.reading n) L) (t.step m.reading n) ∧
      L.Grows (noteTurns m n t (t.step m.reading n) L) := by
  have hfresh : ∀ t' : Turns, t'.free = t.free → ∀ p, n.created = some p →
      (t'.append n.added).free.head? = some p := by
    intro t' ht' p hp
    change t'.free.head? = some p
    rw [ht']
    exact hn.created p hp
  by_cases hends : n.ends
  · obtain ⟨⟨p, hc, hp⟩, hasks, hsw⟩ := hn.ends hends
    have hcharge := h.charge hm ho hc hp
    have hfree : (t.charge m.reading).free = t.free := by
      unfold Turns.charge
      rw [hc]
    have hreset := (hcharge.append n.added).reset (hfresh _ hfree)
    obtain ⟨htally, hon, hgrows⟩ := hreset.dispatch hm (Ledger.close_current _)
    have hstep : t.step m.reading n =
        (((t.charge m.reading).append n.added).reset n.created).dispatch m.reading := by
      simp [Turns.step, hends, hasks, hsw]
    unfold noteTurns
    simp only [hends, hsw, if_true]
    rw [hstep]
    refine ⟨htally, hon, ?_⟩
    exact ((Ledger.grows_read (h.le_time hm)).trans (Ledger.grows_close _)).trans hgrows
  · have hasked : ∃ L₂ t₂, (if n.asks then L.read (m.time t.reads) else L) = L₂ ∧
        (if n.asks then t.read else t) = t₂ ∧ Tallies m L₂ t₂ ∧ OnTurn L₂ t₂ ∧ L.Grows L₂ ∧
        t₂.free = t.free ∧ L₂.current = L.current := by
      by_cases hasks : n.asks
      · exact ⟨_, _, if_pos hasks, if_pos hasks, h.read hm, ⟨ho.current, ho.start⟩,
          Ledger.grows_read (h.le_time hm), rfl, rfl⟩
      · exact ⟨_, _, if_neg hasks, if_neg hasks, h, ho, .refl L, rfl, rfl⟩
    obtain ⟨L₂, t₂, hL, ht, htally, hon, hgrows, hfree, hcur⟩ := hasked
    have hreset := (htally.append n.added).reset (hfresh t₂ hfree)
    have honreset := hon.append_reset n.added n.created
    by_cases hsw : n.switches
    · have hnone : L₂.current = none := by
        have hc := (hn.switches hsw).resolve_left hends
        rw [hcur]
        exact Option.map_eq_none_iff.mp (ho.current.trans hc)
      have hstep : t.step m.reading n =
          ((t₂.append n.added).reset n.created).dispatch m.reading := by
        simp [Turns.step, hends, hsw, ht]
      obtain ⟨htally', hon', hgrows'⟩ := hreset.dispatch hm hnone
      unfold noteTurns
      simp only [hends, hsw, if_true, hL]
      rw [hstep]
      exact ⟨htally', hon', hgrows.trans hgrows'⟩
    · have hstep : t.step m.reading n = (t₂.append n.added).reset n.created := by
        simp [Turns.step, hends, hsw, ht]
      unfold noteTurns
      simp only [hends, hsw, hL]
      rw [hstep]
      exact ⟨hreset, honreset, hgrows⟩

/-! ### The nucleus -/

namespace Nuc

variable {a a' : Nuc} {e : Event}

lemma exists_current_of_endsTurn (hg : a.Good) (hrun : FromProcess e → a.cpu.IsRunning)
    (he : EndsTurn m a.mem e) (hs : a.step m e = some a') : ∃ p, a.currentProcess = some p := by
  cases e with
  | syscall st => exact Option.ne_none_iff_exists'.mp (hg.onCpu.mp (hrun trivial))
  | interrupt st =>
    have hl : determineLine st.sCause = some pltLine := he.resolve_left not_false
    unfold Nuc.step interruptHandler at hs
    simp only [update_self, hl, Option.bind_eq_bind, Option.bind_some, if_true] at hs
    obtain ⟨p, hc, -⟩ := Option.bind_eq_some_iff.mp hs
    exact ⟨p, hc⟩
  | _ => simp [EndsTurn, Blocks, IsPreemption] at he

lemma news_fits (hg : a.Good) (hrun : FromProcess e → a.cpu.IsRunning)
    (hs : a.step m e = some a') : (a.news m e).Fits a.turns := by
  refine ⟨fun he => ?_, fun hsw => ?_, fun p hp => ?_⟩
  · have hends : EndsTurn m a.mem e := of_decide_eq_true he
    obtain ⟨p, hc⟩ := exists_current_of_endsTurn hg hrun hends hs
    refine ⟨⟨p, hc, (hg.inv.homeless hc).free⟩, ?_, decide_eq_true (.inl hends)⟩
    apply decide_eq_false
    intro hask
    cases e with
    | syscall st =>
      obtain ⟨-, h6⟩ := hask
      simp [EndsTurn, Blocks, IsPreemption, h6, getCpuTimeNum, passerenNum, waitForClockNum,
        waitForIoNum] at hends
    | _ => exact hask
  · have hswitch : Switches m a.mem a.currentProcess e := of_decide_eq_true hsw
    rcases hswitch with hends | ⟨hc, -⟩
    · exact .inl (decide_eq_true hends)
    · exact .inr hc
  · change a.newborn e = some p at hp
    unfold newborn at hp
    split_ifs at hp
    exact hp

lemma getCpuTime_result (hask : IsGetCpuTime e) (hc : a.currentProcess = some p)
    (hs : a.step m e = some a') :
    a'.cpu = .running (a'.oldArea .syscall) ∧ (a'.oldArea .syscall).sV0 =
      a.pTotalTime p + (m.reading a.todReads - a.processStartTime) := by
  cases e with
  | syscall st =>
    obtain ⟨hcall, h6⟩ := hask
    unfold Nuc.step syscallHandler at hs
    simp only [update_self] at hs
    rw [if_neg hcall] at hs
    unfold service at hs
    rw [h6] at hs
    change getCpuTime m _ = some a' at hs
    unfold getCpuTime at hs
    simp only [hc, Option.bind_eq_bind, Option.bind_some] at hs
    obtain rfl := Option.some.inj hs
    simp [resume, setSyscallV0, State.setV0, State.sV0, now, Machine.reading]
  | _ => exact hask.elim

end Nuc

variable {k k' k₀ : Kernel} {a a' : Nuc} {e : Event} {h : History}

lemma Rep.turns_eq (hr : Rep k a) : a.turns =
    ⟨k.freePcbs, k.currentProcess, k.readyPcbs, k.processStartTime, k.todReads,
      k.procs.pTotalTime⟩ := by
  rw [hr.freePcbs_eq, hr.readyPcbs_eq]
  conv_lhs => rw [hr.data_eq]
  rfl

/-- The ledger reads off the kernel what it notes of the news. -/
lemma Rep.ledgerAfter_eq (hr : Rep k a) (hr' : Rep k' a') (L : Ledger PcbIx) :
    ledgerAfter m L (k, e, k') = noteTurns m (a.news m e) a.turns a'.turns L := by
  have hstarted : started m (k, e, k') =
      if (a.news m e).switches then a'.turns.current else none := by
    unfold started
    dsimp only
    rw [hr.mem_eq, hr.currentProcess_eq, hr'.currentProcess_eq]
    by_cases hsw : Switches m a.mem a.currentProcess e <;> simp [Nuc.news, hsw, Nuc.turns]
  have hreads : a.turns.reads = k.todReads := by rw [hr.turns_eq]
  have hreads' : a'.turns.reads = k'.todReads := by rw [hr'.turns_eq]
  unfold ledgerAfter noteTurns
  dsimp only
  rw [hstarted, hreads, hreads', hr.mem_eq]
  by_cases hends : EndsTurn m a.mem e <;> by_cases hask : IsGetCpuTime e <;>
    simp [Nuc.news, hends, hask]

lemma ledger_snoc (m : Machine) (k₀ : Kernel) (h : History) (x : Kernel × Event × Kernel) :
    ledger m k₀ (h ++ [x]) = ledgerAfter m (ledger m k₀ h) x := by
  simp [ledger]

/-- The process `p` asks for its processor time in the transition `x`. -/
def AsksTime (p : PcbIx) (x : Kernel × Event × Kernel) : Prop :=
  IsGetCpuTime x.2.1 ∧ x.1.currentProcess = some p

/-- What SYS6 returns in `v0`. -/
def answeredTime (x : Kernel × Event × Kernel) : ℤ := (x.2.2.oldArea .syscall).sV0.toNat

/-- Whenever a process asks for its time, it goes on with the time of its completed turns and of
the current one, up to the reading that SYS6 has taken. -/
def AnswersRight (m : Machine) (k₀ : Kernel) (h : History) : Prop :=
  ∀ h₁ x h₂ p, h = h₁ ++ x :: h₂ → AsksTime p x →
    x.2.2.cpu = .running (x.2.2.oldArea .syscall) ∧
    (ledger m k₀ (h₁ ++ [x])).now = m.time x.1.todReads ∧
    answeredTime x = (ledger m k₀ (h₁ ++ [x])).spent p + (ledger m k₀ (h₁ ++ [x])).pending p

/-- Between any two moments of the history, the ledger has grown no more than the clock. -/
def GrowsAlong (m : Machine) (k₀ : Kernel) (h : History) : Prop :=
  ∀ h₁ h₂ h₃, h = h₁ ++ h₂ ++ h₃ → (ledger m k₀ h₁).Grows (ledger m k₀ (h₁ ++ h₂))

lemma bootLedger_total (m : Machine) (k₀ : Kernel) : (bootLedger m k₀).total = 0 := by
  simp [Ledger.total_eq, bootLedger, Ledger.spent, Ledger.elapsed]

lemma account_lt (hg : (bootLedger m k₀).Grows L) (hs : L.Sane) (hnow : ∃ i, L.now = m.time i)
    (p : PcbIx) : L.account p < 2 ^ 32 := by
  obtain ⟨i, hi⟩ := hnow
  have htotal := hg.total
  have hle := hs.account_le_total p
  have hlt : m.time i < 2 ^ 31 := by
    have hlt := BitVec.toInt_lt (x := m.reading i)
    exact hlt
  have hge : -2 ^ 31 ≤ m.time k₀.todReads := BitVec.le_toInt (m.reading k₀.todReads)
  have hboot : (bootLedger m k₀).now = m.time k₀.todReads := rfl
  rw [bootLedger_total, hboot, hi] at htotal
  linarith

lemma toNat_ofInt_of_lt {x : ℤ} (h0 : 0 ≤ x) (h1 : x < 2 ^ 32) :
    ((BitVec.ofInt 32 x).toNat : ℤ) = x := by
  rw [BitVec.toNat_ofInt]
  omega

lemma Rep.answer (hr : Rep k a) (hr' : Rep k' a') (hg : a.Good) (hstep : a.step m e = some a')
    (htally : Tallies m L a.turns) (hon : OnTurn L a.turns) (hask : AsksTime p (k, e, k')) :
    k'.cpu = .running (k'.oldArea .syscall) ∧
    (ledgerAfter m L (k, e, k')).now = m.time k.todReads ∧
    (k'.oldArea .syscall).sV0 =
      BitVec.ofInt 32 ((ledgerAfter m L (k, e, k')).account p) := by
  obtain ⟨h6, hc⟩ := hask
  have hc' : a.currentProcess = some p := hr.currentProcess_eq.symm.trans hc
  have hold : k'.oldArea = a'.oldArea := by
    rw [hr'.data_eq]
    rfl
  have hreads : k.todReads = a.todReads := by
    rw [hr.data_eq]
    rfl
  have hends : ¬ EndsTurn m k.mem e := by
    cases e with
    | syscall st =>
      obtain ⟨-, hst⟩ := h6
      simp [EndsTurn, Blocks, IsPreemption, hst, getCpuTimeNum, passerenNum, waitForClockNum,
        waitForIoNum]
    | _ => exact h6.elim
  have hstarted : started m (k, e, k') = none := by
    refine if_neg fun hsw => ?_
    rcases hsw with hends' | ⟨hnone, -⟩
    · exact hends hends'
    · rw [hc] at hnone
      contradiction
  have hafter : ledgerAfter m L (k, e, k') = L.read (m.time k.todReads) := by
    unfold ledgerAfter
    dsimp only
    rw [hstarted, if_neg hends, if_pos h6]
    rfl
  obtain ⟨hcpu, hv⟩ := Nuc.getCpuTime_result h6 hc' hstep
  obtain ⟨⟨q, s⟩, hx, hq⟩ := Option.map_eq_some_iff.mp (hon.current.trans hc')
  obtain rfl : q = p := hq
  have hstart : a.processStartTime = BitVec.ofInt 32 s := hon.start _ hx
  have htotal : a.pTotalTime q = BitVec.ofInt 32 (L.spent q) :=
    htally.total q (hg.inv.homeless hc').free
  have haccount : (L.read (m.time k.todReads)).account q =
      L.spent q + (m.time k.todReads - s) := by
    simp [Ledger.account, Ledger.pending, Ledger.read, hx, Ledger.spent]
  rw [hafter]
  refine ⟨?_, rfl, ?_⟩
  · rw [hr'.cpu_eq, hold]
    exact hcpu
  · rw [hold, hv, haccount, htotal, hstart, ← hreads, ← ofInt_time m, ← ofInt_sub,
      ← BitVec.ofInt_add]

/-- What a run keeps of the ledger. -/
structure Kept (m : Machine) (k₀ : Kernel) (h : History) (a : Nuc) : Prop where
  tallies : Tallies m (ledger m k₀ h) a.turns
  onTurn : OnTurn (ledger m k₀ h) a.turns
  grows : GrowsAlong m k₀ h
  answers : AnswersRight m k₀ h

lemma GrowsAlong.of_boot (hg : GrowsAlong m k₀ h) : (bootLedger m k₀).Grows (ledger m k₀ h) :=
  hg [] h [] (by simp)

lemma GrowsAlong.snoc (hg : GrowsAlong m k₀ h) {x : Kernel × Event × Kernel}
    (hx : (ledger m k₀ h).Grows (ledger m k₀ (h ++ [x]))) : GrowsAlong m k₀ (h ++ [x]) := by
  intro l₁ l₂ l₃ hl
  induction l₃ using List.reverseRecOn with
  | append_singleton l y _ =>
    rw [← List.append_assoc] at hl
    obtain ⟨hpre, -⟩ := List.append_inj' hl rfl
    exact hg l₁ l₂ l hpre
  | nil =>
    induction l₂ using List.reverseRecOn with
    | nil =>
      rw [List.append_nil]
      exact .refl _
    | append_singleton l y _ =>
      rw [List.append_nil] at hl
      rw [← hl]
      rw [← List.append_assoc] at hl
      obtain ⟨hpre, -⟩ := List.append_inj' hl rfl
      have hgrows := hg l₁ l [] (by simpa using hpre)
      rw [← hpre] at hgrows
      exact hgrows.trans hx

lemma AnswersRight.snoc (ha : AnswersRight m k₀ h) {x : Kernel × Event × Kernel}
    (hx : ∀ p, AsksTime p x → x.2.2.cpu = .running (x.2.2.oldArea .syscall) ∧
      (ledger m k₀ (h ++ [x])).now = m.time x.1.todReads ∧
      answeredTime x = (ledger m k₀ (h ++ [x])).spent p + (ledger m k₀ (h ++ [x])).pending p) :
    AnswersRight m k₀ (h ++ [x]) := by
  intro l₁ y l₂ p hl hp
  induction l₂ using List.reverseRecOn with
  | nil =>
    obtain ⟨rfl, hy⟩ := List.append_inj' hl rfl
    obtain rfl := List.singleton_inj.mp hy
    exact hx p hp
  | append_singleton l z _ =>
    rw [← List.cons_append, ← List.append_assoc] at hl
    obtain ⟨hpre, -⟩ := List.append_inj' hl rfl
    exact ha l₁ y l p hpre hp

lemma kept_boot (m : Machine) (k₀ : Kernel) : Kept m k₀ [] (Nuc.boot m k₀) := by
  have hmem : ∀ p : PcbIx, p ∉ (List.finRange maxProc).tail → p = 0 := by decide
  refine ⟨⟨Nat.succ_pos _, rfl, fun p hp => ?_, fun _ _ => rfl, ⟨by simp [ledger, bootLedger], ?_⟩⟩,
    ⟨rfl, ?_⟩, ?_, ?_⟩
  · obtain rfl := hmem p hp
    rfl
  · intro x hx
    obtain rfl := Option.some.inj hx
    exact le_rfl
  · intro x hx
    obtain rfl := Option.some.inj hx
    exact (ofInt_time m k₀.todReads).symm
  · intro l₁ l₂ l₃ hl
    obtain ⟨hl₁₂, -⟩ := List.append_eq_nil_iff.mp hl.symm
    obtain ⟨rfl, rfl⟩ := List.append_eq_nil_iff.mp hl₁₂
    exact .refl _
  · intro l₁ x l₂ p hl
    simp at hl

lemma Kept.step (hk : Kept m k₀ h a) (hm : m.Steady) (hrep : Rep k a) (hg : a.Good)
    (hd : Deliverable m k e) (hlive : Lives m k e) (hstep : a.step m e = some a')
    (hrep' : Rep k' a') : Kept m k₀ (h ++ [(k, e, k')]) a' := by
  have hrun : Nuc.FromProcess e → a.cpu.IsRunning := fun he => hrep.cpu_eq ▸ hd.running he
  have hturns := Nuc.step_turns hg hrun (hrep.lives hlive) hstep
  obtain ⟨htally, hon, hgrows⟩ := hk.tallies.step hm hk.onTurn (Nuc.news_fits hg hrun hstep)
  rw [← hturns, ← hrep.ledgerAfter_eq hrep', ← ledger_snoc] at htally hon hgrows
  have halong := hk.grows.snoc hgrows
  refine ⟨htally, hon, halong, hk.answers.snoc fun p hask => ?_⟩
  obtain ⟨hcpu, hnow, hv⟩ := hrep.answer hrep' hg hstep hk.tallies hk.onTurn hask
  rw [← ledger_snoc] at hnow hv
  refine ⟨hcpu, hnow, ?_⟩
  have hlt := account_lt halong.of_boot htally.sane ⟨_, hnow⟩ p
  unfold answeredTime
  rw [hv, toNat_ofInt_of_lt (htally.sane.account_nonneg p) hlt]
  rfl

/-- In every run without terminations on a machine whose clock never goes back: the ledger has
the running process on turn; the time of each process is that of its completed turns; SYS6
returns it with the time of the current turn added; two answers to one process differ by no more
than the time between them; and all times together never exceed the time since boot. -/
theorem cpu_time_conserved (hm : m.Steady) (hr : Reaches m (Lives m) k₀ h k) :
    (ledger m k₀ h).current.map Prod.fst = k.currentProcess ∧
    (∀ p, p ∉ k.freePcbs → ((k.procs.pTotalTime p).toNat : ℤ) = (ledger m k₀ h).spent p) ∧
    AnswersRight m k₀ h ∧
    (∀ h₁ x h₂ y h₃ p, h = h₁ ++ x :: h₂ ++ y :: h₃ → AsksTime p x → AsksTime p y →
      answeredTime x ≤ answeredTime y ∧
      answeredTime y - answeredTime x ≤ m.time y.1.todReads - m.time x.1.todReads) ∧
    ∀ t, (ledger m k₀ h).now ≤ t →
      ∑ p with p ∉ k.freePcbs, ((k.procs.pTotalTime p).toNat : ℤ) + (ledger m k₀ h).elapsed t ≤
        t - m.time k₀.todReads := by
  have hend : ∃ a, Rep k a ∧ a.Good ∧ Kept m k₀ h a :=
    hr.induct (fun _ _ => Lives.not_killsStale) (kept_boot m k₀)
      fun _ _ _ _ _ _ hk hrep hg hd hlive _ hstep hrep' _ =>
        hk.step hm hrep hg hd hlive hstep hrep'
  obtain ⟨a, hrep, hg, htally, hon, hgrows, hanswers⟩ := hend
  rw [hrep.turns_eq] at htally hon
  have htime : ∀ p, p ∉ k.freePcbs →
      ((k.procs.pTotalTime p).toNat : ℤ) = (ledger m k₀ h).spent p := by
    intro p hp
    have hlt := account_lt hgrows.of_boot htally.sane ⟨_, htally.now⟩ p
    have hnonneg := htally.sane.pending_nonneg p
    have htotal : k.procs.pTotalTime p = BitVec.ofInt 32 ((ledger m k₀ h).spent p) :=
      htally.total p hp
    rw [htotal, toNat_ofInt_of_lt (htally.sane.spent_nonneg p)]
    unfold Ledger.account at hlt
    linarith
  refine ⟨hon.current, htime, hanswers, ?_, ?_⟩
  · intro h₁ x h₂ y h₃ p hh hx hy
    have hh' : h = h₁ ++ x :: (h₂ ++ y :: h₃) := by simpa using hh
    obtain ⟨-, hnow, hvx⟩ := hanswers h₁ x _ p hh' hx
    obtain ⟨-, hnow', hvy⟩ := hanswers (h₁ ++ x :: h₂) y h₃ p hh hy
    have hg' : (ledger m k₀ (h₁ ++ [x])).Grows (ledger m k₀ (h₁ ++ x :: h₂ ++ [y])) := by
      have hbetween := hgrows (h₁ ++ [x]) (h₂ ++ [y]) h₃ (by simpa using hh)
      simpa using hbetween
    have hlower := hg'.lower p
    have hupper := hg'.upper p
    unfold Ledger.account at hlower hupper
    rw [hnow, hnow', ← hvx, ← hvy] at hupper
    rw [← hvx, ← hvy] at hlower
    exact ⟨hlower, by linarith⟩
  · intro t ht
    have hsum : ∑ p with p ∉ k.freePcbs, ((k.procs.pTotalTime p).toNat : ℤ) =
        ∑ p, (ledger m k₀ h).spent p := by
      rw [Finset.sum_filter]
      refine Finset.sum_congr rfl fun p _ => ?_
      split_ifs with hp
      · exact (htally.unborn p hp).symm
      · exact htime p hp
    have htotal := hgrows.of_boot.total
    have hbootnow : (bootLedger m k₀).now = m.time k₀.todReads := rfl
    rw [bootLedger_total, hbootnow, Ledger.total_eq] at htotal
    rw [hsum]
    have helapsed : (ledger m k₀ h).elapsed t ≤
        (ledger m k₀ h).elapsed (ledger m k₀ h).now + (t - (ledger m k₀ h).now) := by
      unfold Ledger.elapsed
      cases (ledger m k₀ h).current with
      | none => simpa using ht
      | some x =>
        dsimp only
        linarith
    linarith

/-- The small machine with a clock that goes on by one with each of the first readings. -/
def ticking : Machine := { demo with tod := fun i => BitVec.ofNat 32 (min i 1000) }

lemma ticking_time (i : Nat) : ticking.time i = min i 1000 := by
  have hreading : ticking.reading i = BitVec.ofNat 32 (min i 1000) := BitVec.sdiv_one
  unfold Machine.time
  rw [hreading, BitVec.toInt_eq_toNat_cond, BitVec.toNat_ofNat]
  omega

lemma ticking_steady : ticking.Steady := by
  intro i
  rw [ticking_time, ticking_time]
  omega

/-- The initial process creates another one and the timer interrupts them in turn, three times:
the initial process has then used three units in two turns. -/
theorem cpu_time_conserved_two : ∃ h k, Reaches ticking (Lives ticking) blankKernel h k ∧
    (ledger ticking blankKernel h).turns.length = 3 ∧
    (ledger ticking blankKernel h).spent 0 = 3 := by
  obtain ⟨h, k, hr, hq⟩ := exists_reaches (P := Lives ticking) ticking blankKernel
    (fun k e => Deliverable ticking k e ∧ Lives ticking k e)
    [sys 1 0x20030000 0 0, irq 0x200, sys 6 0 0 0, irq 0x200, sys 6 0 0 0, irq 0x200]
    (fun h k => (ledger ticking blankKernel h).turns.length = 3 ∧ 0 ∉ k.freePcbs ∧
      k.procs.pTotalTime 0 = 3) (fun _ _ hok => hok) (by decide +kernel)
  obtain ⟨hlen, hfree, htime⟩ := of_decide_eq_true hq
  refine ⟨h, k, hr, hlen, ?_⟩
  rw [← (cpu_time_conserved ticking_steady hr).2.1 0 hfree, htime]
  rfl

end Kaya
