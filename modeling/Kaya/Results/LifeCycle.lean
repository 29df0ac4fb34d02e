import Kaya.Abstract.Request
import Kaya.Results.BoundedWaiting
import Kaya.Results.TwoLevels

/-!
# The life of a process

A process is free, ready, running or blocked on a semaphore. What a run of a handler does to a
process is one move of its own, for a reason that the event gives, and the dispatch of a ready
process at its end.
-/

namespace Kaya

open Function Linked

namespace Kernel

def blockedOn (k : Kernel) (s : Addr) : List PcbIx := if s = null then [] else k.waiters s

/-- The PCBs that are in one place. -/
def listAt (k : Kernel) : Home → List PcbIx :=
  homeList k.freePcbs k.readyPcbs k.blockedOn k.currentProcess

end Kernel

/-- The running process does a P on `s`, as SYS4, SYS7 or SYS8. -/
def AsksFor (m : Machine) (s : Addr) (e : Event) : Prop :=
  IsPasseren s e ∨ IsWaitForClock e ∧ s = m.clock ∨ IsWaitForIo m s e

/-- The moves that an event makes the processes do, before `Scheduler` is called. -/
inductive Moves (m : Machine) (k : Kernel) (e : Event) (q : PcbIx) : Home → Home → Prop
  /-- SYS1 takes the first free PCB. -/
  | created (h : IsCreate e) (hq : k.freePcbs.head? = some q) : Moves m k e q .free .ready
  | preempted (h : IsPreemption e) : Moves m k e q .running .ready
  | blocks (s : Addr) (h : AsksFor m s e) (hv : k.mem s ≤ 0) :
    Moves m k e q .running (.blocked s)
  /-- A V lets the one through that has waited longest. -/
  | woken (s : Addr) (h : IsVerhogen s e ∨ IsDeviceDone m k.bus s e) (hv : k.mem s < 0)
      (hq : (k.blockedOn s).head? = some q) : Moves m k e q (.blocked s) .ready
  | ticked (h : IsTick e) : Moves m k e q (.blocked m.clock) .ready
  /-- The running process `p` has to die, and `q` with it. -/
  | killed (x : Home) (p : PcbIx) (hc : k.currentProcess = some p)
      (hd : Dies m k.mem (k.procs.oldAreas p) (k.procs.newAreas p) e)
      (hq : q = p ∨ k.procs.tree.Below p q) : Moves m k e q x .free

/-- A process moves if the event makes it, and stays where it is otherwise. -/
def Goes (m : Machine) (k : Kernel) (e : Event) (q : PcbIx) (x z : Home) : Prop :=
  Moves m k e q x z ∨ x = z ∧ ∀ w, ¬ Moves m k e q x w

/-- What `Scheduler` does to a process, when the handler calls it. -/
inductive Starts (m : Machine) (k : Kernel) (e : Event) : Home → Home → Prop
  | stays (x : Home) : Starts m k e x x
  | started (h : Schedules m k e) : Starts m k e .ready .running

variable {m : Machine} {k k' k₀ : Kernel} {a a' : Nuc} {e : Event} {h : History} {p q : PcbIx}
  {s : Addr} {x y w : Home}

/-! ### Where a process is -/

lemma Rep.blockedOn_eq (hrep : Rep k a) (hi : a.Inv) : k.blockedOn = a.blocked := by
  funext s
  unfold Kernel.blockedOn
  split_ifs with hs
  · rw [eq_comm, List.eq_nil_iff_forall_not_mem]
    exact fun p hp => (hi.waits s p hp).2.ne_null hs
  · exact hrep.waiters_eq hs

lemma Rep.listAt_eq (hrep : Rep k a) (hi : a.Inv) : k.listAt = a.listAt := by
  unfold Kernel.listAt Nuc.listAt
  rw [hrep.freePcbs_eq, hrep.readyPcbs_eq, hrep.blockedOn_eq hi, hrep.currentProcess_eq]

lemma Nuc.Inv.home_unique (hi : a.Inv) (hx : q ∈ a.listAt x) (hy : q ∈ a.listAt y) : x = y := by
  obtain ⟨home, hp⟩ := hi.homes
  exact ((hp.mem_iff q x).mp hx).symm.trans ((hp.mem_iff q y).mp hy)

lemma Rep.mem_of_below (hrep : Rep k a) (hi : a.Inv) (hc : a.currentProcess = some p)
    (hq : k.procs.tree.Below p q) : q ∈ (a.tree.kids p).nodes := by
  obtain ⟨L, root, hh, ht⟩ := hrep
  have hmem := (hi.shape.mem_iff p).mpr (hi.homeless hc).free
  rw [hh.links] at hq
  exact (ht.kids hmem).mem_of_below hq

/-! ### Events and their moves -/

lemma AsksFor.exists_call (h : AsksFor m s e) : ∃ st, e = .syscall st ∧ IsCall st ∧
    (st.sA0 = passerenNum ∨ st.sA0 = waitForClockNum ∨ st.sA0 = waitForIoNum) := by
  cases e with
  | syscall st =>
    refine ⟨st, rfl, ?_⟩
    rcases h with h | ⟨h, -⟩ | h
    · exact ⟨h.1, .inl h.2.1⟩
    · exact ⟨h.1, .inr (.inl h.2)⟩
    · exact ⟨h.1, .inr (.inr h.2.1)⟩
  | _ => rcases h with h | ⟨h, -⟩ | h <;> exact h.elim

lemma AsksFor.not_dies {old new : Fin trapTypes → Addr} {mem : Addr → Int} (h : AsksFor m s e)
    (hv : mem s ≤ 0) : ¬ Dies m mem old new e := by
  rcases h with h | ⟨h, -⟩ | h
  · exact h.not_dies
  · exact h.not_dies
  · rw [Nuc.dies_iff_of_waitForIo h]
    omega

/-- Whoever becomes ready does so by an event that kills nobody. -/
lemma Moves.lives (h : Moves m k e q x .ready) : Lives m k e := by
  intro p _
  cases h with
  | created h hq =>
    cases e with
    | syscall st => exact not_dies_of_call h.1 (.inl h.2)
    | _ => exact h.elim
  | woken s h hv hq =>
    rcases h with h | ⟨line, devNum, h, -⟩
    · exact h.not_dies
    · exact h.not_dies
  | preempted h | ticked h =>
    cases e with
    | interrupt st => exact id
    | _ => exact h.elim

lemma Rep.moves_of_nowReady (hrep : Rep k a) (hi : a.Inv) (hq : q ∈ a.nowReady m e) :
    ∃ x, q ∈ a.listAt x ∧ Moves m k e q x .ready := by
  have hblocked := hrep.blockedOn_eq hi
  cases e with
  | syscall st =>
    simp only [Nuc.nowReady] at hq
    split_ifs at hq with hcall h1 h3
    · rw [Option.mem_toList] at hq
      refine ⟨.free, List.mem_of_head? hq, .created ⟨hcall, h1⟩ ?_⟩
      rw [hrep.freePcbs_eq]
      exact hq
    · rw [Option.mem_toList] at hq
      refine ⟨.blocked st.sA1, List.mem_of_head? hq, .woken _ (.inl ⟨hcall, h3.1, rfl⟩) ?_ ?_⟩
      · rw [hrep.mem_eq]
        omega
      · rw [hblocked]
        exact hq
    · cases hq
    · cases hq
  | interrupt st =>
    simp only [Nuc.nowReady] at hq
    split_ifs at hq with hplt hit
    · exact ⟨.running, hq, .preempted hplt⟩
    · exact ⟨.blocked m.clock, List.mem_of_mem_take hq, .ticked hit⟩
    · obtain ⟨⟨line, devNum⟩, hdev, hserved⟩ := Option.bind_eq_some_iff.mp (Option.mem_toList.mp hq)
      dsimp only at hserved
      split_ifs at hserved with hv
      refine ⟨.blocked _, List.mem_of_head? hserved,
        .woken _ (.inr ⟨line, devNum, ?_, by rw [hrep.bus_eq]⟩) ?_ ?_⟩
      · rw [hrep.bus_eq]
        exact servedDevice_eq_some_iff.mp hdev
      · rw [hrep.mem_eq]
        omega
      · rw [hblocked]
        exact hserved
  | _ => cases hq

lemma nowReady_of_serves {line : Fin devIntNum} {devNum : Fin numDevicesPerType}
    (h : Serves a.bus line devNum e) :
    a.nowReady m e = (served m a.mem a.blocked a.bus e).toList := by
  cases e with
  | interrupt st =>
    obtain ⟨lineNum, hl, hline⟩ := Option.bind_eq_some_iff.mp h.1
    have hplt : determineLine st.sCause ≠ some pltLine := by
      rw [hl]
      rintro he
      rw [Option.some.inj he] at hline
      cases hline
    have hit : determineLine st.sCause ≠ some itLine := by
      rw [hl]
      rintro he
      rw [Option.some.inj he] at hline
      cases hline
    simp only [Nuc.nowReady, if_neg hplt, if_neg hit]
  | _ => exact h.elim

lemma Rep.nowReady_of_moves (hrep : Rep k a) (hi : a.Inv) (hbal : (a.clockSem m).Balanced)
    (hx : q ∈ a.listAt x) (hm : Moves m k e q x .ready) : q ∈ a.nowReady m e := by
  have hblocked := hrep.blockedOn_eq hi
  cases hm with
  | created h hq =>
    rw [hrep.freePcbs_eq] at hq
    cases e with
    | syscall st => simpa [Nuc.nowReady, h.1, h.2] using hq
    | _ => exact h.elim
  | preempted h =>
    cases e with
    | interrupt st =>
      have hplt : determineLine st.sCause = some pltLine := h
      simp only [Nuc.nowReady, if_pos hplt]
      exact hx
    | _ => exact h.elim
  | woken s h hv hq =>
    rw [hblocked] at hq
    rw [hrep.mem_eq] at hv
    rcases h with h | ⟨line, devNum, h, rfl⟩
    · cases e with
      | syscall st =>
        obtain ⟨hcall, h3, rfl⟩ := h
        have h1 : st.sA0 ≠ createProcessNum := by simp [h3, verhogenNum, createProcessNum]
        have hle : a.mem st.sA1 + 1 ≤ 0 := by omega
        simp only [Nuc.nowReady, if_neg (not_not.mpr hcall), if_neg h1, if_pos (And.intro h3 hle)]
        exact Option.mem_toList.mpr hq
      | _ => exact h.elim
    · rw [hrep.bus_eq] at h hv hq
      rw [nowReady_of_serves h, Option.mem_toList]
      unfold served
      simp only [servedDevice_eq_some_iff.mpr h, Option.bind_eq_bind, Option.bind_some]
      rw [if_pos (by omega)]
      exact hq
  | ticked h =>
    cases e with
    | interrupt st =>
      have hit : determineLine st.sCause = some itLine := h
      have hplt : determineLine st.sCause ≠ some pltLine := by simp [hit, itLine, pltLine]
      have hall : (a.blocked (m.semAddr itSemIndex)).length ≤
        (-a.mem (m.semAddr itSemIndex)).toNat := hbal.le
      simp only [Nuc.nowReady, if_neg hplt, if_pos hit, List.take_of_length_le hall]
      exact hx
    | _ => exact h.elim

/-! ### The ready queue -/

lemma Turns.step_current (clock : Nat → Word) {n : News} (t : Turns) (hn : n.switches = false) :
    (t.step clock n).current = t.current := by
  unfold Turns.step
  extract_lets t₁ t₂ t₃
  have h₁ : t₁.current = t.current := by
    unfold t₁ Turns.charge
    split_ifs
    · split <;> rfl
    · rfl
  have h₂ : t₂.current = t₁.current := by
    unfold t₂
    split_ifs <;> rfl
  have h₃ : t₃.current = t.current := by
    rw [← h₁, ← h₂]
    unfold t₃ Turns.reset
    split <;> rfl
  rw [hn, if_neg Bool.false_ne_true, h₃]

lemma Handled.line_of_lives (H : Handled m k e k' a a') (hl : Lives m k e) :
    Schedules m k e ∧ a.ready ++ a.nowReady m e = a'.currentProcess.toList ++ a'.ready ∨
      a.ready ++ a.nowReady m e = a'.ready ∧ a'.currentProcess = a.currentProcess := by
  have hturns := Nuc.step_turns H.good H.running (H.rep.lives hl) H.moves
  have hready := Turns.step_ready m.reading (a.news m e) a.turns
  rw [← hturns] at hready
  by_cases hsw : Switches m a.mem a.currentProcess e
  · refine .inl ⟨.inl (by rwa [H.rep.mem_eq, H.rep.currentProcess_eq]), ?_⟩
    simpa [Nuc.news, Nuc.turns, hsw] using hready
  · refine .inr ⟨by simpa [Nuc.news, Nuc.turns, hsw] using hready, ?_⟩
    have h := Turns.step_current m.reading (n := a.news m e) a.turns (by simp [Nuc.news, hsw])
    rwa [← hturns] at h

lemma Handled.starts_of_line (H : Handled m k e k' a a') (hl : Lives m k e)
    (hq : q ∈ a.ready ++ a.nowReady m e) (hy : q ∈ a'.listAt y) : Starts m k e .ready y := by
  rcases H.line_of_lives hl with ⟨hsched, hline⟩ | ⟨hline, -⟩
  · rw [hline] at hq
    rcases List.mem_append.mp hq with hq | hq
    · obtain rfl := H.good'.inv.home_unique (x := .running) hq hy
      exact .started hsched
    · obtain rfl := H.good'.inv.home_unique (x := .ready) hq hy
      exact .stays _
  · rw [hline] at hq
    obtain rfl := H.good'.inv.home_unique (x := .ready) hq hy
    exact .stays _

lemma Handled.up_of_dies (H : Handled m k e k' a a') (hl : ¬ Lives m k e)
    (hq : q ∈ a'.currentProcess.toList ++ a'.ready) : q ∈ a.ready := by
  simp only [Lives, not_forall, not_not] at hl
  obtain ⟨p, hc, hdies⟩ := hl
  rw [Nuc.line_of_dies H.good H.safe (H.rep.currentProcess_eq.symm.trans hc)
    ((H.rep.dies_iff p).mpr hdies) H.moves] at hq
  exact List.mem_of_mem_filter hq

/-! ### The semaphores and the free list -/

lemma Nuc.Accessed.waits {z : Semaphore PcbIx} (h : a.Accessed m s e z) (hq : q ∈ z.waiters) :
    q ∈ a.blocked s ∨ a.currentProcess = some q ∧ AsksFor m s e ∧ a.mem s ≤ 0 := by
  cases h with
  | verhogen h | deviceDone h =>
    left
    unfold Semaphore.verhogen at hq
    dsimp only at hq
    split_ifs at hq
    · exact List.mem_of_mem_tail hq
    · exact hq
  | passeren p hc h =>
    unfold Semaphore.passeren at hq
    dsimp only at hq
    split_ifs at hq with hv
    · rcases List.mem_append.mp hq with hq | hq
      · exact .inl hq
      · obtain rfl := List.mem_singleton.mp hq
        exact .inr ⟨hc, h, by change a.mem s - 1 < 0 at hv; omega⟩
    · exact .inl hq
  | tick h hs => exact .inl (List.mem_of_mem_drop hq)
  | write v h => exact .inl hq
  | idle => exact .inl hq

lemma Handled.blocked (H : Handled m k e k' a a') (hq : q ∈ a'.blocked s) :
    q ∈ a.blocked s ∨ a.currentProcess = some q ∧ AsksFor m s e ∧ a.mem s ≤ 0 := by
  obtain ⟨z, hz, hsem⟩ := Nuc.sem_step H.good H.running H.safe H.moves s
  have hwaiters : a'.blocked s = z.waiters.filter (· ∉ a.dead m e) := by
    have h := congrArg Semaphore.waiters hsem
    unfold Nuc.bereaved at h
    split at h <;> exact h
  rw [hwaiters] at hq
  exact hz.waits (List.mem_of_mem_filter hq)

/-- Who has been terminated. -/
lemma Handled.freed (H : Handled m k e k' a a') (hq : q ∈ a'.free) :
    q ∈ a.free ∨ ∃ p, k.currentProcess = some p ∧
      Dies m k.mem (k.procs.oldAreas p) (k.procs.newAreas p) e ∧
      (q = p ∨ k.procs.tree.Below p q) := by
  refine ((Nuc.mem_free_step H.good H.running H.safe H.moves q).1 hq).imp_right fun hdead => ?_
  unfold Nuc.dead at hdead
  split at hdead
  · cases hdead
  · rename_i p hc
    unfold Nuc.deaths at hdead
    split_ifs at hdead with hd
    · refine ⟨p, H.rep.currentProcess_eq.trans hc, (H.rep.dies_iff p).mp hd, ?_⟩
      rcases List.mem_append.mp hdead with hq | hq
      · right
        exact H.rep.below H.good.inv hc ((Forest.postorder_perm_nodes _).mem_iff.mp hq)
      · exact .inl (List.mem_singleton.mp hq)
    · cases hdead

lemma Handled.blocked_of_asks (H : Handled m k e k' a a') (hc : a.currentProcess = some q)
    (h : AsksFor m s e) (hv : a.mem s ≤ 0) : q ∈ a'.blocked s := by
  obtain ⟨z, hz, hsem⟩ := Nuc.sem_step H.good H.running H.safe H.moves s
  have hdead : a.dead m e = [] := Nuc.dead_of_not_dies fun _ _ => h.not_dies hv
  have hz : z = (a.books.sem s).passeren q := by
    obtain ⟨st, rfl, hcall, hnum⟩ := h.exists_call
    cases hz with
    | verhogen h3 =>
      have h3 : st.sA0 = verhogenNum := h3.2.1
      rcases hnum with h | h | h <;> exact absurd (h3.symm.trans h) (by decide)
    | deviceDone hdone =>
      obtain ⟨line, devNum, hserves, -⟩ := hdone
      exact hserves.elim
    | passeren p hp =>
      obtain rfl := Option.some.inj (hc.symm.trans hp)
      rfl
    | tick htick => exact htick.elim
    | write v hw => cases hw
    | idle hv3 hd4 hp hclock hio =>
      rcases h with h | ⟨h, hs⟩ | h
      · exact absurd h hp
      · exact absurd hs (hclock h)
      · exact absurd h hio
  have hwaiters : a'.blocked s = a.blocked s ++ [q] := by
    have h := congrArg Semaphore.waiters hsem
    rw [hdead, hz] at h
    unfold Nuc.bereaved at h
    have hneg : a.mem s - 1 < 0 := by omega
    split at h <;>
      simpa [Semaphore.withdraw, Semaphore.passeren, Nuc.books, Books.sem, hneg] using h
  rw [hwaiters]
  simp

lemma Handled.free_of_dies (H : Handled m k e k' a a') (hc : k.currentProcess = some p)
    (hd : Dies m k.mem (k.procs.oldAreas p) (k.procs.newAreas p) e)
    (hq : q = p ∨ k.procs.tree.Below p q) : q ∈ a'.free := by
  have hca : a.currentProcess = some p := H.rep.currentProcess_eq.symm.trans hc
  apply (Nuc.mem_free_step H.good H.running H.safe H.moves q).2
  rw [Nuc.dead_of_current hca, Nuc.deaths, if_pos ((H.rep.dies_iff p).mpr hd)]
  rcases hq with rfl | hq
  · simp [Nuc.family]
  · have hmem := H.rep.mem_of_below H.good.inv hca hq
    exact List.mem_append_left _ ((Forest.postorder_perm_nodes _).mem_iff.mpr hmem)

/-! ### The diagram -/

lemma Handled.starts_of_moves (H : Handled m k e k' a a') (hbal : (a.clockSem m).Balanced)
    (hx : q ∈ a.listAt x) (hy : q ∈ a'.listAt y) (hm : Moves m k e q x w) :
    Starts m k e w y := by
  cases w with
  | free =>
    cases hm with
    | killed _ p hc hd hq =>
      obtain rfl := H.good'.inv.home_unique (x := .free) (H.free_of_dies hc hd hq) hy
      exact .stays _
  | ready =>
    have hq := H.rep.nowReady_of_moves H.good.inv hbal hx hm
    exact H.starts_of_line hm.lives (List.mem_append_right _ hq) hy
  | blocked s =>
    cases hm with
    | blocks _ h hv =>
      have hb := H.blocked_of_asks (Option.mem_toList.mp hx) h (H.rep.mem_eq ▸ hv)
      obtain rfl := H.good'.inv.home_unique (x := .blocked s) hb hy
      exact .stays _
  | running => cases hm

lemma Handled.starts_of_up (H : Handled m k e k' a a') (hno : ∀ w, ¬ Moves m k e q x w)
    (hx : q ∈ a.listAt x) (hy : q ∈ a'.listAt y)
    (hup : q ∈ a'.currentProcess.toList ++ a'.ready) : Starts m k e x y := by
  by_cases hl : Lives m k e
  · have hline : q ∈ a.ready ++ a.nowReady m e → Starts m k e x y := by
      intro hq
      have hready : q ∈ a.ready := by
        refine (List.mem_append.mp hq).resolve_right fun hnow => ?_
        obtain ⟨x', hx', hm⟩ := H.rep.moves_of_nowReady H.good.inv hnow
        obtain rfl := H.good.inv.home_unique hx hx'
        exact hno _ hm
      obtain rfl := H.good.inv.home_unique hx (y := .ready) hready
      exact H.starts_of_line hl hq hy
    rcases H.line_of_lives hl with ⟨-, heq⟩ | ⟨heq, hcurrent⟩
    · exact hline (heq ▸ hup)
    · rcases List.mem_append.mp hup with hc | hr
      · obtain rfl := H.good'.inv.home_unique (x := .running) hc hy
        rw [hcurrent] at hc
        obtain rfl := H.good.inv.home_unique hx (y := .running) hc
        exact .stays _
      · exact hline (heq ▸ hr)
  · obtain rfl := H.good.inv.home_unique hx (y := .ready) (H.up_of_dies hl hup)
    rcases List.mem_append.mp hup with hc | hr
    · obtain rfl := H.good'.inv.home_unique (x := .running) hc hy
      exact .started (.inr hl)
    · obtain rfl := H.good'.inv.home_unique (x := .ready) hr hy
      exact .stays _

lemma Handled.starts_of_not_moves (H : Handled m k e k' a a') (hno : ∀ w, ¬ Moves m k e q x w)
    (hx : q ∈ a.listAt x) (hy : q ∈ a'.listAt y) : Starts m k e x y := by
  cases y with
  | free =>
    rcases H.freed hy with hf | ⟨p, hc, hdies, hq⟩
    · obtain rfl := H.good.inv.home_unique hx (y := .free) hf
      exact .stays _
    · exact absurd (.killed x p hc hdies hq) (hno .free)
  | ready => exact H.starts_of_up hno hx hy (List.mem_append_right _ hy)
  | blocked s =>
    rcases H.blocked hy with hb | ⟨hc, hasks, hv⟩
    · obtain rfl := H.good.inv.home_unique hx (y := .blocked s) hb
      exact .stays _
    · obtain rfl := H.good.inv.home_unique hx (Nuc.Inv.current_mem hc)
      exact absurd (.blocks s hasks (H.rep.mem_eq ▸ hv)) (hno _)
  | running => exact H.starts_of_up hno hx hy (List.mem_append_left _ hy)

end Kaya
