import Kaya.Results.Acknowledge

/-!
# Rendezvous of SYS8 and the interrupt

A process that waits for a device continues with its status exactly when its SYS8 comes before
the interrupt. When the interrupt comes first, SYS8 terminates the process.
-/

namespace Kaya

open Function Linked

variable {m : Machine} {k k' k₀ : Kernel} {a a' : Nuc} {e : Event} {h h₀ : History} {p : PcbIx}
  {d : SubDevice} {w : Word} {t₁ t₂ : Kernel × Event × Kernel}

/-- The transition is the SYS8 of `p` for the device. -/
def Requests (m : Machine) (d : SubDevice) (p : PcbIx) (t : Kernel × Event × Kernel) : Prop :=
  t.1.currentProcess = some p ∧ IsWaitForIo m (d.sem m) t.2.1

/-- The transition serves an interrupt of the device, whose status word is `w`. -/
def Completes (d : SubDevice) (w : Word) (t : Kernel × Event × Kernel) : Prop :=
  Serves t.1.bus d.line d.devNum t.2.1 ∧ d.Interrupts (t.1.bus.devreg d.line d.devNum) ∧
    d.status (t.1.bus.devreg d.line d.devNum) = w

/-- The handler takes an interrupt of the other half of a terminal for one of the device. -/
def Mistakes (d : SubDevice) (k : Kernel) (e : Event) : Prop :=
  Serves k.bus d.line d.devNum e ∧ d.Taken (k.bus.devreg d.line d.devNum) ∧
    ¬ d.Interrupts (k.bus.devreg d.line d.devNum)

instance (d : SubDevice) (k : Kernel) (e : Event) : Decidable (Mistakes d k e) :=
  inferInstanceAs (Decidable (_ ∧ _))

/-- Nobody else accesses the semaphore of the device, and no interrupt of the device is taken for
one. -/
def LeavesDevice (m : Machine) (d : SubDevice) (k : Kernel) (e : Event) : Prop :=
  ¬ IsVerhogen (d.sem m) e ∧ ¬ IsPasseren (d.sem m) e ∧ ¬ IsWaitForIo m (d.sem m) e ∧
    ¬ (Serves k.bus d.line d.devNum e ∧ d.Taken (k.bus.devreg d.line d.devNum) ∧
      d.Interrupts (k.bus.devreg d.line d.devNum))

/-- The SYS8 of `p` and the interrupt of the device are handled in `k`, one now and one at the
end. In between nobody else uses the device, and nobody terminates `p`. No other process has asked
for the device. -/
structure Rendezvous (m : Machine) (d : SubDevice) (p : PcbIx) (w : Word) (k : Kernel)
    (t₁ : Kernel × Event × Kernel) (h : History) (t₂ : Kernel × Event × Kernel) (k' : Kernel) :
    Prop where
  run : Run (step m) (fun k e => Deliverable m k e ∧ ¬ KillsStale m k e ∧
    InRange m k.bus k.mem e) k ([t₁] ++ h ++ [t₂]) k'
  order : Requests m d p t₁ ∧ Completes d w t₂ ∨ Completes d w t₁ ∧ Requests m d p t₂
  quiet : ∀ t ∈ h, LeavesDevice m d t.1 t.2.1
  spared : ∀ t ∈ h, p ∈ t.2.2.freePcbs → p ∈ t.1.freePcbs
  alone : k.waiters (d.sem m) = []

/-- Once both are handled the process is alive, in one place from which it continues, with `w` in
`v0`, and the semaphore of the device is as before. If it has asked first, it has not gone on
before the interrupt. -/
structure ContinuesOnce (m : Machine) (d : SubDevice) (p : PcbIx) (w : Word) (k : Kernel)
    (t₁ : Kernel × Event × Kernel) (h : History) (t₂ : Kernel × Event × Kernel) (k' : Kernel) :
    Prop where
  alive : ∀ t ∈ [t₁] ++ h ++ [t₂], p ∉ t.2.2.freePcbs
  waits : Requests m d p t₁ → ∀ t ∈ h ++ [t₂], p ∉ t.1.readyPcbs ∧ t.1.currentProcess ≠ some p
  once : (k'.readyPcbs ++ k'.currentProcess.toList).count p = 1
  status : p ∈ k'.readyPcbs ∧ (k'.procs.pS p).sV0 = w ∨
    k'.currentProcess = some p ∧ ∃ st, k'.cpu = .running st ∧ st.sV0 = w
  restored : k'.mem (d.sem m) = k.mem (d.sem m)

lemma LeavesDevice.untouched (hq : LeavesDevice m d k e) (hm : ¬ Mistakes d k e) :
    Untouched m k.bus (d.sem m) e := by
  obtain ⟨hv, hp, hio, hdone⟩ := hq
  refine ⟨hv, hp, hio, ?_⟩
  intro hd
  obtain ⟨hs, ht⟩ := SubDevice.isDeviceDone_iff.mp hd
  by_cases hi : d.Interrupts (k.bus.devreg d.line d.devNum)
  · exact hdone ⟨hs, ht, hi⟩
  · exact hm ⟨hs, ht, hi⟩

lemma Rep.not_goesOn {s : Addr} (hrep : Rep k a) (hi : a.Inv) (hp : p ∈ a.blocked s) :
    p ∉ k.readyPcbs ∧ k.currentProcess ≠ some p := by
  rw [hrep.readyPcbs_eq, hrep.currentProcess_eq]
  refine ⟨hi.mem_listAt_ne (i := .blocked s) (j := .ready) hp (by simp), fun hc => ?_⟩
  exact (hi.homeless hc).blocked s hp

lemma Rep.quietRun (hrep : Rep k a) (hg : a.Good)
    (hr : Run (step m) (fun k e => Deliverable m k e ∧ ¬ KillsStale m k e ∧
      InRange m k.bus k.mem e) k h k')
    (hquiet : ∀ t ∈ h, Untouched m t.1.bus (d.sem m) t.2.1)
    (hspared : ∀ t ∈ h, p ∈ t.2.2.freePcbs → p ∈ t.1.freePcbs)
    (hw : a.blocked (d.sem m) = [p]) :
    ∃ a', Rep k' a' ∧ a'.Good ∧ a'.mem (d.sem m) = a.mem (d.sem m) ∧
      a'.blocked (d.sem m) = [p] ∧
      ∀ t ∈ h, p ∉ t.2.2.freePcbs ∧ p ∉ t.1.readyPcbs ∧ t.1.currentProcess ≠ some p := by
  have hstrong := hr.strengthen (P := fun (k : Kernel) e => Untouched m k.bus (d.sem m) e ∧
    ∀ k', step m k e = some k' → p ∈ k'.freePcbs → p ∈ k.freePcbs) fun t ht =>
      ⟨hquiet t ht, fun k' hk hp => by
        obtain rfl := Option.some.inj ((hr.step_of_mem ht).symm.trans hk)
        exact hspared t ht hp⟩
  refine hrep.run (P := fun k e => ¬ KillsStale m k e ∧ Untouched m k.bus (d.sem m) e ∧
    ∀ k', step m k e = some k' → p ∈ k'.freePcbs → p ∈ k.freePcbs)
    (I := fun h a' => a'.mem (d.sem m) = a.mem (d.sem m) ∧ a'.blocked (d.sem m) = [p] ∧
      ∀ t ∈ h, p ∉ t.2.2.freePcbs ∧ p ∉ t.1.readyPcbs ∧ t.1.currentProcess ≠ some p) hg
    (hstrong.mono fun _ _ ho => ⟨ho.1.1, ho.1.2.1, ho.2⟩) (fun _ _ hP => hP.1)
    ⟨rfl, hw, by simp⟩ ?_
  rintro l k₁ e k₂ b b' ⟨hmem, hblocked, hall⟩ hrep₁ hg₁ hd ⟨hstale, hu, hsp⟩ hk hstep hrep₂ hg₂
  have hrun : Nuc.FromProcess e → b.cpu.IsRunning := fun he => hrep₁.cpu_eq ▸ hd.running he
  have hsafe := hrep₁.safe hg₁.inv hstale
  obtain ⟨hm', hb'⟩ := Nuc.untouched_step hg₁ hrun hsafe hstep (hrep₁.bus_eq ▸ hu) fun v he => by
    subst he
    exact hd.2 (d.inSemaphoreArray m)
  have hp : p ∈ b.blocked (d.sem m) := by simp [hblocked]
  have hlive : p ∉ b.dead m e := by
    intro hdead
    have hfree := hsp k₂ hk
    rw [hrep₂.freePcbs_eq, hrep₁.freePcbs_eq] at hfree
    have hpf : p ∉ b.free :=
      hg₁.inv.mem_listAt_ne (i := .blocked (d.sem m)) (j := .free) hp (by simp)
    exact hpf (hfree ((Nuc.mem_free_step hg₁ hrun hsafe hstep p).2 hdead))
  have hsame : b'.blocked (d.sem m) = [p] := by
    rw [hb', hblocked]
    simp [hlive]
  refine ⟨hm'.trans hmem, hsame, ?_⟩
  rw [List.forall_mem_append, List.forall_mem_singleton]
  refine ⟨hall, ?_, hrep₁.not_goesOn hg₁.inv hp⟩
  rw [hrep₂.freePcbs_eq]
  have hp' : p ∈ b'.blocked (d.sem m) := by simp [hsame]
  exact hg₂.inv.mem_listAt_ne (i := .blocked (d.sem m)) (j := .free) hp' (by simp)

lemma Rep.unasked (hrep : Rep k a) (hg : a.Good)
    (hr : Run (step m) (fun k e => Deliverable m k e ∧ ¬ KillsStale m k e ∧
      InRange m k.bus k.mem e) k h k')
    (hquiet : ∀ t ∈ h, LeavesDevice m d t.1 t.2.1) (hw : a.blocked (d.sem m) = []) :
    ∃ a', Rep k' a' ∧ a'.Good ∧ a'.blocked (d.sem m) = [] := by
  refine hrep.run (P := fun k e => ¬ KillsStale m k e ∧ LeavesDevice m d k e)
    (I := fun _ a' => a'.blocked (d.sem m) = []) hg
    ((hr.strengthen hquiet).mono fun _ _ ho => ⟨ho.1.1, ho.1.2.1, ho.2⟩) (fun _ _ hP => hP.1) hw ?_
  rintro l k₁ e k₂ b b' hblocked hrep₁ hg₁ hd ⟨hstale, hq⟩ - hstep - -
  have hrun : Nuc.FromProcess e → b.cpu.IsRunning := fun he => hrep₁.cpu_eq ▸ hd.running he
  have hsafe := hrep₁.safe hg₁.inv hstale
  by_cases hs : Serves b.bus d.line d.devNum e
  · exact Nuc.serves_blocked_nil hg₁ hrun hsafe hstep hs hblocked
  · have hu := hq.untouched fun hmis => hs (hrep₁.bus_eq ▸ hmis.1)
    obtain ⟨-, hb'⟩ := Nuc.untouched_step hg₁ hrun hsafe hstep (hrep₁.bus_eq ▸ hu) fun v he => by
      subst he
      exact hd.2 (d.inSemaphoreArray m)
    rw [hb', hblocked]
    rfl

lemma Rep.count_eq (hrep : Rep k a) (p : PcbIx) :
    (k.readyPcbs ++ k.currentProcess.toList).count p =
      (a.ready ++ a.currentProcess.toList).count p := by
  rw [hrep.readyPcbs_eq, hrep.currentProcess_eq]

lemma Rep.continuesOnce (hrep : Rep k' a) (hi : a.Inv) (hgo : a.GoesOnWith p w)
    (hmem : a.mem (d.sem m) = k.mem (d.sem m))
    (halive : ∀ t ∈ [t₁] ++ h ++ [t₂], p ∉ t.2.2.freePcbs)
    (hwaits : ∀ t ∈ h ++ [t₂], p ∉ t.1.readyPcbs ∧ t.1.currentProcess ≠ some p) :
    ContinuesOnce m d p w k t₁ h t₂ k' where
  alive := halive
  waits := fun _ => hwaits
  once := by
    rw [hrep.count_eq]
    exact hi.count_eq_one (hgo.imp And.left And.left)
  status := by
    rw [hrep.readyPcbs_eq, hrep.currentProcess_eq, hrep.cpu_eq]
    have hpS : k'.procs.pS = a.pS := by
      rw [hrep.data_eq]
      rfl
    rw [hpS]
    exact hgo
  restored := by
    rw [hrep.mem_eq]
    exact hmem

/-- The two transitions of a rendezvous and the run between them. -/
lemma Rendezvous.split (hx : Rendezvous m d p w k t₁ h t₂ k') (hrep : Rep k a) (hg : a.Good) :
    ∃ e₁ k₁ a₁ k₂ e₂, t₁ = (k, e₁, k₁) ∧ t₂ = (k₂, e₂, k') ∧ Handled m k e₁ k₁ a a₁ ∧
      Run (step m) (fun k e => Deliverable m k e ∧ ¬ KillsStale m k e ∧
        InRange m k.bus k.mem e) k₁ h k₂ ∧
      ∀ a₂, Rep k₂ a₂ → a₂.Good → ∃ a', Handled m k₂ e₂ k' a₂ a' := by
  obtain ⟨k₂, hr₂, hr₃⟩ := hx.run.of_append
  obtain ⟨k₁, hr₁, hr₂⟩ := hr₂.of_append
  obtain ⟨ht₁, ⟨hd₁, hs₁, -⟩, hk₁⟩ := hr₁.of_singleton
  obtain ⟨ht₂, ⟨hd₂, hs₂, -⟩, hk₂⟩ := hr₃.of_singleton
  obtain ⟨a₁, h₁⟩ := Handled.of_step hrep hg hd₁ hs₁ hk₁
  exact ⟨t₁.2.1, k₁, a₁, k₂, t₂.2.1, ht₁, ht₂, h₁, hr₂, fun a₂ hrep₂ hg₂ =>
    Handled.of_step hrep₂ hg₂ hd₂ hs₂ hk₂⟩

lemma Rendezvous.not_continues_of_completes (hx : Rendezvous m d p w k t₁ h t₂ k')
    (hrep : Rep k a) (hg : a.Good) (h₁ : Completes d w t₁) (h₂ : Requests m d p t₂) :
    ¬ ContinuesOnce m d p w k t₁ h t₂ k' := by
  obtain ⟨e₁, k₁, a₁, k₂, e₂, rfl, rfl, hh₁, hr, hlast⟩ := hx.split hrep hg
  intro hc
  have hb : a.blocked (d.sem m) = [] := by
    rw [← hrep.waiters_eq (d.sem_ne_null m)]
    exact hx.alone
  have hb₁ : a₁.blocked (d.sem m) = [] :=
    Nuc.serves_blocked_nil hg hh₁.running hh₁.safe hh₁.moves (hrep.bus_eq ▸ h₁.1) hb
  obtain ⟨a₂, hrep₂, hg₂, -⟩ := hh₁.rep'.unasked hh₁.good' hr hx.quiet hb₁
  obtain ⟨a', hh₂⟩ := hlast a₂ hrep₂ hg₂
  have hreq := Nuc.request_step hg₂ hh₂.running hh₂.safe hh₂.moves
    (hrep₂.currentProcess_eq ▸ h₂.1) h₂.2
  split_ifs at hreq
  · have halive := hc.alive (k₂, e₂, k') (by simp)
    rw [hh₂.rep'.freePcbs_eq] at halive
    exact halive hreq
  · have hp : p ∈ a'.blocked (d.sem m) := by simp [hreq.2]
    have honce := hc.once
    rw [hh₂.rep'.count_eq, hh₂.good'.inv.count_eq_zero hp] at honce
    cases honce

lemma Rep.goes_on_early {r : History} (hrep : Rep k a) (hg : a.Good)
    (hr : Run (step m) (fun k e => Deliverable m k e ∧ ¬ KillsStale m k e ∧
      InRange m k.bus k.mem e) k (h ++ r) k')
    (hquiet : ∀ t ∈ h, LeavesDevice m d t.1 t.2.1)
    (hspared : ∀ t ∈ h, p ∈ t.2.2.freePcbs → p ∈ t.1.freePcbs) (hne : r ≠ [])
    (hv : a.mem (d.sem m) < 0) (hw : a.blocked (d.sem m) = [p])
    (hmis : ∃ t ∈ h, Mistakes d t.1 t.2.1) :
    ∃ t ∈ h ++ r, p ∈ t.1.readyPcbs ∨ t.1.currentProcess = some p := by
  obtain ⟨x, hx⟩ : ∃ x, h.find? (fun t => Mistakes d t.1 t.2.1) = some x := by
    rw [← Option.isSome_iff_exists, List.find?_isSome]
    simpa using hmis
  obtain ⟨hfirst, l, l', rfl, hl⟩ := List.find?_eq_some_iff_append.mp hx
  obtain ⟨hs, ht, -⟩ : Mistakes d x.1 x.2.1 := of_decide_eq_true hfirst
  rw [List.append_assoc, List.cons_append] at hr
  obtain ⟨k₁, hr₁, hr₂⟩ := hr.of_append
  obtain ⟨k₂, hr₂, hr₃⟩ := (List.singleton_append ▸ hr₂ :
    Run _ _ k₁ ([x] ++ (l' ++ r)) k').of_append
  obtain ⟨a₁, hrep₁, hg₁, hm₁, hb₁, -⟩ := hrep.quietRun (p := p) hg hr₁
    (fun t ht => (hquiet t (by simp [ht])).untouched (by simpa using hl t ht))
    (fun t ht => hspared t (by simp [ht])) hw
  obtain ⟨hx₁, ⟨hd₁, hs₁, -⟩, hk₁⟩ := hr₂.of_singleton
  obtain ⟨a₂, hh⟩ := Handled.of_step hrep₁ hg₁ hd₁ hs₁ hk₁
  rw [hx₁] at hs ht
  rw [hrep₁.bus_eq] at hs ht
  have hgo := Nuc.completion_step hh.moves hs ht (by omega) hb₁
  obtain ⟨y, hy, rfl⟩ := hr₃.exists_fst_eq (by simp [hne])
  refine ⟨y, by simp at hy ⊢; tauto, ?_⟩
  rw [hh.rep'.readyPcbs_eq, hh.rep'.currentProcess_eq]
  exact hgo.imp And.left And.left

/-- When SYS8 is handled first, everything depends on the value of the semaphore and on the half
of the terminal that the handler takes its interrupts for. -/
lemma Rendezvous.continues_iff_of_requests (hx : Rendezvous m d p w k t₁ h t₂ k')
    (hrep : Rep k a) (hg : a.Good) (h₁ : Requests m d p t₁) (h₂ : Completes d w t₂) :
    ContinuesOnce m d p w k t₁ h t₂ k' ↔ k.mem (d.sem m) ≤ 0 ∧
      d.Taken (t₂.1.bus.devreg d.line d.devNum) ∧ ∀ t ∈ h, ¬ Mistakes d t.1 t.2.1 := by
  have hrun := hx.run
  obtain ⟨e₁, k₁, a₁, k₂, e₂, rfl, rfl, hh₁, hr, hlast⟩ := hx.split hrep hg
  have hb : a.blocked (d.sem m) = [] := by
    rw [← hrep.waiters_eq (d.sem_ne_null m)]
    exact hx.alone
  have hreq := Nuc.request_step hg hh₁.running hh₁.safe hh₁.moves
    (hrep.currentProcess_eq ▸ h₁.1) h₁.2
  rw [hrep.mem_eq]
  by_cases hv : 0 < a.mem (d.sem m)
  · rw [if_pos hv] at hreq
    refine iff_of_false (fun hc => ?_) fun ⟨hle, _⟩ => by omega
    have halive := hc.alive (k, e₁, k₁) (by simp)
    rw [hh₁.rep'.freePcbs_eq] at halive
    exact halive hreq
  rw [if_neg hv, hb, List.nil_append] at hreq
  obtain ⟨hm₁, hb₁⟩ := hreq
  by_cases hmis : ∃ t ∈ h, Mistakes d t.1 t.2.1
  · refine iff_of_false (fun hc => ?_) fun ⟨_, _, hnone⟩ => ?_
    · rw [List.append_assoc] at hrun
      obtain ⟨k₃, hr₁, hr₂⟩ := hrun.of_append
      obtain rfl := congrArg (·.2.2) hr₁.of_singleton.1
      obtain ⟨t, ht, hgoes⟩ := hh₁.rep'.goes_on_early hh₁.good' hr₂ hx.quiet hx.spared (by simp)
        (by omega) hb₁ hmis
      obtain ⟨hready, hcur⟩ := hc.waits h₁ t ht
      exact hgoes.elim hready hcur
    · obtain ⟨t, ht, hmis⟩ := hmis
      exact hnone t ht hmis
  · have hnone : ∀ t ∈ h, ¬ Mistakes d t.1 t.2.1 := fun t ht hm => hmis ⟨t, ht, hm⟩
    obtain ⟨a₂, hrep₂, hg₂, hm₂, hb₂, hall⟩ := hh₁.rep'.quietRun (p := p) hh₁.good' hr
      (fun t ht => (hx.quiet t ht).untouched (hnone t ht)) hx.spared hb₁
    rw [hm₁] at hm₂
    obtain ⟨a', hh₂⟩ := hlast a₂ hrep₂ hg₂
    have hserves : Serves a₂.bus d.line d.devNum e₂ := hrep₂.bus_eq ▸ h₂.1
    rw [hrep₂.bus_eq]
    by_cases ht : d.Taken (a₂.bus.devreg d.line d.devNum)
    · refine iff_of_true ?_ ⟨by omega, ht, hnone⟩
      have hgo := Nuc.completion_step hh₂.moves hserves ht (by omega) hb₂
      have hm' := congrArg Semaphore.value (Nuc.serves_sem hh₂.moves hserves ht)
      change a'.mem _ = a₂.mem _ + 1 at hm'
      have hw : d.status (a₂.bus.devreg d.line d.devNum) = w := hrep₂.bus_eq ▸ h₂.2.2
      rw [hw] at hgo
      refine hh₂.rep'.continuesOnce hh₂.good'.inv hgo ?_ ?_ ?_
      · rw [hrep.mem_eq]
        omega
      · simp only [List.forall_mem_append, List.forall_mem_singleton]
        refine ⟨⟨?_, fun t ht => (hall t ht).1⟩, ?_⟩
        · rw [hh₁.rep'.freePcbs_eq]
          have hp : p ∈ a₁.blocked (d.sem m) := by simp [hb₁]
          exact hh₁.good'.inv.mem_listAt_ne (i := .blocked (d.sem m)) (j := .free) hp (by simp)
        · rw [hh₂.rep'.freePcbs_eq]
          exact hgo.not_free hh₂.good'.inv
      · simp only [List.forall_mem_append, List.forall_mem_singleton]
        exact ⟨fun t ht => (hall t ht).2, hrep₂.not_goesOn hg₂.inv (s := d.sem m) (by simp [hb₂])⟩
    · refine iff_of_false ?_ fun h => ht h.2.1
      intro hc
      have hmem := (Nuc.untouched_step hg₂ hh₂.running hh₂.safe hh₂.moves (hserves.untouched ht)
        fun v he => by subst he; exact hserves.elim).1
      have hres := hc.restored
      rw [hh₂.rep'.mem_eq, hrep.mem_eq] at hres
      omega

/-- In every run without stale terminations: of the two orders of SYS8 and the interrupt of the
device, the process continues as it should in the one with SYS8 first, provided the semaphore was
not above zero, the handler takes the interrupt for this half of the terminal, and has taken none
of the other half for it before; and in no other case. -/
theorem io_rendezvous (hr : Reaches m (fun k e => ¬ KillsStale m k e ∧ InRange m k.bus k.mem e)
      k₀ h₀ k) (hx : Rendezvous m d p w k t₁ h t₂ k') :
    ContinuesOnce m d p w k t₁ h t₂ k' ↔ Requests m d p t₁ ∧ k.mem (d.sem m) ≤ 0 ∧
      d.Taken (t₂.1.bus.devreg d.line d.devNum) ∧ ∀ t ∈ h, ¬ Mistakes d t.1 t.2.1 := by
  obtain ⟨a, hrep, hg⟩ := hr.rep fun _ _ hs => hs.1
  rcases hx.order with ⟨h₁, h₂⟩ | ⟨h₁, h₂⟩
  · rw [hx.continues_iff_of_requests hrep hg h₁ h₂]
    simp [h₁]
  · refine iff_of_false (hx.not_continues_of_completes hrep hg h₁ h₂) fun hreq => ?_
    exact hreq.1.2.not_serves h₁.1

/-- The transmitter of the first terminal. -/
def printer : SubDevice := ⟨4, ⟨0, numDevicesPerType_pos⟩, false, by simp⟩

/-- The first device of every line has an interrupt pending, with this status of the device, or of
the transmitter of a terminal. -/
def interrupting (status : Word) : Event := .device
  { interruptDev := fun _ => 1, devreg := fun _ _ => ⟨status, 0, status, 0⟩ }

instance (m : Machine) (d : SubDevice) (k : Kernel) (e : Event) :
    Decidable (LeavesDevice m d k e) := inferInstanceAs (Decidable (_ ∧ _ ∧ _ ∧ _))

/-- Whether two transitions are a SYS8 of the process and the interrupt of the device. -/
def isExchange (d : SubDevice) (p : PcbIx) (w : Word)
    (request completion : Kernel × Event × Kernel) : Bool :=
  request.1.currentProcess = some p ∧ IsWaitForIo demo (d.sem demo) request.2.1 ∧
    servedDevice completion.1.bus completion.2.1 = some (d.line, d.devNum) ∧
    d.Interrupts (completion.1.bus.devreg d.line d.devNum) ∧
    d.status (completion.1.bus.devreg d.line d.devNum) = w

lemma isExchange_spec (hq : isExchange d p w t₁ t₂ = true) :
    Requests demo d p t₁ ∧ Completes d w t₂ := by
  obtain ⟨hc, hw, hs, hi, hst⟩ := of_decide_eq_true hq
  exact ⟨⟨hc, hw⟩, servedDevice_eq_some_iff.mp hs, hi, hst⟩

/-- The initial process waits for the end of a transmission. -/
theorem io_rendezvous_transmission : ∃ h₀ k t₁ h t₂ k',
    Reaches demo (fun k e => ¬ KillsStale demo k e ∧ InRange demo k.bus k.mem e) blankKernel h₀
      k ∧
    Rendezvous demo printer 0 5 k t₁ h t₂ k' ∧ ContinuesOnce demo printer 0 5 k t₁ h t₂ k' := by
  obtain ⟨h₀, k, h', k', hr, hr', hq⟩ := exists_reaches_run
    (P := fun k e => ¬ KillsStale demo k e ∧ InRange demo k.bus k.mem e) demo blankKernel
    (fun k e => Deliverable demo k e ∧ Harmless demo k e ∧ InRange demo k.bus k.mem e) []
    [sys 8 7 0 0, interrupting 5, irq 0x8000]
    (fun k h' => match h' with
      | [t₁, t, t₂] => isExchange printer 0 5 t₁ t₂ ∧ k.waiters (printer.sem demo) = [] ∧
          k.mem (printer.sem demo) = 0 ∧ LeavesDevice demo printer t.1 t.2.1 ∧
          t.2.2.freePcbs = t.1.freePcbs ∧ ¬ Mistakes printer t.1 t.2.1 ∧
          printer.Taken (t₂.1.bus.devreg printer.line printer.devNum)
      | _ => false)
    (fun _ _ hok => ⟨hok.1, hok.2.1.not_killsStale, hok.2.2⟩) (by decide +kernel)
  split at hq
  · rename_i t₁ t t₂
    obtain ⟨hx, halone, hmem, hquiet, hfree, hmis, htaken⟩ := of_decide_eq_true hq
    obtain ⟨h₁, h₂⟩ := isExchange_spec hx
    have hrv : Rendezvous demo printer 0 5 k t₁ [t] t₂ k' :=
      ⟨hr', .inl ⟨h₁, h₂⟩, by simpa using hquiet, by simp [hfree], halone⟩
    exact ⟨h₀, k, t₁, [t], t₂, k', hr, hrv,
      (io_rendezvous hr hrv).mpr ⟨h₁, hmem.le, htaken, by simpa using hmis⟩⟩
  · cases hq

/-- A child with the interrupts on runs when the disk interrupts, and its SYS8 for the disk then
terminates it. -/
theorem early_interrupt_kills : ¬ ∀ (m : Machine) (d : SubDevice) (p : PcbIx) (w : Word)
    (k₀ : Kernel) (h₀ : History) (k : Kernel) (t₁ : Kernel × Event × Kernel) (h : History)
    (t₂ : Kernel × Event × Kernel) (k' : Kernel),
    Reaches m (fun k e => ¬ KillsStale m k e ∧ InRange m k.bus k.mem e) k₀ h₀ k →
    Rendezvous m d p w k t₁ h t₂ k' → ContinuesOnce m d p w k t₁ h t₂ k' := by
  intro hall
  obtain ⟨h, k, h', k', hr, hr', hq⟩ := exists_reaches_run
    (P := fun k e => ¬ KillsStale demo k e ∧ InRange demo k.bus k.mem e) demo blankKernel
    (fun k e => Deliverable demo k e ∧ Harmless demo k e ∧ InRange demo k.bus k.mem e)
    [sys 1 0x20030000 0 0, sys 4 0x20040000 0 0, interrupting 1]
    [irq 0x800, sys 8 3 0 0]
    (fun k h' => match h' with
      | [t₁, t₂] => isExchange firstDisk 1 1 t₂ t₁ ∧ k.waiters (firstDisk.sem demo) = [] ∧
          k.cpu = .running openState
      | _ => false)
    (fun _ _ hok => ⟨hok.1, hok.2.1.not_killsStale, hok.2.2⟩) (by decide +kernel)
  split at hq
  · rename_i t₁ t₂
    obtain ⟨hx, halone, -⟩ := of_decide_eq_true hq
    obtain ⟨h₂, h₁⟩ := isExchange_spec hx
    have hrv : Rendezvous demo firstDisk 1 1 k t₁ [] t₂ k' :=
      ⟨hr', .inr ⟨h₁, h₂⟩, by simp, by simp, halone⟩
    obtain ⟨a, hrep, hg⟩ := hr.rep fun _ _ hs => hs.1
    exact hrv.not_continues_of_completes hrep hg h₁ h₂ (hall _ _ _ _ _ _ _ _ _ _ _ hr hrv)
  · cases hq

end Kaya
