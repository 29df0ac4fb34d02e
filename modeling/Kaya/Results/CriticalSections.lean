import Kaya.Lib.Admission
import Kaya.Results.Semaphores

/-!
# Critical sections

Processes that do a P on a semaphore, then a V, and so on, and are not terminated in between
unless they wait. If the semaphore starts at `c`, at most `c` of them are between their P and
their V without waiting, and they get there in the order in which they came.
-/

namespace Kaya

open Function Linked

variable {m : Machine} {k k' k₀ k₁ : Kernel} {a a' : Nuc} {e : Event} {h h₀ : History} {s : Addr}
  {l : List PcbIx} {p : PcbIx}

/-- The clients of `s` after a transition. -/
def clientsAfter (s : Addr) (l : List PcbIx) (t : Kernel × Event × Kernel) : List PcbIx :=
  if IsPasseren s t.2.1 then l ++ t.1.currentProcess.toList
  else if IsVerhogen s t.2.1 then l.diff t.1.currentProcess.toList
  else l.filter (· ∉ t.2.2.freePcbs)

/-- The processes that have done a P on `s` and no V since, in the order of their P's. -/
def History.clients (h : History) (s : Addr) : List PcbIx := h.foldl (clientsAfter s) []

/-- A process does a P when it is not a client and a V when it is one, and a client is
terminated only while it waits. -/
def KeepsTurn (s : Addr) (l : List PcbIx) (t : Kernel × Event × Kernel) : Prop :=
  (∀ p ∈ t.1.currentProcess, (IsPasseren s t.2.1 → p ∉ l) ∧ (IsVerhogen s t.2.1 → p ∈ l)) ∧
    ∀ p ∈ l, p ∈ t.2.2.freePcbs → p ∈ t.1.waiters s

instance (s : Addr) (l : List PcbIx) (t : Kernel × Event × Kernel) :
    Decidable (KeepsTurn s l t) := inferInstanceAs (Decidable (_ ∧ _))

/-- All the processes use `s` in this way. -/
def History.Disciplined (h : History) (s : Addr) : Prop :=
  ∀ i < h.length, ∀ t ∈ h[i]?, KeepsTurn s (History.clients (h.take i) s) t

instance (h : History) (s : Addr) : Decidable (h.Disciplined s) :=
  inferInstanceAs (Decidable (∀ i < h.length, _))

lemma History.clients_snoc (h : History) (t : Kernel × Event × Kernel) (s : Addr) :
    History.clients (h ++ [t]) s = clientsAfter s (h.clients s) t := by
  simp [History.clients]

lemma History.disciplined_snoc {t : Kernel × Event × Kernel}
    (hd : History.Disciplined (h ++ [t]) s) : h.Disciplined s ∧ KeepsTurn s (h.clients s) t := by
  constructor
  · intro i hi u hu
    have hdi := hd i (by simp; omega) u (by rwa [List.getElem?_append_left hi])
    rwa [List.take_append_of_le_length hi.le] at hdi
  · have hdl := hd h.length (by simp) t (by simp)
    rwa [List.take_left] at hdl

/-- A P of the running process, on its semaphore. -/
lemma Nuc.sem_step_passeren (hg : a.Good) (hrun : FromProcess e → a.cpu.IsRunning)
    (hsafe : a.Safe m e) (hstep : a.step m e = some a') (hp : IsPasseren s e)
    (hc : a.currentProcess = some p) : a'.books.sem s = (a.books.sem s).passeren p := by
  have hdead : a.dead m e = [] := dead_of_not_dies fun _ _ => hp.not_dies
  obtain ⟨x, hx, hsem⟩ := sem_step hg hrun hsafe hstep s
  rw [hdead] at hsem
  have hnot : ∀ st, e ≠ .interrupt st := by
    rintro st rfl
    exact hp
  cases hx with
  | passeren q hq _ =>
    obtain rfl := Option.some.inj (hq.symm.trans hc)
    unfold bereaved at hsem
    split at hsem <;> simpa [Semaphore.withdraw_nil] using hsem
  | verhogen h => exact absurd hp h.not_isPasseren
  | idle _ _ h => exact absurd hp h
  | deviceDone h =>
    obtain ⟨_, _, h, -⟩ := h
    cases e <;> first | exact h.elim | exact absurd rfl (hnot _)
  | tick h =>
    cases e <;> first | exact h.elim | exact absurd rfl (hnot _)
  | write v h =>
    subst h
    exact hp.elim

/-- The clients of a semaphore and the semaphore, in a state of the nucleus on lists. -/
structure Nuc.Lets (a : Nuc) (s : Addr) (c : Nat) (l : List PcbIx) : Prop where
  admits : (a.books.sem s).Admits c l
  used : ∀ p ∈ l, p ∉ a.free

lemma Nuc.Lets.step {c : Nat} (hl : a.Lets s c l) (ht : Handled m k e k' a a')
    (hal : Aligned s) (hs : ¬ m.InSemaphoreArray s) (hw : LeavesToCalls m s e)
    (hk : KeepsTurn s l (k, e, k')) : a'.Lets s c (clientsAfter s l (k, e, k')) := by
  obtain ⟨hrep, hg, hrun, hsafe, hstep, hrep', hg'⟩ := ht
  obtain ⟨hturn, hdying⟩ := hk
  dsimp only at hturn hdying
  have hfree := Nuc.mem_free_step hg hrun hsafe hstep
  have hcur : a.cpu.IsRunning → ∃ p, a.currentProcess = some p := fun hr =>
    Option.ne_none_iff_exists'.mp (hg.onCpu.mp hr)
  have hrunning : ∀ {p}, a.currentProcess = some p → p ∉ a.free ∧ p ∉ a.blocked s := fun hc =>
    ⟨hg.inv.mem_listAt_ne (j := .free) (Nuc.Inv.current_mem hc) (by simp),
      hg.inv.mem_listAt_ne (j := .blocked s) (Nuc.Inv.current_mem hc) (by simp)⟩
  have hused : a.dead m e = [] → ∀ p, p ∉ a.free → p ∉ a'.free := by
    intro hd p hp hf
    rcases (hfree p).1 hf with h | h
    · exact hp h
    · simp [hd] at h
  unfold clientsAfter
  dsimp only
  rw [hrep.currentProcess_eq] at hturn ⊢
  rw [hrep.waiters_eq hal.ne_null] at hdying
  rw [hrep'.freePcbs_eq] at hdying ⊢
  rcases Nuc.sem_step_outside hg hrun hsafe hstep hal hs hw with
    ⟨he, hdead, hsem⟩ | ⟨he, hdead, -⟩ | ⟨hev, hep, hsem⟩
  · obtain ⟨p, hc⟩ := hcur (hrun (by cases e <;> trivial))
    rw [if_neg he.not_isPasseren, if_pos he, hc]
    have hpl : p ∈ l := (hturn p hc).2 he
    rw [show l.diff (some p).toList = l.erase p by simp]
    refine ⟨?_, fun q hq => hused hdead q (hl.used q (List.mem_of_mem_erase hq))⟩
    rw [hsem]
    exact hl.admits.verhogen hpl (hrunning hc).2
  · obtain ⟨p, hc⟩ := hcur (hrun (by cases e <;> trivial))
    rw [if_pos he, hc]
    refine ⟨?_, fun q hq => hused hdead q ?_⟩
    · rw [Nuc.sem_step_passeren hg hrun hsafe hstep he hc]
      exact hl.admits.passeren ((hturn p hc).1 he)
    · rcases List.mem_append.mp hq with hq | hq
      · exact hl.used q hq
      · obtain rfl := List.mem_singleton.mp hq
        exact (hrunning hc).1
  · rw [if_neg hep, if_neg hev]
    have hdead : l.filter (· ∉ a'.free) = l.filter (· ∉ a.dead m e) := by
      apply List.filter_congr
      intro q hq
      have hiff : q ∈ a'.free ↔ q ∈ a.dead m e :=
        ⟨fun hf => ((hfree q).1 hf).resolve_left (hl.used q hq), (hfree q).2⟩
      simp [hiff]
    refine ⟨?_, fun q hq => by simpa using (List.mem_filter.mp hq).2⟩
    rw [hsem, hdead]
    exact hl.admits.withdraw fun q hq hd => hdying q hq ((hfree q).2 hd)

/-- From a state where nobody waits and `s` is `c`, in every run without stale terminations in
which the processes use `s` as they should: `s` is `c` less the clients, the first `c` clients
are inside, and the others wait in the order in which they came. -/
theorem critical_sections (hr : Reaches m (fun k e => ¬ KillsStale m k e) k₀ h₀ k₁)
    (hal : Aligned s) (hs : ¬ m.InSemaphoreArray s) {c : Nat} (hv : k₁.mem s = c)
    (hq : k₁.waiters s = []) (hrun : Run (step m) (fun k e => Deliverable m k e ∧
      ¬ KillsStale m k e ∧ LeavesToCalls m s e) k₁ h k) (hd : h.Disciplined s) :
    (h.clients s).Nodup ∧ k.mem s = c - (h.clients s).length ∧
      k.waiters s = (h.clients s).drop c ∧
      (h.clients s).filter (· ∉ k.waiters s) = (h.clients s).take c := by
  obtain ⟨a₁, hrep₁, hg₁⟩ := hr.rep fun _ _ hn => hn
  rw [hrep₁.waiters_eq hal.ne_null] at hq
  rw [hrep₁.mem_eq] at hv
  have hend : ∃ a, Rep k a ∧ a.Good ∧ (h.Disciplined s → a.Lets s c (h.clients s)) := by
    refine hrep₁.run (I := fun h a => h.Disciplined s → a.Lets s c (h.clients s)) hg₁ hrun
      (fun _ _ hP => hP.1) (fun _ => ⟨?_, fun _ hp => absurd hp (List.not_mem_nil)⟩) ?_
    · have hsem : a₁.books.sem s = ⟨c, []⟩ := by
        change (⟨a₁.mem s, a₁.blocked s⟩ : Semaphore PcbIx) = _
        rw [hv, hq]
      rw [hsem]
      exact Semaphore.admits_nil c
    · rintro h k e k' a a' hl hrep hg hd ⟨hstale, hw⟩ hk hstep hrep' hg' hdisc
      obtain ⟨hdisc, hturn⟩ := History.disciplined_snoc hdisc
      rw [History.clients_snoc]
      exact (hl hdisc).step ⟨hrep, hg, fun he => hrep.cpu_eq ▸ hd.running he,
        hrep.safe hg.inv hstale, hstep, hrep', hg'⟩ hal hs hw hturn
  obtain ⟨a, hrep, -, hl⟩ := hend
  obtain ⟨hadmits, -⟩ := hl hd
  rw [hrep.waiters_eq hal.ne_null, hrep.mem_eq]
  exact ⟨hadmits.nodup, hadmits.value, hadmits.waiters, hadmits.inside⟩

/-- A child waits for its parent, which waits for the clock between its P and its V. -/
theorem critical_sections_two : ∃ (h₀ : History) (k₁ : Kernel) (h : History) (k : Kernel),
    Reaches demo (fun k e => ¬ KillsStale demo k e) blankKernel h₀ k₁ ∧
    k₁.mem 0x20040000 = 1 ∧ k₁.waiters 0x20040000 = [] ∧ h.Disciplined 0x20040000 ∧
    (h.clients 0x20040000).length = 2 ∧
    k.waiters 0x20040000 = (h.clients 0x20040000).drop 1 ∧
    (h.clients 0x20040000).filter (· ∉ k.waiters 0x20040000) =
      (h.clients 0x20040000).take 1 := by
  obtain ⟨h₀, k₁, hr, hq⟩ := exists_reaches (P := fun k e => ¬ KillsStale demo k e) demo
    blankKernel (fun k e => Deliverable demo k e ∧ Harmless demo k e)
    [.writeInt 0x20040000 1, sys 1 0x20030000 0 0]
    (fun _ k => decide (k.mem 0x20040000 = 1 ∧ k.waiters 0x20040000 = []) &&
      (trace (step demo) (fun k e => Deliverable demo k e ∧ Harmless demo k e ∧ IsSyscall e ∧
          ¬ IsWaitForIo demo 0x20040000 e)
        [sys 4 0x20040000 0 0, sys 7 0 0 0, sys 4 0x20040000 0 0] k).any fun r =>
        decide (History.Disciplined r.1 0x20040000 ∧
          (History.clients r.1 0x20040000).length = 2))
    (fun _ _ hok => ⟨hok.1, hok.2.not_killsStale⟩) (by decide +kernel)
  obtain ⟨h1, hq⟩ := Bool.and_eq_true_iff.mp hq
  obtain ⟨hmem, hwait⟩ := of_decide_eq_true h1
  obtain ⟨h, k, hrun, hq⟩ := exists_run (step demo) _ k₁ _
    (fun h _ => decide (History.Disciplined h 0x20040000 ∧
      (History.clients h 0x20040000).length = 2)) hq
  obtain ⟨hdisc, hlen⟩ := of_decide_eq_true hq
  obtain ⟨-, -, hline, hin⟩ := critical_sections (s := 0x20040000) (c := 1) hr (by decide)
    (by decide) hmem hwait (hrun.mono fun _ _ hok => ⟨hok.1, hok.2.1.not_killsStale,
      hok.2.2.1.leavesToCalls hok.2.2.2⟩) hdisc
  exact ⟨h₀, k₁, h, k, hr, hmem, hwait, hdisc, hlen, hline, hin⟩

end Kaya
