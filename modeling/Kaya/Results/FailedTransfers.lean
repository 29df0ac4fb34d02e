import Kaya.Results.Faults
import Kaya.Support.Failing

/-!
# Failed disk transfers

`UserTLBHandler` does not look at the statuses that its waits return. It is careful only if they
are all READY.
-/

namespace Kaya.Support

open Function Linked

variable {n : ℕ} {b : Board n} {s : Sys n} {p : Fin n} {old : State} {back : Back}
  {f : Fin poolSize} {u : ℕ → Word} {got rest : List (Control × Word)} {damage : Damage}
  {found : Option Word} {control : IoStage → Control} {x y : Word}

/-! ### The statuses of an operation -/

lemma succeeded_append (h : ∀ c ∈ rest, ∀ io, c.1 ≠ control io) :
    Succeeded (got ++ rest) control ↔ Succeeded got control := by
  have hmem : ∀ io, (control io, ready) ∈ got ++ rest ↔ (control io, ready) ∈ got := by
    intro io
    rw [List.mem_append]
    exact or_iff_left fun hc => h _ hc io rfl
  unfold Succeeded
  rw [hmem, hmem]

lemma succeeded_last (got : List (Control × Word)) (control : IoStage → Control)
    (h : ∀ c ∈ got, ∀ io, c.1 ≠ control io)
    (hne : control .transfer ≠ control .release) :
    Succeeded (got ++ [(control .transfer, x), (control .release, y)]) control ↔
      x = ready ∧ y = ready := by
  have hgot : ∀ io, (control io, ready) ∉ got := fun io hc => h _ hc io rfl
  unfold Succeeded
  simp only [List.mem_append, hgot, List.mem_cons, Prod.mk.injEq, List.not_mem_nil, hne.symm,
    true_and, false_and, or_false, false_or, eq_comm]

namespace Sys

lemma Solo.careful_load (damage : Damage) (found : Option Word) (got : List (Control × Word))
    (h : s.Solo p old back (.load f .seek) 0 0) (hidle : s.disk.busy = none)
    (hgot : ∀ c ∈ got, ∀ io, c.1 ≠ .tlb old back (.load f io)) :
    StaysCareful damage found b p old back ⟨s, u, got⟩ ↔
      (¬ (s.frameSwapPool f).Vacant →
        Succeeded got fun io => .tlb old back (.boot f (s.frameSwapPool f) io)) ∧
      (faultPage p old ≠ none → u 0 = ready ∧ u 1 = ready) := by
  have hask : ∀ rest, (∀ c ∈ rest, c = (Control.tlb old back (.load f .transfer), u 0)) →
      (Demands p old back s.frameSwapPool (got ++ rest) (.load f .transfer) ↔
        (¬ (s.frameSwapPool f).Vacant →
          Succeeded got fun io => .tlb old back (.boot f (s.frameSwapPool f) io))) := by
    intro rest hrest
    refine imp_congr_right fun _ => succeeded_append fun c hc io => ?_
    rw [hrest c hc]
    simp
  have hquiet : ∀ pool got io, io ≠ .transfer →
      Demands p old back pool got (TlbStage.load f io) := by
    intro pool got io hio
    cases io with
    | transfer => exact absurd rfl hio
    | _ => trivial
  obtain ⟨disk, ram, hidle', hio⟩ := h.careful_io (b := b) damage found (.load f) (.install f)
    (fun _ _ => rfl) hquiet hask hidle
  have hsolo : ({ s with disk, ram } : Sys n).Solo p old back (.load f .seek) 0 0 :=
    ⟨h.control, h.swapmutex, h.diskMutex, h.terminal⟩
  rw [hio, (hsolo.verhogen_disk (.install f)).careful_install hidle',
    succeeded_last got (fun io => .tlb old back (.load f io)) hgot (by simp)]

/-! ### The re-check and the choice of a frame -/

lemma checkTlb_missing (h : s.Missing p old found) :
    s.checkTlb p old back found = s.takeFrame p old back := by
  unfold checkTlb
  split_ifs with hseg
  · obtain ⟨lo, hlo, hvalid⟩ := h hseg
    rw [hlo]
    dsimp only
    rw [if_neg (not_not.mpr hvalid)]
  · rfl

lemma Solo.careful_found (h : s.Solo p old back .check 0 1) (hidle : s.disk.busy = none)
    (hfound : ¬ s.Missing p old found) :
    StaysCareful damage found b p old back ⟨s, u, got⟩ := by
  unfold Missing at hfound
  obtain ⟨hseg, hnone⟩ := Classical.not_imp.mp hfound
  cases hlo : s.recheck p (pageOf old.sAsid) found with
  | none =>
    have hrun : s.userTlbHandler b p old back found .check = some (s.goto p .terminate) := by
      change s.checkTlb p old back found = _
      unfold checkTlb
      rw [if_pos hseg, hlo]
    refine (h.careful_run _ _ _ hidle hrun).mpr ⟨trivial, careful_over ?_⟩
    rw [goto_control_self]
    exact not_false
  | some lo =>
    have hvalid : (lo &&& validMask) >>> validShift ≠ 0 := fun hv => hnone ⟨lo, hlo, hv⟩
    have hrun : s.userTlbHandler b p old back found .check =
        some ((s.verhogen .swapmutex).goto p (.tlb old back .leave)) := by
      change s.checkTlb p old back found = _
      unfold checkTlb
      rw [if_pos hseg, hlo]
      dsimp only
      rw [if_pos hvalid]
    refine (h.careful_run _ _ _ hidle hrun).mpr ⟨trivial, ?_⟩
    exact (h.verhogen_swap .leave).careful_leave hidle

lemma Solo.careful_vacant (h : s.Solo p old back .check 0 1) (hidle : s.disk.busy = none)
    (hmissing : s.Missing p old found) (hf : frameOf (s.nextFrame + 1) = some f)
    (hv : (s.frameSwapPool f).Vacant) :
    StaysCareful damage found b p old back ⟨s, u, []⟩ ↔
      (faultPage p old ≠ none → u 0 = ready ∧ u 1 = ready) := by
  have hnext : ({ s with nextFrame := s.nextFrame + 1 } : Sys n).Solo p old back .check 0 1 :=
    ⟨h.control, h.swapmutex, h.diskMutex, h.terminal⟩
  have hrun : s.userTlbHandler b p old back found .check = some _ :=
    (checkTlb_missing hmissing).trans (takeFrame_vacant hf hv)
  have hload := (hnext.passeren_disk (.load f .seek)).careful_load (b := b) (u := u) damage
    found [] hidle fun _ hc => absurd hc List.not_mem_nil
  refine (h.careful_run _ _ _ hidle hrun).trans ((and_iff_right trivial).trans (hload.trans ?_))
  exact and_iff_right fun hn => absurd hv hn

lemma Solo.careful_resident (h : s.Solo p old back .check 0 1) (hidle : s.disk.busy = none)
    (hmissing : s.Missing p old found) (hf : frameOf (s.nextFrame + 1) = some f)
    (hx : s.resident f ≠ none) :
    StaysCareful damage found b p old back ⟨s, u, []⟩ ↔
      u 0 = ready ∧ u 1 = ready ∧ (faultPage p old ≠ none → u 2 = ready ∧ u 3 = ready) := by
  obtain ⟨x, hx⟩ := Option.ne_none_iff_exists'.mp hx
  generalize hr : { s with nextFrame := s.nextFrame + 1 }.setPte x (s.pte x).flipValid = r
  have hpool : r.frameSwapPool = s.frameSwapPool := by
    subst hr
    exact setPte_frameSwapPool _ _ _
  have hidle' : r.disk.busy = none := by
    subst hr
    rw [setPte_disk]
    exact hidle
  have hboot : ((r.passeren Support.diskMutex p).goto p
      (.tlb old back (.boot f (s.frameSwapPool f) .seek))).Solo p old back
        (.boot f (s.frameSwapPool f) .seek) 0 0 :=
    (hr ▸ h.setPte : r.Solo p old back .check 0 1).passeren_disk _
  have hrun : s.userTlbHandler b p old back found .check =
      some ((r.passeren Support.diskMutex p).goto p
        (.tlb old back (.boot f (s.frameSwapPool f) .seek))) := by
    subst hr
    exact (checkTlb_missing hmissing).trans (takeFrame_boot hf hx)
  obtain ⟨disk, ram, hidle'', hio⟩ := hboot.careful_io (b := b) (u := u) damage found
    (.boot f (s.frameSwapPool f)) (.booted f) (fun _ _ => rfl) (fun _ _ _ _ => trivial)
    (fun _ _ => Iff.rfl) hidle'
  have hwritten : ({ (r.passeren Support.diskMutex p).goto p
      (.tlb old back (.boot f (s.frameSwapPool f) .seek)) with disk, ram } : Sys n).Solo p old
        back (.boot f (s.frameSwapPool f) .seek) 0 0 :=
    ⟨hboot.control, hboot.swapmutex, hboot.diskMutex, hboot.terminal⟩
  have hbooted := hwritten.verhogen_disk (.booted f)
  have hnext := hbooted.careful_run (b := b) damage (fun j => u (j + 2))
    [(.tlb old back (.boot f (s.frameSwapPool f) .transfer), u 0),
      (.tlb old back (.boot f (s.frameSwapPool f) .release), u 1)] hidle''
    (show Sys.userTlbHandler b _ p old back found (.booted f) = some _ from rfl)
  have hload := (hbooted.passeren_disk (.load f .seek)).careful_load (b := b)
    (u := fun j => u (j + 2)) damage found [
      (.tlb old back (.boot f (s.frameSwapPool f) .transfer), u 0),
      (.tlb old back (.boot f (s.frameSwapPool f) .release), u 1)] hidle'' (by simp)
  have hvictim : ¬ (s.frameSwapPool f).Vacant := by
    intro hv
    have hpage : s.resident f = none := SwapEntry.page_of_vacant hv
    rw [hx] at hpage
    cases hpage
  have hwrote := succeeded_last (x := u 0) (y := u 1) []
    (fun io => .tlb old back (.boot f (s.frameSwapPool f) io))
    (fun _ hc => absurd hc List.not_mem_nil) (by simp)
  have hasked : (¬ (r.frameSwapPool f).Vacant → Succeeded [
      (.tlb old back (.boot f (s.frameSwapPool f) .transfer), u 0),
      (.tlb old back (.boot f (s.frameSwapPool f) .release), u 1)]
        fun io => .tlb old back (.boot f (r.frameSwapPool f) io)) ↔ u 0 = ready ∧ u 1 = ready := by
    rw [hpool]
    exact ⟨fun ha => hwrote.mp (ha hvictim), fun ha _ => hwrote.mpr ha⟩
  refine (h.careful_run _ _ _ hidle hrun).trans ((and_iff_right trivial).trans (hio.trans
    ((and_iff_right trivial).trans (hnext.trans ((and_iff_right trivial).trans (hload.trans ?_))))))
  rw [← and_assoc]
  exact and_congr hasked Iff.rfl

/-- All statuses that the handler gets for the frame `f` are READY: two for a page-in of a page that
has an entry, and two for a page-out before it. -/
def AllReady (s : Sys n) (p : Fin n) (old : State) (u : ℕ → Word) (f : Fin poolSize) : Prop :=
  ((s.frameSwapPool f).Vacant → faultPage p old ≠ none → u 0 = ready ∧ u 1 = ready) ∧
  (s.resident f ≠ none → u 0 = ready ∧ u 1 = ready ∧
    (faultPage p old ≠ none → u 2 = ready ∧ u 3 = ready))

lemma Solo.careful_take (h : s.Solo p old back .check 0 1) (hidle : s.disk.busy = none)
    (hmissing : s.Missing p old found) (hf : frameOf (s.nextFrame + 1) = some f)
    (hrecord : (s.frameSwapPool f).Vacant ∨ s.resident f ≠ none) :
    StaysCareful damage found b p old back ⟨s, u, []⟩ ↔ s.AllReady p old u f := by
  unfold AllReady
  rcases hrecord with hv | hx
  · have hpage : s.resident f = none := SwapEntry.page_of_vacant hv
    rw [h.careful_vacant hidle hmissing hf hv]
    constructor
    · intro hload
      exact ⟨fun _ => hload, fun hx => absurd hpage hx⟩
    · intro hload
      exact hload.1 hv
  · rw [h.careful_resident hidle hmissing hf hx]
    constructor
    · intro hall
      exact ⟨fun hv => absurd (SwapEntry.page_of_vacant hv) hx, fun _ => hall⟩
    · intro hall
      exact hall.2 hx

lemma Calls.careful_check (h : s.Calls p old back) (hserved : Served old) :
    StaysCareful damage found b p old back ⟨s, u, got⟩ ↔
      StaysCareful damage found b p old back
        ⟨(s.passeren .swapmutex p).goto p (.tlb old back .check), u, got⟩ :=
  (h.solo.careful_run _ _ _ h.idle (congrArg some (enterTlb_served hserved))).trans
    (and_iff_right trivial)

lemma Calls.careful_unserved (h : s.Calls p old back) (hserved : ¬ Served old) :
    StaysCareful damage found b p old back ⟨s, u, got⟩ := by
  have hrun : s.userTlbHandler b p old back found .enter = some (s.goto p .terminate) := by
    change some (s.enterTlb p old back) = _
    unfold enterTlb
    dsimp only
    rw [if_pos (not_or.mp hserved)]
  refine (h.solo.careful_run _ _ _ h.idle hrun).mpr ⟨trivial, careful_over ?_⟩
  rw [goto_control_self]
  exact not_false

end Sys

/-- Whatever a failed operation leaves behind, `UserTLBHandler` takes none for one that has
succeeded if and only if all statuses that it gets are READY, provided that it chooses a frame of
the pool that holds no page or one that is in a page table. -/
theorem failed_transfers_harmless_iff (damage : Damage) (found : Option Word) (b : Board n)
    (s : Sys n) (u : ℕ → Word) (h : s.Calls p old back)
    (ht : Served old → s.Missing p old found → s.Takes) :
    StaysCareful damage found b p old back ⟨s, u, []⟩ ↔
      ∀ f, Served old → s.Missing p old found → frameOf (s.nextFrame + 1) = some f →
        s.AllReady p old u f := by
  by_cases hserved : Served old
  · have hsolo := h.passeren
    rw [h.careful_check hserved]
    by_cases hmissing : s.Missing p old found
    · obtain ⟨f, hf, hrecord⟩ := ht hserved hmissing
      rw [hsolo.careful_take h.idle hmissing hf hrecord]
      constructor
      · intro hall g _ _ hg
        obtain rfl := Option.some.inj (hf.symm.trans hg)
        exact hall
      · intro hall
        exact hall f hserved hmissing hf
    · refine iff_of_true (hsolo.careful_found h.idle hmissing) fun f _ hm => ?_
      exact absurd hm hmissing
  · refine iff_of_true (h.careful_unserved hserved) fun f hs => ?_
    exact absurd hs hserved

/-- A disk that a failed operation leaves as it is. -/
def noDamage : Damage := fun _ disk ram => (disk, ram)

/-- The first process faults on its first page, and the frame 1 is to be filled. -/
lemma exists_first_fault : ∃ h s old, Run (Sys.step twoProcesses) (fun _ _ => True)
    (Sys.blank 2) h s ∧ s.Calls 0 old .user ∧ Served old ∧ s.Missing 0 old none ∧
      frameOf (s.nextFrame + 1) = some 1 ∧ (s.frameSwapPool 1).Vacant ∧
        faultPage (0 : Fin 2) old ≠ none := by
  obtain ⟨h, s, hr, hq⟩ := exists_run (Sys.step twoProcesses) (fun _ _ => True) (Sys.blank 2)
    (firstFault 0x80000000)
    (fun _ s => (s.called 0).any fun old => Served old ∧ segmentOf old.sAsid = kuseg2 ∧
      (faultPage (0 : Fin 2) old).isSome ∧ frameOf (s.nextFrame + 1) = some 1 ∧
        (s.frameSwapPool 1).ASID = unoccupiedFrame) (by decide +kernel)
  obtain ⟨old, hold, hq⟩ := (Option.any_eq_true _ _).mp hq
  obtain ⟨hserved, hseg, hpage, hframe, hvacant⟩ := of_decide_eq_true hq
  refine ⟨h, s, old, hr, Sys.called_eq_some hold, hserved, fun h3 => ?_, hframe, .inl hvacant,
    Option.isSome_iff_ne_none.mp hpage⟩
  rw [hseg] at h3
  exact absurd h3 (by decide)

/-- A page-in that succeeds. -/
theorem failed_transfers_harmless_ready : ∃ h s old, Run (Sys.step twoProcesses) (fun _ _ => True)
    (Sys.blank 2) h s ∧ s.Calls 0 old .user ∧ Served old ∧ frameOf (s.nextFrame + 1) = some 1 ∧
      StaysCareful noDamage none twoProcesses 0 old .user ⟨s, fun _ => ready, []⟩ := by
  obtain ⟨h, s, old, hr, hcalls, hserved, -, hframe, hvacant, -⟩ := exists_first_fault
  refine ⟨h, s, old, hr, hcalls, hserved, hframe,
    (failed_transfers_harmless_iff noDamage none twoProcesses s _ hcalls
      fun _ _ => ⟨1, hframe, .inl hvacant⟩).mpr ?_⟩
  intro f _ _ _
  exact ⟨fun _ _ => ⟨rfl, rfl⟩, fun _ => ⟨rfl, rfl, fun _ => ⟨rfl, rfl⟩⟩⟩

/-- A page-in of which seek and read fail, with the status 4. -/
theorem failed_page_in_taken : ∃ h s old, Run (Sys.step twoProcesses) (fun _ _ => True)
    (Sys.blank 2) h s ∧ s.Calls 0 old .user ∧
      ¬ StaysCareful noDamage none twoProcesses 0 old .user ⟨s, fun _ => 4, []⟩ := by
  obtain ⟨h, s, old, hr, hcalls, hserved, hmissing, hframe, hvacant, hpage⟩ := exists_first_fault
  refine ⟨h, s, old, hr, hcalls, fun hcareful => ?_⟩
  rw [hcalls.careful_check hserved,
    hcalls.passeren.careful_take hcalls.idle hmissing hframe (.inl hvacant)] at hcareful
  obtain ⟨hseek, -⟩ := hcareful.1 hvacant hpage
  exact absurd hseek (by decide)

end Kaya.Support
