import Kaya.Support.Pool

/-!
# One frame for each page

As long as nobody is in `swapmutex`, every page that has been brought in is in one frame only,
which its page table entry names. Where a process has to read the never set entry 0 of the
segment table, this depends on what it finds there.
-/

namespace Kaya.Support

open Function Linked

variable {n : Nat}

/-- In every run in which the process with the ASID 1 finds the valid bit of the shared page table
where it looks for it: while `swapmutex` is free, no page is in two frames and the valid entries
are those of the pages in the frames. A shared page that is there by the time of the re-check is
not loaded again. -/
theorem resident_once {b : Board n} {s₀ s : Sys n} {h : List (Sys n × Event n × Sys n)}
    (h0 : s₀.Fresh) (hr : Run (Sys.step b) Sys.Agrees s₀ h s) :
    ((s.sema4 .swapmutex).value = 1 →
      (∀ f g u, s.resident f = some u → s.resident g = some u → f = g) ∧
      (∀ u, (s.pte u).valid ≠ 0 ↔ ∃ f, s.resident f = some u) ∧
      ∀ f u, s.resident f = some u → (s.pte u).entryLo &&& ~~~frameNumMask = b.getFrameAddr f) ∧
    ∀ p old back i input, s.control p = .tlb old back .check → ¬ s.Blocked p →
      faultPage p old = some (.shared i) → (s.kuseg3PT i).valid ≠ 0 → s.Agrees (.run p input) →
        s.step b (.run p input) =
          some ((s.verhogen .swapmutex).goto p (.tlb old back .leave)) := by
  have hpaged := Sys.Paged.run h0 hr
  have hmirrors := hpaged.pool.mirrors
  refine ⟨fun hfree => ?_, fun p old back i input hc hblocked hpage hvalid hagrees => ?_⟩
  · have hout := hpaged.pool.excludes.not_inside hfree
    have hidle : ∀ f, ¬ Busy s.phase f := by
      rintro f ⟨p, old, hp⟩
      apply hout p
      rw [hp]
      trivial
    have hplace : ∀ {f u}, s.resident f = some u → s.place u = some (b.getFrameAddr f) :=
      fun hf => hmirrors.place_eq (hidle _) hf
    have hnamed : ∀ {u}, (s.pte u).valid ≠ 0 ↔ s.place u ≠ none := fun {u} =>
      not_congr Pte.frame_eq_none_iff.symm
    refine ⟨fun f g u hf hg => ?_, fun u => ?_, fun f u hf => ?_⟩
    · exact hmirrors.unique (fun _ _ => Board.getFrameAddr_inj) (hidle f) hf (hidle g) hg
    · constructor
      · intro hvalid
        obtain ⟨f, -, hf, -⟩ := (hmirrors u _).mp (Pte.frame_of_valid hvalid)
        exact ⟨f, hf⟩
      · rintro ⟨f, hf⟩
        rw [hnamed, hplace hf]
        simp
    · have hvalid : (s.pte u).valid ≠ 0 := by
        rw [hnamed, hplace hf]
        simp
      exact Option.some.inj ((Pte.frame_of_valid hvalid).symm.trans (hplace hf))
  · obtain ⟨lo, hlo, hiff⟩ := Sys.recheck_valid b.procCnt_le hagrees hc hpage
    have h3 : segmentOf old.sAsid = kuseg3 := by
      rcases faultPage_cases hpage with ⟨-, h3⟩ | ⟨⟨j, hj⟩, -⟩
      · exact h3
      · cases hj
    have hne : (lo &&& validMask) >>> validShift ≠ 0 := fun hzero => hvalid (hiff.mp hzero)
    unfold Sys.step Sys.run
    dsimp only
    rw [if_neg hblocked, hc]
    dsimp only [Sys.userTlbHandler]
    unfold Sys.checkTlb
    rw [if_pos h3, hlo]
    dsimp only
    rw [if_pos hne]

/-- A process in user mode after an empty tape, its first access, and the fault up to the P of
`swapmutex`. -/
def faulting (p : Fin n) (va : Addr) : List (Event n) :=
  [.run p (some 0), .run p none, .access p ⟨0, 0, 0, 0, fun _ => 0⟩ va .load, .run p none]

/-- A page is brought into a free frame, from the re-check on. -/
def loading (p : Fin n) : List (Event n) :=
  [.run p (some 0), .run p none, .disk, .run p none, .disk, .run p none, .run p none]

/-- The process with the ASID 1 brings the first shared page in, and the other one finds it. -/
theorem resident_once_found : ∃ h s, Run (Sys.step twoProcesses) Sys.Agrees (Sys.blank 2) h s ∧
    s.resident 1 = some (.shared 0) ∧ ∃ old back, s.step twoProcesses (.run 1 none) =
      some ((s.verhogen .swapmutex).goto 1 (.tlb old back .leave)) := by
  obtain ⟨h, s, hr, hq⟩ := exists_run (Sys.step twoProcesses) Sys.Agrees (Sys.blank 2)
    (faulting 0 0xC0000000 ++ faulting 1 0xC0000000 ++ loading 0)
    (fun _ s => s.resident 1 = some (.shared 0) ∧ s.checks 1 = some 0 ∧ ¬ s.Blocked 1 ∧
      (s.kuseg3PT 0).valid ≠ 0) (by decide +kernel)
  obtain ⟨hresident, hchecks, hblocked, hvalid⟩ := of_decide_eq_true hq
  obtain ⟨old, back, hc, hpage⟩ := Sys.checks_eq_some hchecks
  exact ⟨h, s, hr, hresident, old, back, (resident_once Sys.fresh_blank hr).2 1 old back 0 none hc
    hblocked hpage hvalid fun h0 => absurd h0 (by decide)⟩

/-- Two processes fault on the first shared page, and the one with the ASID 1 comes second. -/
theorem shared_page_twice : ¬ ∀ (s₀ s : Sys 2) (h : List (Sys 2 × Event 2 × Sys 2)), s₀.Fresh →
    Run (Sys.step twoProcesses) (fun _ _ => True) s₀ h s → (s.sema4 .swapmutex).value = 1 →
      ∀ f g u, s.resident f = some u → s.resident g = some u → f = g := by
  intro hall
  obtain ⟨h, s, hr, hq⟩ := exists_run (Sys.step twoProcesses) (fun _ _ => True) (Sys.blank 2)
    (faulting 1 0xC0000000 ++ faulting 0 0xC0000000 ++ loading 1 ++ loading 0)
    (fun _ s => (s.sema4 .swapmutex).value = 1 ∧ s.resident 1 = some (.shared 0) ∧
      s.resident 2 = some (.shared 0)) (by decide +kernel)
  obtain ⟨hfree, h1, h2⟩ := of_decide_eq_true hq
  exact absurd (hall _ _ _ Sys.fresh_blank hr hfree 1 2 _ h1 h2) (by decide)

end Kaya.Support
