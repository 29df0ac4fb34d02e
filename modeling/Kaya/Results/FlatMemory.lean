import Kaya.Results.Residency
import Kaya.Support.Contents

/-!
# Paged memory is flat memory

Processes that read and write their private pages find there what they have written, whatever
the pager has done with the pages meanwhile.
-/

namespace Kaya.Support

open Function Linked

variable {n : Nat}

/-- Processes only access their private pages but for the stack page. Handlers, disk and TLB go
on at any time. -/
def Event.Private : Event n → Prop
  | .access _ _ va _ => segmentOf va = kuseg2 ∧ pageOf va < maxKuseg - 1
  | .syscall _ _ | .trap _ => False
  | .run _ _ | .disk | .forget _ => True

/-- A process in user mode, at its tape or in a fault on a private page. -/
def Control.Plain : Control → Prop
  | .tlb old back _ => segmentOf old.sAsid = kuseg2 ∧ back = .user
  | .service _ | .print _ _ => False
  | _ => True

instance (e : Event n) : Decidable e.Private :=
  match e with
  | .access _ _ va _ =>
    inferInstanceAs (Decidable (segmentOf va = kuseg2 ∧ pageOf va < maxKuseg - 1))
  | .syscall _ _ | .trap _ => .isFalse id
  | .run _ _ | .disk | .forget _ => .isTrue trivial

namespace Sys

variable {b : Board n} {s s' s₀ : Sys n} {e : Event n} {h : List (Sys n × Event n × Sys n)}
  {m : Flat n} {p : Fin n}

lemma plain_goto {c : Control} (h : ∀ q, (s.control q).Plain)
    (hcontrol : s'.control = update s.control p c) (hc : c.Plain) (q : Fin n) :
    (s'.control q).Plain := by
  rw [hcontrol]
  by_cases hq : q = p
  · subst hq
    rw [update_self]
    exact hc
  · rw [update_of_ne hq]
    exact h q

lemma Moves.plain (hm : s.Moves b e s') (he : e.Private) (h : ∀ q, (s.control q).Plain)
    (q : Fin n) : (s'.control q).Plain := by
  have hn := b.procCnt_le
  cases hm with
  | look hlook htlb => exact h q
  | @store p st va v frame hc hf =>
    obtain ⟨tlb, hrefill, -⟩ := s.refill_eq p (accessHi p va)
    rw [hrefill]
    exact h q
  | @fault e p st va cause back write hc hseg hf hfree =>
    obtain ⟨tlb, hrefill, -⟩ := s.refill_eq p (accessHi p va)
    rw [hrefill]
    refine plain_goto h rfl ?_ q
    cases e with
    | access q' st' va' op =>
      obtain ⟨rfl, -, rfl, -, rfl, -⟩ := hc
      exact ⟨(segmentOf_accessHi hn).trans he.1, rfl⟩
    | run q' input =>
      obtain ⟨rfl, -, pr, stage, hc, -⟩ := hc
      have hplain := h q'
      rw [hc] at hplain
      exact hplain.elim
    | _ => exact hc.elim
  | @aside e p c masterSema4 hact hholds hio hio' hns hctl htape hservice hfree =>
    refine plain_goto h rfl ?_ q
    cases c with
    | tlb old back stage => exact absurd rfl (hctl old back stage)
    | service old =>
      obtain ⟨st, rfl⟩ := hservice old rfl
      exact he
    | print pr stage =>
      have hplain := h p
      have hprint : (s.control p).InPrint := by
        rcases (hholds (terminalMutex p)).mpr (.inr (.inr ⟨rfl, trivial⟩)) with
          ⟨hm, -⟩ | ⟨hm, -⟩ | ⟨-, hprint⟩
        · cases hm
        · exact absurd hm (terminalMutex_ne hn p)
        · exact hprint
      cases hc : s.control p with
      | tlb old back stage' =>
        rw [hc] at hplain hprint
        obtain ⟨-, rfl⟩ := hplain
        exact hprint
      | print pr' stage' =>
        rw [hc] at hplain
        exact hplain
      | _ =>
        rw [hc] at hprint
        exact hprint
    | _ => trivial
  | die hblocked hc | installTrap hc hblocked hseg hpage => exact plain_goto h rfl (by trivial) q
  | @printStart p input old pr hc hblocked =>
    have hplain := h p
    rw [hc] at hplain
    exact hplain.elim
  | @printEnd p input st pr stage tlb htlb hc hblocked =>
    have hplain := h p
    rw [hc] at hplain
    exact hplain.elim
  | @printNext p input pr pr' stage stage' tlb htlb hc hblocked =>
    have hplain := h p
    rw [hc] at hplain
    exact hplain.elim
  | tapeStart hc hblocked | tapeEnd hc hbusy hblocked => exact plain_goto h rfl (by trivial) q
  | @enter p input old back hc hblocked hcode
  | @found p input old back lo hc hblocked hseg hlo hvalid
  | @take p input old back frame hc hblocked hmissing hframe hvacant
  | @booted p input old back frame hc hblocked
  | @bootEnd p input old back frame victim hc hbusy hblocked
  | @loadEnd p input old back frame hc hbusy hblocked
  | @installOther p input old back frame hc hblocked hseg =>
    have hplain := h p
    rw [hc] at hplain
    exact plain_goto h rfl (by exact hplain) q
  | @boot p input old back frame u hc hblocked hmissing hframe hocc hpage =>
    have hplain := h p
    rw [hc] at hplain
    exact plain_goto h (by simp [goto, Sys.passeren]; rfl) (by exact hplain) q
  | @install p input old back frame u hc hblocked hpage =>
    have hplain := h p
    rw [hc] at hplain
    exact plain_goto h (by simp [goto, Sys.verhogen]; rfl) (by exact hplain) q
  | @seek p input job control hc hstages hblocked
  | @transfer p input job control hc hstages hbusy hblocked =>
    have hplain := h p
    rw [hc] at hplain
    refine plain_goto h rfl ?_ q
    cases hstages <;> exact hplain
  | disk hcomplete => exact h q

/-- Where nobody faults on a shared page there is nothing to re-check. -/
lemma agrees_of_plain (h : ∀ q, (s.control q).Plain) (e : Event n) : s.Agrees e := by
  cases e with
  | run p input =>
    intro _ i hi
    obtain ⟨old, back, hc, hpage⟩ := checks_eq_some hi
    have hplain := h p
    rw [hc] at hplain
    rcases faultPage_cases hpage with ⟨-, h3⟩ | ⟨⟨j, hj⟩, -⟩
    · exact absurd (hplain.1.symm.trans h3) (by decide)
    · cases hj
  | _ => trivial

lemma fresh_plain (h0 : s.Fresh) (q : Fin n) : (s.control q).Plain := by
  rw [h0.control]
  trivial

lemma run_agrees (h0 : s₀.Fresh) (hr : Run (Sys.step b) (fun _ e => e.Private) s₀ h s) :
    Run (Sys.step b) Agrees s₀ h s ∧ ∀ q, (s.control q).Plain := by
  induction hr with
  | nil => exact ⟨.nil, fresh_plain h0⟩
  | snoc _ he hs ih =>
    exact ⟨.snoc ih.1 (agrees_of_plain ih.2 _) hs, (step_moves hs).plain he ih.2⟩

lemma fresh_shows (h0 : s.Fresh) : s.Shows b (Flat.ofRun b s []) := by
  have hcontrol : ∀ q, ¬ (s.control q).Fills := fun q => by
    rw [h0.control]
    exact not_false
  refine ⟨fun hc => ?_, fun _ f i hf => ?_, fun {p i a} ha => ?_,
    fun hs => (hcontrol _ hs.fills).elim, fun _ _ => rfl, fun hl => (hcontrol _ hl.fills).elim⟩
  · rw [h0.control] at hc
    cases hc
  · cases hf.symm.trans (SwapEntry.page_of_vacant (.inl (h0.frameSwapPool f)))
  · have hpte : s.pte (.priv p i) = initialPte (.priv p i) := congrFun (h0.kuseg2PT p) i
    rw [place, hpte, frame_initialPte] at ha
    cases ha

lemma Shows.run (h0 : s₀.Fresh) (hr : Run (Sys.step b) Agrees s₀ h s) :
    s.Shows b (Flat.ofRun b s₀ h) := by
  induction hr with
  | nil => exact fresh_shows h0
  | snoc hr _ hs ih =>
    have hstep := (step_moves hs).shows (DiskSafe.run h0 hr) (Paged.run h0 hr) ih
    unfold Flat.ofRun at hstep ⊢
    rwa [List.foldl_append]

end Sys

/-- Every read of a private page finds what the process has last written there, or what was on the
disk when it had read its tape. -/
theorem memory_is_flat {b : Board n} {s₀ s : Sys n} {h : List (Sys n × Event n × Sys n)}
    (h0 : s₀.Fresh) (hr : Run (Sys.step b) (fun _ e => e.Private) s₀ h s) {p : Fin n} {va : Addr}
    {frame : Word} (hseg : segmentOf va = kuseg2) (hpage : pageOf va < maxKuseg - 1)
    (hread : s.translate b p (Sys.accessHi p va) false = .ok frame) :
    s.ram frame (wordOf va) = Flat.ofRun b s₀ h p ⟨pageOf va, by omega⟩ (wordOf va) := by
  have hagrees := (Sys.run_agrees h0 hr).1
  have hpaged := Sys.Paged.run h0 hagrees
  obtain ⟨u, hu, hmatches⟩ := Sys.translate_ok hpaged.tables.cached hread
  obtain ⟨hnumber, hown⟩ := number_of_matches b.procCnt_le (hpaged.tables.built u) hmatches
  have hpriv : (UPage.priv p ⟨pageOf va, by omega⟩).number = u.number := by
    have h2 : va.toNat / 2 ^ 30 = 2 := (segmentOf_eq va).symm.trans hseg
    have hcases := number_priv p ⟨pageOf va, by omega⟩
    have hval : (⟨pageOf va, by omega⟩ : Fin maxKuseg).val = va.toNat / 2 ^ 12 % 2 ^ 18 :=
      pageOf_eq va
    have hlt : (⟨pageOf va, by omega⟩ : Fin maxKuseg).val < 31 := hpage
    omega
  have hown' := Sys.eq_of_number hpriv hown
  rw [hown'] at hu
  rw [(Sys.Shows.run h0 hagrees).resident hu]

/-- A read of a page that is not there, up to the return of the handler, which has to evict a page
or finds a free frame. -/
def reading (p : Fin n) (va : Addr) (evicts : Bool) : List (Event n) :=
  [.access p ⟨0, 0, 0, 0, fun _ => 0⟩ va .load, .run p none] ++
    (if evicts then [.run p none, .run p none, .disk, .run p none, .disk, .run p none] else []) ++
    loading p ++ [.run p none]

/-- A process writes to its first page, brings in so many others that it is evicted, and finds in
another frame what it has written. -/
theorem memory_is_flat_reloaded : ∃ h s,
    Run (Sys.step twoProcesses) (fun _ e => e.Private) (Sys.blank 2) h s ∧
      s.translate twoProcesses 0 (Sys.accessHi (0 : Fin 2) 0x80000004) false = .ok 0x200F9000 ∧
        s.ram 0x200F9000 1 = 7 ∧ Flat.ofRun twoProcesses (Sys.blank 2) h 0 0 1 = 7 := by
  obtain ⟨h, s, hr, hq⟩ := exists_run (Sys.step twoProcesses) (fun _ e => e.Private) (Sys.blank 2)
    ([.run 0 (some 0), .run 0 none] ++ reading 0 0x80000000 false ++
      [.access 0 ⟨0, 0, 0, 0, fun _ => 0⟩ 0x80000004 (.store 7)] ++
      reading 0 0x80001000 false ++ reading 0 0x80002000 false ++ reading 0 0x80003000 false ++
      reading 0 0x80004000 false ++ reading 0 0x80005000 false ++ reading 0 0x80006000 true ++
      reading 0 0x80000000 true)
    (fun _ s => s.translate twoProcesses 0 (Sys.accessHi (0 : Fin 2) 0x80000004) false =
      .ok 0x200F9000 ∧ s.ram 0x200F9000 1 = 7) (by decide +kernel)
  obtain ⟨hread, hram⟩ := of_decide_eq_true hq
  have hflat := memory_is_flat Sys.fresh_blank hr (by decide) (by decide) hread
  exact ⟨h, s, hr, hread, hram, hflat.symm.trans hram⟩

end Kaya.Support
