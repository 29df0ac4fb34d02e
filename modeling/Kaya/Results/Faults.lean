import Kaya.Results.Residency
import Kaya.Support.Alone
import Kaya.Support.Holding

/-!
# Faults on private pages

A process that faults on a page of its page table gets the page, unless `UserTLBHandler` takes a
page number for an index that the table does not have.
-/

namespace Kaya.Support

open Function Linked

variable {n : Nat} {b : Board n} {p : Fin n} {old : State} {back : Back} {i : Fin maxKuseg}
  {f : Fin poolSize}

namespace Sys

variable {s t u : Sys n}

/-- Back from the fault of the process in `s`, its entry `i` is valid and as before for the bits
that are kept, the frame that it names has the page, and `swapmutex` is free. -/
structure Resolved (b : Board n) (s t : Sys n) (p : Fin n) (old : State) (back : Back)
    (i : Fin maxKuseg) : Prop where
  control : t.control p = back.control old
  valid : (t.kuseg2PT p i).valid ≠ 0
  kept : (t.kuseg2PT p i).entryLo &&& keptMask = (s.kuseg2PT p i).entryLo &&& keptMask
  frame : ∃ f, (t.kuseg2PT p i).entryLo &&& ~~~frameNumMask = b.getFrameAddr f ∧
    t.resident f = some (.priv p i) ∧ t.ram (b.getFrameAddr f) = t.disk.blocks (blockOf p i)
  swapmutex : (t.sema4 .swapmutex).value = 1

/-! ### Loading the page -/

section load

variable {disk : Disk} {ram : Ram} {v w : Int}

lemma Solo.load (h : s.Solo p old back (.load f .seek) 0 0) (hidle : s.disk.busy = none) :
    ∃ disk ram, s.disk.perform s.ram (loadJob (b.getFrameAddr f) (asidOf (entryHi p))
      (segmentOf old.sAsid) (pageOf old.sAsid)) = some (disk, ram) ∧ ∃ t : Sys n,
        t = ({ s with disk, ram }.verhogen Support.diskMutex).goto p (.tlb old back (.install f)) ∧
        t.Solo p old back (.install f) 0 1 ∧ t.disk.busy = none ∧
          ∀ u, Returns b p s u ↔ Returns b p t u := by
  obtain ⟨disk, ram, hperform⟩ := s.disk.exists_perform s.ram (loadJob (b.getFrameAddr f)
    (asidOf (entryHi p)) (segmentOf old.sAsid) (pageOf old.sAsid))
  have hsolo : ({ s with disk, ram } : Sys n).Solo p old back (.load f .seek) 0 0 :=
    ⟨h.control, h.swapmutex, h.diskMutex, h.terminal⟩
  exact ⟨disk, ram, hperform, _, rfl, hsolo.verhogen_disk _, Disk.perform_idle hperform,
    fun u => h.returns_io (.load f) (.install f) (fun _ _ => rfl) hidle hperform⟩

lemma Solo.load_trap (h : s.Solo p old back (.load f .seek) 0 0) (hidle : s.disk.busy = none)
    (hseg : segmentOf old.sAsid = kuseg2) (hpage : faultPage p old = none) :
    ∃ u, Returns b p s u ∧ u.control p = .terminate := by
  obtain ⟨disk, ram, -, t, -, ht, hidle', hiff⟩ := h.load (b := b) hidle
  have hinstall : t.userTlbHandler b p old back none (.install f) =
      some ({ t with frameSwapPool := update t.frameSwapPool f (faultRecord p old) }.goto p
        .terminate) := congrArg some (installPage_trap (.inr hseg) hpage)
  have hend := goto_control_self
    { t with frameSwapPool := update t.frameSwapPool f (faultRecord p old) } p .terminate
  refine ⟨_, (hiff _).mpr ((ht.returns_iff hidle' hinstall).mpr (Drives.stop ?_)), hend⟩
  rw [hend]
  exact not_false

lemma opOf_loadJob (hn : n ≤ 63) (p : Fin n) (addr : Word) (segment page : Nat) :
    opOf (loadJob addr (asidOf (entryHi p)) segment page).seek = seekCyl ∧
      opOf (loadJob addr (asidOf (entryHi p)) segment page).command = readBlk := by
  have hp := p.isLt
  unfold loadJob
  dsimp only
  rw [asidOf_entryHi hn]
  exact ⟨opOf_seekCommand page, opOf_blockCommand (by decide) (by omega) (by omega)⟩

lemma Solo.leave (h : s.Solo p old back .leave v w) (hidle : s.disk.busy = none) :
    Returns b p s (s.goto p (back.control old)) := by
  have hstep : s.userTlbHandler b p old back none .leave = some (s.goto p (back.control old)) := by
    cases back <;> rfl
  rw [h.returns_iff hidle hstep]
  apply Drives.stop
  rw [goto_control_self]
  cases back <;> exact not_false

lemma Resolved.congr (h : Resolved b t u p old back i)
    (hkept : (t.pte (.priv p i)).entryLo &&& keptMask = (s.pte (.priv p i)).entryLo &&& keptMask) :
    Resolved b s u p old back i :=
  ⟨h.control, h.valid, h.kept.trans hkept, h.frame, h.swapmutex⟩

lemma Solo.install_resolved (h : s.Solo p old back (.install f) 0 1) (hidle : s.disk.busy = none)
    (hpage : faultPage p old = some (.priv p i))
    (hram : s.ram (b.getFrameAddr f) = s.disk.blocks (blockOf p i)) :
    ∃ u, Returns b p s u ∧ Resolved b s u p old back i := by
  have haddr := b.getFrameAddr_aligned f
  generalize hr : { s with frameSwapPool := update s.frameSwapPool f (faultRecord p old) }.setPte
    (.priv p i) ((s.pte (.priv p i)).place (b.getFrameAddr f)) = r
  have hinstall : s.userTlbHandler b p old back none (.install f) =
      some ((r.verhogen .swapmutex).goto p (.tlb old back .leave)) := by
    subst hr
    exact congrArg some (installPage_eq hpage)
  have hleave :
      ((r.verhogen .swapmutex).goto p (.tlb old back .leave)).Solo p old back .leave 1 1 := by
    subst hr
    refine ⟨goto_control_self _ _ _, ?_, ?_, ?_⟩
    · rw [goto_sema4, verhogen_sema4, setPte_sema4, h.swapmutex]
      rfl
    · rw [goto_sema4, verhogen_sema4_of_ne _ (by simp [Support.diskMutex]), setPte_sema4]
      exact h.diskMutex
    · rw [goto_sema4, verhogen_sema4_of_ne _ (by simp), setPte_sema4]
      exact h.terminal
  have hpte : r.pte (.priv p i) = (s.pte (.priv p i)).place (b.getFrameAddr f) := by
    subst hr
    rw [pte_setPte]
    exact update_self _ _ _
  have hresident : r.resident f = some (.priv p i) := by
    subst hr
    rw [resident_setPte, resident_record, update_self, page_faultRecord b.procCnt_le, hpage]
  have hrest : r.ram = s.ram ∧ r.disk = s.disk := by
    subst hr
    exact ⟨setPte_ram _ _ _, setPte_disk _ _ _⟩
  have hidle' : r.disk.busy = none := by
    rw [hrest.2]
    exact hidle
  refine ⟨_, (h.returns_iff hidle hinstall).mpr (hleave.leave hidle'), goto_control_self _ _ _,
    ?_, ?_, ⟨f, ?_, hresident, ?_⟩, ?_⟩
  · change (r.pte (.priv p i)).valid ≠ 0
    rw [hpte]
    exact place_valid haddr
  · change (r.pte (.priv p i)).entryLo &&& keptMask = _
    rw [hpte]
    exact place_and haddr (by decide) (by decide)
  · change (r.pte (.priv p i)).entryLo &&& ~~~frameNumMask = _
    rw [hpte]
    exact place_high haddr
  · change r.ram _ = r.disk.blocks _
    rw [hrest.1, hrest.2]
    exact hram
  · rw [goto_sema4, hleave.swapmutex]

/-- The page is brought in, and the process goes on. -/
lemma Solo.load_resolved (h : s.Solo p old back (.load f .seek) 0 0) (hidle : s.disk.busy = none)
    (hpage : faultPage p old = some (.priv p i)) :
    ∃ u, Returns b p s u ∧ Resolved b s u p old back i := by
  have hn := b.procCnt_le
  obtain ⟨disk, ram, hperform, t, rfl, hsolo, hidle', hiff⟩ := h.load (b := b) hidle
  obtain ⟨hseek, hread⟩ := opOf_loadJob hn p (b.getFrameAddr f) (segmentOf old.sAsid)
    (pageOf old.sAsid)
  obtain ⟨harm, hram⟩ := Disk.perform_read hseek hread hperform
  rw [location_loadJob hn hpage harm] at hram
  obtain ⟨u, hu, hresolved⟩ := hsolo.install_resolved hidle' hpage hram
  exact ⟨u, (hiff u).mpr hu, hresolved.congr rfl⟩

end load

/-! ### Choosing a frame -/

/-- The frame that the handler chooses holds no page, or one that is in a page table. -/
def Takes (s : Sys n) : Prop :=
  ∃ f, frameOf (s.nextFrame + 1) = some f ∧
    ((s.frameSwapPool f).Vacant ∨ s.resident f ≠ none)

section run

variable {ok : Sys n → Event n → Prop} {s₀ : Sys n} {h : List (Sys n × Event n × Sys n)}

/-- With `swapmutex` free, a run comes to no record outside the page tables. -/
theorem takes_iff_of_run (h0 : s₀.Fresh) (hr : Run (Sys.step b) ok s₀ h s)
    (hfree : s.sema4 .swapmutex = .mutex) : s.Takes ↔ frameOf (s.nextFrame + 1) ≠ none := by
  constructor
  · rintro ⟨f, hf, -⟩
    rw [hf]
    exact Option.some_ne_none f
  · intro hne
    obtain ⟨f, hf⟩ := Option.ne_none_iff_exists'.mp hne
    exact ⟨f, hf, (FiledAll.run h0 hr).of_free hfree f⟩

/-- Nor does a process that chooses a frame. -/
theorem takeFrame_eq_none_iff_of_run (h0 : s₀.Fresh) (hr : Run (Sys.step b) ok s₀ h s)
    (hc : s.control p = .tlb old back .check) (hblocked : ¬ s.Blocked p) :
    s.takeFrame p old back = none ↔ frameOf (s.nextFrame + 1) = none := by
  constructor
  · intro hnone
    by_contra hne
    obtain ⟨f, hf⟩ := Option.ne_none_iff_exists'.mp hne
    have hfiled := (FiledAll.run h0 hr).of_inSwap (p := p) (by rw [hc]; trivial) hblocked f
    rcases hfiled with hv | hx
    · rw [takeFrame_vacant hf hv] at hnone
      cases hnone
    · obtain ⟨x, hx⟩ := Option.ne_none_iff_exists'.mp hx
      rw [takeFrame_boot hf hx] at hnone
      cases hnone
  · intro hf
    unfold takeFrame
    simp only [hf, Option.bind_eq_bind, Option.bind_none]

end run

lemma Solo.check (h : s.Solo p old back .check 0 1) (hidle : s.disk.busy = none)
    (hseg : segmentOf old.sAsid = kuseg2) (ht : s.Takes) :
    ∃ f t, t.Solo p old back (.load f .seek) 0 0 ∧ t.disk.busy = none ∧
      (∀ u, Returns b p s u ↔ Returns b p t u) ∧
        (t.pte (.priv p i)).entryLo &&& keptMask = (s.pte (.priv p i)).entryLo &&& keptMask := by
  have hcheck : s.userTlbHandler b p old back none .check = s.takeFrame p old back := by
    change s.checkTlb p old back none = _
    unfold checkTlb
    rw [if_neg (by rw [hseg]; decide)]
  obtain ⟨f, hf, hv | hx⟩ := ht
  · have hnext : ({ s with nextFrame := s.nextFrame + 1 } : Sys n).Solo p old back .check 0 1 :=
      ⟨h.control, h.swapmutex, h.diskMutex, h.terminal⟩
    exact ⟨f, _, hnext.passeren_disk (.load f .seek), hidle,
      fun u => h.returns_iff hidle (hcheck.trans (takeFrame_vacant hf hv)), rfl⟩
  · obtain ⟨x, hx⟩ := Option.ne_none_iff_exists'.mp hx
    generalize hr : { s with nextFrame := s.nextFrame + 1 }.setPte x (s.pte x).flipValid = r
    have hr' : r.Solo p old back .check 0 1 := hr ▸ h.setPte
    have hidle' : r.disk.busy = none := by
      subst hr
      rw [setPte_disk]
      exact hidle
    have hboot := hr'.passeren_disk (.boot f (s.frameSwapPool f) .seek)
    have htake : s.userTlbHandler b p old back none .check =
        some ((r.passeren Support.diskMutex p).goto p
          (.tlb old back (.boot f (s.frameSwapPool f) .seek))) := by
      subst hr
      exact hcheck.trans (takeFrame_boot hf hx)
    obtain ⟨disk, ram, hperform⟩ := r.disk.exists_perform r.ram
      (bootJob (b.getFrameAddr f) (s.frameSwapPool f))
    have hwritten : ({ (r.passeren Support.diskMutex p).goto p
        (.tlb old back (.boot f (s.frameSwapPool f) .seek)) with disk, ram } : Sys n).Solo p old
          back (.boot f (s.frameSwapPool f) .seek) 0 0 :=
      ⟨hboot.control, hboot.swapmutex, hboot.diskMutex, hboot.terminal⟩
    have hbooted := hwritten.verhogen_disk (.booted f)
    have hidle'' := Disk.perform_idle hperform
    refine ⟨f, _, hbooted.passeren_disk (.load f .seek), hidle'', fun u => ?_, ?_⟩
    · rw [h.returns_iff hidle htake, hboot.returns_io (.boot f (s.frameSwapPool f)) (.booted f)
        (fun _ _ => rfl) hidle' hperform]
      exact hbooted.returns_iff hidle'' rfl
    · change (r.pte (.priv p i)).entryLo &&& keptMask = _
      subst hr
      rw [pte_setPte]
      by_cases hxp : .priv p i = x
      · rw [hxp, update_self]
        exact flipValid_and (by decide)
      · rw [update_of_ne hxp]
        rfl

lemma Solo.check_stuck (h : s.Solo p old back .check 0 1) (hidle : s.disk.busy = none)
    (hseg : segmentOf old.sAsid = kuseg2) (ht : ¬ s.Takes) : ¬ Returns b p s u := by
  apply h.not_returns hidle
  change s.checkTlb p old back none = none
  unfold checkTlb
  rw [if_neg (by rw [hseg]; decide)]
  cases hf : frameOf (s.nextFrame + 1) with
  | none =>
    unfold takeFrame
    simp only [hf, Option.bind_eq_bind, Option.bind_none]
  | some f =>
    refine takeFrame_stuck hf (fun hv => ht ⟨f, hf, .inl hv⟩) ?_
    by_contra hx
    exact ht ⟨f, hf, .inr hx⟩

lemma Calls.check (h : s.Calls p old back) (hserved : Served old) :
    ∃ t : Sys n, t = (s.passeren .swapmutex p).goto p (.tlb old back .check) ∧
      t.Solo p old back .check 0 1 ∧ ∀ u, Returns b p s u ↔ Returns b p t u :=
  ⟨_, rfl, h.passeren,
    fun _ => h.solo.returns_iff h.idle (congrArg some (enterTlb_served hserved))⟩

end Sys

lemma faultPage_of_matches (hn : n ≤ 63) (h : (initialKuseg2PT (p + 1) i).Matches old.sAsid) :
    segmentOf old.sAsid = kuseg2 ∧
      (i.val ≠ maxKuseg - 1 ∧ faultPage p old = some (.priv p i) ∨
        i.val = maxKuseg - 1 ∧ faultPage p old = none) := by
  have hp := p.isLt
  have hi : i.val < 32 := i.isLt
  have hdiv := div_eq_of_high_eq h.1
  have hentryHi : (initialKuseg2PT (p + 1) i).entryHi.toNat =
      (UPage.priv p i).number * 4096 + (p + 1) * 64 := entryHi_priv hn p i
  rw [hentryHi] at hdiv
  have hcases := number_priv p i
  have hseg : segmentOf old.sAsid = kuseg2 := by
    rw [segmentOf_eq]
    change _ = 2
    omega
  have hpage := pageOf_eq old.sAsid
  refine ⟨hseg, ?_⟩
  rcases hcases with ⟨hlast, hnumber⟩ | ⟨hlt, hnumber⟩
  · refine .inr ⟨hlast, ?_⟩
    have hentry : entryOf (pageOf old.sAsid) = none := dif_neg (by change ¬ _ < 32; omega)
    unfold faultPage
    rw [if_neg (by rw [hseg]; decide), if_pos hseg, hentry]
    rfl
  · refine .inl ⟨by change i.val ≠ 31; omega, ?_⟩
    have hindex : pageOf old.sAsid = i := by omega
    have hentry : entryOf (pageOf old.sAsid) = some i := by
      unfold entryOf
      rw [dif_pos (hindex ▸ i.isLt)]
      exact congrArg some (Fin.ext hindex)
    unfold faultPage
    rw [if_neg (by rw [hseg]; decide), if_pos hseg, hentry]
    rfl

namespace Sys

variable {s u : Sys n}

lemma Calls.not_returns (h : s.Calls p old back) (hserved : Served old)
    (hmatches : (initialKuseg2PT (p + 1) i).Matches old.sAsid) (ht : ¬ s.Takes) :
    ¬ Returns b p s u := by
  intro hu
  obtain ⟨hseg, -⟩ := faultPage_of_matches b.procCnt_le hmatches
  obtain ⟨t, rfl, hcheck, hiff⟩ := h.check (b := b) hserved
  exact hcheck.check_stuck h.idle hseg ht ((hiff u).mp hu)

lemma Calls.ends (h : s.Calls p old back) (hserved : Served old)
    (hmatches : (initialKuseg2PT (p + 1) i).Matches old.sAsid) (hlast : i.val = maxKuseg - 1)
    (ht : s.Takes) (hu : Returns b p s u) : u.control p = .terminate := by
  obtain ⟨hseg, hpage⟩ := faultPage_of_matches b.procCnt_le hmatches
  have hnone := (hpage.resolve_left fun hne => hne.1 hlast).2
  obtain ⟨t, rfl, hcheck, hiff⟩ := h.check (b := b) hserved
  obtain ⟨f, r, hload, hidle, hiff', -⟩ := hcheck.check (b := b) (i := i) h.idle hseg ht
  obtain ⟨u', hu', hend⟩ := hload.load_trap (b := b) hidle hseg hnone
  rwa [((hiff' u).mp ((hiff u).mp hu)).eq hu']

lemma Calls.not_resolved (h : s.Calls p old back) (hserved : Served old)
    (hmatches : (initialKuseg2PT (p + 1) i).Matches old.sAsid) (hlast : i.val = maxKuseg - 1) :
    ¬ ∃ t, Returns b p s t ∧ Resolved b s t p old back i := by
  rintro ⟨t, ht, hresolved⟩
  by_cases htakes : s.Takes
  · have hend := (h.ends hserved hmatches hlast htakes ht).symm.trans hresolved.control
    cases back <;> cases hend
  · exact h.not_returns hserved hmatches htakes ht

lemma Calls.resolved (h : s.Calls p old back) (hserved : Served old)
    (hmatches : (initialKuseg2PT (p + 1) i).Matches old.sAsid) (hi : i.val ≠ maxKuseg - 1)
    (ht : s.Takes) : ∃ u, Returns b p s u ∧ Resolved b s u p old back i := by
  obtain ⟨hseg, hpage⟩ := faultPage_of_matches b.procCnt_le hmatches
  obtain ⟨t, rfl, hcheck, hiff⟩ := h.check (b := b) hserved
  obtain ⟨f, r, hload, hidle, hiff', hkept⟩ := hcheck.check (b := b) (i := i) h.idle hseg ht
  have hpage' := (hpage.resolve_right fun hlast => hi hlast.1).2
  obtain ⟨u, hu, hresolved⟩ := hload.load_resolved (b := b) hidle hpage'
  exact ⟨u, (hiff u).mpr ((hiff' u).mpr hu), hresolved.congr hkept⟩

end Sys

/-- A process that faults on an entry of its page table, and that nobody keeps from going on, gets
its page exactly if this is not the stack page and the handler chooses a frame that holds no page
or one that is in a page table. -/
theorem fault_resolved_iff {s : Sys n} (hcalls : s.Calls p old back) (hserved : Served old)
    (hmatches : (initialKuseg2PT (p + 1) i).Matches old.sAsid) :
    (∃ t, Sys.Returns b p s t ∧ Sys.Resolved b s t p old back i) ↔
      i.val ≠ maxKuseg - 1 ∧ s.Takes := by
  constructor
  · rintro ⟨t, ht, hresolved⟩
    refine ⟨fun hlast => ?_, ?_⟩
    · exact hcalls.not_resolved hserved hmatches hlast ⟨t, ht, hresolved⟩
    · by_contra hn
      exact hcalls.not_returns hserved hmatches hn ht
  · rintro ⟨hi, ht⟩
    exact hcalls.resolved hserved hmatches hi ht

/-- The first access of the process with the ASID 1, after an empty tape. -/
def firstFault (va : Addr) : List (Event 2) :=
  [.run 0 (some 0), .run 0 none, .access 0 ⟨0, 0, 0, 0, fun _ => 0⟩ va .load]

/-- The fault that a process has been passed up with, if nobody keeps it from going on. -/
def Sys.called (s : Sys n) (p : Fin n) : Option State :=
  match s.control p with
  | .tlb old .user .enter =>
    if s.sema4 .swapmutex = .mutex ∧ s.sema4 diskMutex = .mutex ∧
      p ∉ (s.sema4 (.deviceSema4 (terminalSem (p + 1)))).waiters ∧ s.disk.busy = none then some old
    else none
  | _ => none

lemma Sys.called_eq_some {s : Sys n} (h : s.called p = some old) : s.Calls p old .user := by
  unfold called at h
  split at h
  · split_ifs at h with hfree
    obtain rfl := Option.some.inj h
    exact ⟨‹_›, hfree.1, hfree.2.1, hfree.2.2.1, hfree.2.2.2⟩
  · cases h

/-- The first access is to the first page. -/
theorem fault_resolved_first : ∃ h s t old, Run (Sys.step twoProcesses) (fun _ _ => True)
    (Sys.blank 2) h s ∧ s.Calls 0 old .user ∧ Sys.Returns twoProcesses 0 s t ∧
      Sys.Resolved twoProcesses s t 0 old .user 0 := by
  obtain ⟨h, s, hr, hq⟩ := exists_run (Sys.step twoProcesses) (fun _ _ => True) (Sys.blank 2)
    (firstFault 0x80000000)
    (fun _ s => (s.called 0).any fun old => Served old ∧
      (initialKuseg2PT 1 0).Matches old.sAsid ∧ frameOf (s.nextFrame + 1) = some 1 ∧
        (s.frameSwapPool 1).ASID = unoccupiedFrame) (by decide +kernel)
  obtain ⟨old, hold, hq⟩ := (Option.any_eq_true _ _).mp hq
  obtain ⟨hserved, hmatches, hframe, hvacant⟩ := of_decide_eq_true hq
  have hcalls := Sys.called_eq_some hold
  obtain ⟨t, ht, hresolved⟩ := (fault_resolved_iff hcalls hserved hmatches).mpr
    ⟨by decide, 1, hframe, .inl (.inl hvacant)⟩
  exact ⟨h, s, t, old, hr, hcalls, ht, hresolved⟩

/-- The first access is to the stack page. -/
theorem stack_page_not_resolved : ∃ h s old, Run (Sys.step twoProcesses) (fun _ _ => True)
    (Sys.blank 2) h s ∧ s.Calls 0 old .user ∧ Served old ∧
      (initialKuseg2PT 1 31).Matches old.sAsid ∧ maxKuseg ≤ pageOf old.sAsid ∧
        ¬ ∃ t, Sys.Returns twoProcesses 0 s t ∧ Sys.Resolved twoProcesses s t 0 old .user 31 := by
  obtain ⟨h, s, hr, hq⟩ := exists_run (Sys.step twoProcesses) (fun _ _ => True) (Sys.blank 2)
    (firstFault 0xBFFFF000)
    (fun _ s => (s.called 0).any fun old => Served old ∧
      (initialKuseg2PT 1 31).Matches old.sAsid ∧ maxKuseg ≤ pageOf old.sAsid) (by decide +kernel)
  obtain ⟨old, hold, hq⟩ := (Option.any_eq_true _ _).mp hq
  obtain ⟨hserved, hmatches, hpage⟩ := of_decide_eq_true hq
  have hcalls := Sys.called_eq_some hold
  exact ⟨h, s, old, hr, hcalls, hserved, hmatches, hpage,
    hcalls.not_resolved hserved hmatches rfl⟩

end Kaya.Support
