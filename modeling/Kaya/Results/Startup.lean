import Kaya.Lib.Drain
import Kaya.Support.Starting
import Kaya.Results.Residency

/-!
# The start and the end of phase 3

The processes that `test` creates run while it creates the others. What they do is a run of the
support level from a fresh state all the same; every process has its handlers before its first
exception, and `test` ends after all of them.
-/

namespace Kaya.Support

open Function Linked

variable {n : Nat} {b : Board n} {img : Image} {s s₀ : Phase3 n}
  {h : List (Phase3 n × Doing n × Phase3 n)}

/-- The step of the support level, if it is one. -/
def Doing.event {n : Nat} : Doing n → Option (Event n)
  | .user e => some e
  | _ => none

@[simp] lemma event_user (e : Event n) : (Doing.user e).event = some e := rfl

namespace Phase3

lemma Start.run {P : Sys n → Event n → Prop} (h0 : s₀.Start)
    (hr : Run (Phase3.step b img) (fun s a => ∀ e, a.event = some e → P s.view e) s₀ h s) :
    s = s₀ ∨ s.Going img ∧ ∃ t l, t.Fresh ∧ t.masterSema4 = 0 ∧ Run (Sys.step b) P t l s.view ∧
      l.map (·.2.1) <:+ h.filterMap (·.2.1.event) := by
  induction hr with
  | nil => exact .inl rfl
  | @snoc h t t' a hr ha hs ih =>
    rw [List.filterMap_append]
    rcases ih with rfl | ⟨hgoing, u, l, hfresh, hmaster, hl, hevents⟩
    · rcases h0.step hs with ⟨-, rfl⟩ | rfl
      · obtain ⟨hgoing, hfresh⟩ := h0.setGlobals img
        exact .inr ⟨hgoing, _, [], hfresh, rfl, .nil, List.nil_suffix⟩
      · exact .inl rfl
    · obtain ⟨hgoing', ⟨hother, hview⟩ | ⟨e, rfl, hstep⟩⟩ := hgoing.step h0.devices hs
      · have hevent : a.event = none := by
          cases a with
          | user e => exact absurd rfl (hother e)
          | _ => rfl
        refine .inr ⟨hgoing', u, l, hfresh, hmaster, hview ▸ hl, ?_⟩
        simpa [hevent] using hevents
      · refine .inr ⟨hgoing', u, l ++ [(t.view, e, t'.view)], hfresh, hmaster,
          hl.snoc (ha e rfl) hstep, ?_⟩
        obtain ⟨before, hbefore⟩ := hevents
        exact ⟨before, by simp [← hbefore]⟩

lemma Start.going (h0 : s₀.Start) (hr : Run (Phase3.step b img) (fun _ _ => True) s₀ h s) :
    s = s₀ ∨ s.Going img := by
  have hr' : Run (Phase3.step b img) (fun _ a => ∀ e, a.event = some e → True) s₀ h s :=
    hr.mono fun _ _ _ _ _ => trivial
  exact (h0.run (P := fun _ _ => True) hr').imp_right And.left

lemma Start.going_of_ne (h0 : s₀.Start) (hr : Run (Phase3.step b img) (fun _ _ => True) s₀ h s)
    (hs : s.test ≠ .globals) : s.Going img := by
  rcases h0.going hr with rfl | hgoing
  · exact absurd h0.test hs
  · exact hgoing

/-! ### The end of `test` -/

/-- The syscalls of `test` up to its end, when no P waits. -/
def stepsLeft (s : Phase3 n) : Nat :=
  match s.test with
  | .globals | .gone => 0
  | .create k => (n - k) + n + 3
  | .passeren i | .waiting i => (n - i) + 2
  | .terminate => 1

/-- `test` goes on when all have ended. -/
lemma Going.exists_runTest (hs : s.Going img) (hended : ∀ p, s.Ended p) (hgone : s.test ≠ .gone) :
    ∃ t, s.runTest img = some t ∧ t.stepsLeft < s.stepsLeft := by
  have hsettled := hs.settled
  rw [Settled] at hsettled
  cases htest : s.test with
  | globals => exact absurd htest hs.set
  | create k =>
    have hk : ¬ k < n := by
      intro hk
      have habsent := (hs.created ⟨k, hk⟩).mpr ⟨k, htest, le_rfl⟩
      rw [(hended _).1] at habsent
      cases habsent
    refine ⟨{ s with test := .passeren 0 }, by simp [Phase3.runTest, htest, hk], ?_⟩
    rw [stepsLeft, stepsLeft, htest]
    dsimp only
    omega
  | passeren i =>
    rw [htest] at hsettled
    by_cases hi : i < n
    · have hcount : s.sys.masterSema4 + s.test.taken n =
        (Finset.univ.filter fun p => (s.view.control p).Released).card := hs.counted
      rw [Finset.filter_true_of_mem fun p _ => view_released_iff.mpr (hended p),
        Finset.card_fin, htest, TestStage.taken] at hcount
      have hpos : ¬ s.sys.masterSema4 - 1 < 0 := by omega
      refine ⟨_, by rw [Phase3.runTest, htest]; exact if_pos hi, ?_⟩
      rw [stepsLeft, stepsLeft, htest, if_neg hpos]
      dsimp only
      omega
    · refine ⟨{ s with test := .terminate }, by simp [Phase3.runTest, htest, hi], ?_⟩
      rw [stepsLeft, stepsLeft, htest]
      dsimp only
      omega
  | waiting i =>
    obtain ⟨p, hp⟩ := hs.not_ended htest
    exact absurd (hended p) hp
  | terminate =>
    refine ⟨{ s with test := .gone }, by rw [Phase3.runTest, htest], ?_⟩
    rw [stepsLeft, stepsLeft, htest]
    exact Nat.zero_lt_one
  | gone => exact absurd htest hgone

lemma Ended.of_view {t : Phase3 n} {p : Fin n} (hp : s.Ended p) (hview : t.view = s.view) :
    t.Ended p := by
  rw [← view_released_iff, hview]
  exact view_released_iff.mpr hp

end Phase3

/-! ### A start -/

/-- Two processes to be, with nothing but zeros in memory. -/
def blankStart : Phase3 2 where
  test := .globals
  initialState := ⟨0, 0, 0, 0, fun _ => 0⟩
  init := fun _ => .absent
  procState := fun _ => ⟨0, 0, 0, 0, fun _ => 0⟩
  newAreas := fun _ _ => ⟨0, 0, 0, 0, fun _ => 0⟩
  vectors := fun _ _ => none
  sys := { Sys.blank 2 with
    control := fun _ => .lost
    sema4 := fun m => if m = .swapmutex then ⟨0, []⟩ else .mutex
    frameSwapPool := fun _ => ⟨0, 0, 0⟩
    kuseg2PT := fun _ _ => ⟨0, 0⟩
    kuseg3PT := fun _ => ⟨0, 0⟩ }

lemma blankStart_start : blankStart.Start :=
  ⟨by decide, rfl, fun _ => rfl, rfl, rfl, rfl, fun _ _ => rfl⟩

def entries : Image := ⟨0x20001000, 0x20002000, 0x20003000, 0x20004000⟩

/-- `uProcInit` up to `readTape`. -/
def initialising (p : Fin 2) : List (Doing 2) := [.init p, .init p, .init p, .init p]

/-- What the processes do that have entered `readTape`, while `test` creates the others, waits for
the first ones to end and terminates, is a run of the support level from a fresh state, with the
same events in the same order. -/
theorem phase3_refines {P : Sys n → Event n → Prop} (h0 : s₀.Start)
    (hr : Run (Phase3.step b img) (fun s a => ∀ e, a.event = some e → P s.view e) s₀ h s) :
    s = s₀ ∨ ∃ t l, t.Fresh ∧ t.masterSema4 = 0 ∧ Run (Sys.step b) P t l s.view ∧
      l.map (·.2.1) <:+ h.filterMap (·.2.1.event) := by
  rcases h0.run hr with rfl | ⟨-, hrun⟩
  · exact .inl rfl
  · exact .inr hrun

/-- The first process waits for disk 0 with its first page fault before the second one exists. -/
theorem phase3_refines_early : ∃ h s, Run (Phase3.step twoProcesses entries) (fun _ _ => True)
    blankStart h s ∧ s.init 1 = .absent ∧ s.view.nextFrame = 1 ∧
      ∃ t l, t.Fresh ∧ Run (Sys.step twoProcesses) (fun _ _ => True) t l s.view := by
  obtain ⟨h, s, hr, hq⟩ := exists_run (Phase3.step twoProcesses entries) (fun _ _ => True)
    blankStart ([.test, .test] ++ initialising 0 ++ (faulting 0 0x80000000).map .user ++
      [.user (.run 0 none)])
    (fun _ s => s.init 1 = .absent ∧ s.view.nextFrame = 1) (by decide +kernel)
  obtain ⟨habsent, hnext⟩ := of_decide_eq_true hq
  rcases phase3_refines (P := fun _ _ => True) blankStart_start (hr.mono fun _ _ _ _ _ => trivial)
    with rfl | ⟨t, l, hfresh, -, hl, -⟩
  · exact absurd hnext (by decide)
  · exact ⟨h, s, hr, habsent, hnext, t, l, hfresh, hl⟩

/-- `test` comes to its SYS2 only when every user process has done its V of `masterSema4`, it waits
only for a process that has not, and it does come to its end once all have. -/
theorem test_waits_for_all (h0 : s₀.Start)
    (hr : Run (Phase3.step b img) (fun _ _ => True) s₀ h s) :
    (s.test = .terminate ∨ s.test = .gone → ∀ p, s.Ended p) ∧
      (∀ i, s.test = .waiting i → ∃ p, ¬ s.Ended p) ∧
      (s.test ≠ .globals → (∀ p, s.Ended p) →
        ∃ l t, Run (Phase3.step b img) (fun _ a => a = .test) s l t ∧ t.test = .gone) := by
  refine ⟨fun htest => ?_, fun i htest => ?_, fun hset hended => ?_⟩
  · have hs : s.Going img := h0.going_of_ne hr
      (by rcases htest with htest | htest <;> simp [htest])
    have hsettled := hs.settled
    rw [Phase3.Settled] at hsettled
    rcases htest with htest | htest <;> rw [htest] at hsettled <;>
      exact hs.ended (by rw [htest]; rfl) hsettled
  · exact (h0.going_of_ne hr (by simp [htest])).not_ended htest
  · obtain ⟨l, t, hl, -, hgone, -⟩ := exists_run_done (Phase3.step b img) (fun _ a => a = .test)
      (fun t => t.Going img ∧ ∀ p, t.Ended p) (fun t => t.test = .gone) Phase3.stepsLeft
      (fun t ht hgone => by
        obtain ⟨t', hstep, hlt⟩ := ht.1.exists_runTest ht.2 hgone
        obtain ⟨hgoing, hview⟩ := ht.1.runTest h0.devices hstep
        exact ⟨.test, t', rfl, hstep, ⟨hgoing, fun p => (ht.2 p).of_view hview⟩, hlt⟩)
      ⟨h0.going_of_ne hr hset, hended⟩
    exact ⟨l, t, hl, hgone⟩

/-- `test` terminates while the second process is still on its way from the V to SYS2. -/
theorem test_waits_for_all_two : ∃ h s, Run (Phase3.step twoProcesses entries) (fun _ _ => True)
    blankStart h s ∧ s.test = .gone ∧ s.sys.control 1 = .ending ∧ ∀ p, s.Ended p := by
  obtain ⟨h, s, hr, hq⟩ := exists_run (Phase3.step twoProcesses entries) (fun _ _ => True)
    blankStart ([.test, .test, .test, .test, .test] ++ initialising 0 ++ initialising 1 ++
      ([0, 1].flatMap fun p => [.run p (some 0), .run p none, .trap p, .run p none]).map .user ++
      [.user (.run 0 none), .test, .test, .test])
    (fun _ s => s.test = .gone ∧ s.sys.control 1 = .ending) (by decide +kernel)
  obtain ⟨hgone, hending⟩ := of_decide_eq_true hq
  exact ⟨h, s, hr, hgone, hending, (test_waits_for_all blankStart_start hr).1 (.inr hgone)⟩

/-! ### The handlers -/

/-- The vector of the exception type is an area of the process itself, which enters the handler
with the ASID and a stack page of the process. -/
structure Phase3.Handles (img : Image) (s : Phase3 n) (p : Fin n) (type : Fin trapTypes) :
    Prop where
  vector : s.vectors p type = some (p, type)
  sAsid : (s.newAreas p type).sAsid = entryHi p
  sPc : (s.newAreas p type).sPc = img.handler type
  sT9 : (s.newAreas p type).sReg 24 = img.handler type
  sSp : (s.newAreas p type).sReg 26 = getStackPageAddr ((p + 1 : Nat) : Int) type
  sStatus : (s.newAreas p type).sStatus = Image.handlerStatus type

lemma Phase3.Readied.handles {p : Fin n} (h : s.Readied img p) (hp : s.init p = .entered)
    (type : Fin trapTypes) : s.Handles img p type := by
  obtain ⟨st, hst⟩ := h.newAreas (by simp [hp]) type
  refine ⟨h.set type (by rw [hp]; trivial), ?_, ?_, ?_, ?_, ?_⟩ <;> rw [hst]
  · rfl
  · rfl
  · rfl
  · rfl
  · rfl

lemma toNat_getStackPageAddr (p : Fin n) (hn : n ≤ numDevicesPerType) (type : Fin trapTypes) :
    (getStackPageAddr ((p + 1 : Nat) : Int) type).toNat =
      0x20000000 + (47 + 3 * p + type) * 4096 := by
  have hp : (p : Nat) < 8 := p.isLt.trans_le hn
  have htype : (type : Nat) < 3 := type.isLt
  have hproc : BitVec.ofInt 32 (((p + 1 : Nat) : Int) - 1) = BitVec.ofNat 32 p := by
    rw [Nat.cast_succ, Int.add_sub_cancel]
    rfl
  have hkind : BitVec.ofInt 32 ((type : Nat) : Int) = BitVec.ofNat 32 type := rfl
  have hpool : stackPoolStart.toNat = 0x2002E000 := by decide
  have hsize : uprocStackSize.toNat = 3 := rfl
  have hpage : pageSize.toNat = 4096 := rfl
  rw [getStackPageAddr, hproc, hkind]
  simp only [BitVec.toNat_add, BitVec.toNat_mul, BitVec.toNat_ofNat, hpool, hsize, hpage]
  omega

/-- A process comes to its tape with all three vectors set, to handlers that run with its own ASID
and on stack pages that no other handler of any process uses; and SYS5 never terminates it on the
way. -/
theorem handlers_registered (h0 : s₀.Start)
    (hr : Run (Phase3.step b img) (fun _ _ => True) s₀ h s) :
    (∀ p, s.init p = .entered → ∀ type, s.Handles img p type) ∧
      (∀ p type, s.init p = .vector type → s.vectors p type = none) ∧
      ∀ p q type type', s.init p = .entered → s.init q = .entered →
        (s.newAreas p type).sReg 26 = (s.newAreas q type').sReg 26 → p = q ∧ type = type' := by
  have hready (p : Fin n) (hp : s.init p ≠ .absent) : s.Readied img p := by
    rcases h0.going hr with rfl | hgoing
    · exact absurd (h0.init p) hp
    · exact hgoing.readied p hp
  refine ⟨fun p hp => (hready p (by simp [hp])).handles hp, fun p type hp => ?_,
    fun p q type type' hp hq hsp => ?_⟩
  · exact (hready p (by simp [hp])).unset type (by rw [hp]; exact lt_irrefl type)
  · rw [((hready p (by simp [hp])).handles hp type).sSp,
      ((hready q (by simp [hq])).handles hq type').sSp] at hsp
    have hnat := congrArg BitVec.toNat hsp
    rw [toNat_getStackPageAddr p h0.devices, toNat_getStackPageAddr q h0.devices] at hnat
    have htype : (type : Nat) < 3 := type.isLt
    have htype' : (type' : Nat) < 3 := type'.isLt
    exact ⟨Fin.ext (by omega), Fin.ext (by omega)⟩

theorem handlers_registered_first : ∃ h s, Run (Phase3.step twoProcesses entries)
    (fun _ _ => True) blankStart h s ∧ ∀ type, s.Handles entries 0 type := by
  obtain ⟨h, s, hr, hq⟩ := exists_run (Phase3.step twoProcesses entries) (fun _ _ => True)
    blankStart ([.test, .test] ++ initialising 0) (fun _ s => s.init 0 = .entered)
    (by decide +kernel)
  have hentered : s.init 0 = .entered := of_decide_eq_true hq
  exact ⟨h, s, hr, (handlers_registered blankStart_start hr).1 0 hentered⟩

end Kaya.Support
