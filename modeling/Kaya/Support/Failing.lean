import Kaya.Support.Alone

/-!
# Disk operations that fail

`UserTLBHandler` alone, with a disk that may end an operation with any status.
-/

namespace Kaya.Support

open Function Linked

variable {n : ℕ}

/-- What a disk leaves behind when an operation has ended with a status other than READY. -/
abbrev Damage := Word → Disk → Ram → Disk × Ram

/-- The disk ends what it was working on with this status. -/
def Disk.finish (damage : Damage) (d : Disk) (ram : Ram) (status : Word) : Option (Disk × Ram) :=
  if status = ready then d.complete ram
  else d.busy.map fun _ => ({ (damage status d ram).1 with busy := none }, (damage status d ram).2)

lemma Disk.exists_finish (damage : Damage) {d : Disk} (ram : Ram) (status : Word)
    (h : d.busy ≠ none) : ∃ d' ram', d.finish damage ram status = some (d', ram') ∧
      d'.busy = none := by
  obtain ⟨command, hcommand⟩ := Option.ne_none_iff_exists'.mp h
  by_cases hready : status = ready
  · obtain ⟨d', ram', hcomplete⟩ := d.exists_complete command ram
    have hgive : d.give command = d := by
      unfold Disk.give
      rw [← hcommand]
    rw [hgive] at hcomplete
    exact ⟨d', ram', (if_pos hready).trans hcomplete, Disk.complete_idle hcomplete⟩
  · unfold finish
    rw [if_neg hready, hcommand]
    exact ⟨_, _, rfl, rfl⟩

/-- One pass of `UserTLBHandler`. -/
structure Trial (n : ℕ) where
  sys : Sys n
  /-- the statuses of the operations to come -/
  statuses : ℕ → Word
  /-- where the process has waited for the disk, with the status that it has got -/
  got : List (Control × Word)

namespace Trial

/-- As long as the disk is busy the process waits for it. In the re-check of a shared page it may
read `found`. -/
def step (damage : Damage) (found : Option Word) (b : Board n) (p : Fin n) (t : Trial n) :
    Option (Trial n) :=
  match t.sys.disk.busy with
  | none => do return { t with sys := ← t.sys.step b (.run p found) }
  | some _ => do
    let (disk, ram) ← t.sys.disk.finish damage t.sys.ram (t.statuses 0)
    return {
      sys := { t.sys with disk, ram }
      statuses := fun j => t.statuses (j + 1)
      got := t.got ++ [(t.sys.control p, t.statuses 0)] }

/-- The handler has not come to its end. -/
def Running (p : Fin n) (t : Trial n) : Prop := (t.sys.control p).InTlb

end Trial

/-- The seek and the transfer of an operation have completed with READY. -/
def Succeeded (got : List (Control × Word)) (control : IoStage → Control) : Prop :=
  (control .transfer, ready) ∈ got ∧ (control .release, ready) ∈ got

/-- What has to be done before the handler goes on. It marks the entry of the page valid only
after the page-in, and gives READBLK for the frame of another page only after its page-out. -/
def Demands (p : Fin n) (old : State) (back : Back) (pool : Fin poolSize → SwapEntry)
    (got : List (Control × Word)) : TlbStage → Prop
  | .install f =>
    faultPage p old ≠ none → Succeeded got fun io => .tlb old back (.load f io)
  | .load f .transfer =>
    ¬ (pool f).Vacant → Succeeded got fun io => .tlb old back (.boot f (pool f) io)
  | _ => True

/-- No failed operation is taken for one that has succeeded. -/
def Careful (p : Fin n) (old : State) (back : Back) (t : Trial n) : Prop :=
  ∀ stage, t.sys.control p = .tlb old back stage →
    Demands p old back t.sys.frameSwapPool t.got stage

/-- From here on, the handler takes no failed operation for one that has succeeded. -/
def StaysCareful (damage : Damage) (found : Option Word) (b : Board n) (p : Fin n) (old : State)
    (back : Back) : Trial n → Prop :=
  Always (Trial.step damage found b p) (Trial.Running p) (Careful p old back)

variable {damage : Damage} {found : Option Word} {b : Board n} {s s' : Sys n} {p : Fin n}
  {old : State} {back : Back} {stage : TlbStage} {v w : Int} {f : Fin poolSize} {u : ℕ → Word}
  {got : List (Control × Word)} {t : Trial n}

lemma careful_iff (hc : t.sys.control p = .tlb old back stage) :
    Careful p old back t ↔ Demands p old back t.sys.frameSwapPool t.got stage := by
  unfold Careful
  rw [hc]
  constructor
  · intro h
    exact h stage rfl
  · intro h stage' hstage
    obtain ⟨-, -, rfl⟩ := Control.tlb.inj hstage
    exact h

namespace Sys

section turn

variable (damage u got)

lemma Solo.careful_run (h : s.Solo p old back stage v w) (hidle : s.disk.busy = none)
    (hrun : s.userTlbHandler b p old back found stage = some s') :
    StaysCareful damage found b p old back ⟨s, u, got⟩ ↔
      Demands p old back s.frameSwapPool got stage ∧
        StaysCareful damage found b p old back ⟨s', u, got⟩ := by
  have hstep : Trial.step damage found b p ⟨s, u, got⟩ = some ⟨s', u, got⟩ := by
    unfold Trial.step
    dsimp only
    rw [hidle]
    dsimp only
    rw [h.run_eq, hrun]
    rfl
  rw [← careful_iff (t := ⟨s, u, got⟩) h.control]
  exact Always.iff_of_step h.inTlb hstep

variable (found b)

lemma Solo.careful_wait (h : s.Solo p old back stage v w) (hbusy : s.disk.busy ≠ none) :
    ∃ disk ram, disk.busy = none ∧
      (StaysCareful damage found b p old back ⟨s, u, got⟩ ↔
        Demands p old back s.frameSwapPool got stage ∧
          StaysCareful damage found b p old back ⟨{ s with disk, ram }, fun j => u (j + 1),
            got ++ [(.tlb old back stage, u 0)]⟩) := by
  obtain ⟨disk, ram, hfinish, hidle⟩ := Disk.exists_finish damage s.ram (u 0) hbusy
  obtain ⟨command, hcommand⟩ := Option.ne_none_iff_exists'.mp hbusy
  have hstep : Trial.step damage found b p ⟨s, u, got⟩ = some ⟨{ s with disk, ram },
      fun j => u (j + 1), got ++ [(.tlb old back stage, u 0)]⟩ := by
    unfold Trial.step
    dsimp only
    rw [hcommand]
    dsimp only
    rw [hfinish, h.control]
    rfl
  refine ⟨disk, ram, hidle, ?_⟩
  rw [← careful_iff (t := ⟨s, u, got⟩) h.control]
  exact Always.iff_of_step h.inTlb hstep

end turn

end Sys

/-- Out of the handler nothing is asked any more. -/
lemma careful_over (h : ¬ (s.control p).InTlb) :
    StaysCareful damage found b p old back ⟨s, u, got⟩ := by
  have hstop : ¬ Trial.Running p ⟨s, u, got⟩ := h
  refine (Always.iff_of_stop hstop).mpr ?_
  intro stage hc
  change s.control p = _ at hc
  rw [hc] at h
  exact absurd trivial h

namespace Sys

/-! ### The stages of the handler -/

lemma Solo.careful_leave (h : s.Solo p old back .leave v w) (hidle : s.disk.busy = none) :
    StaysCareful damage found b p old back ⟨s, u, got⟩ := by
  have hrun : s.userTlbHandler b p old back found .leave = some (s.goto p (back.control old)) := by
    cases back <;> rfl
  refine (h.careful_run _ _ _ hidle hrun).mpr ⟨trivial, ?_⟩
  apply careful_over
  rw [goto_control_self]
  cases back <;> exact not_false

lemma Solo.verhogen_swap (h : s.Solo p old back stage 0 w) (c : TlbStage) :
    ((s.verhogen .swapmutex).goto p (.tlb old back c)).Solo p old back c 1 w := by
  refine ⟨goto_control_self _ _ _, ?_, ?_, ?_⟩
  · rw [goto_sema4, verhogen_sema4, h.swapmutex]
    rfl
  · rw [goto_sema4, verhogen_sema4_of_ne _ (by simp [Support.diskMutex])]
    exact h.diskMutex
  · rw [goto_sema4, verhogen_sema4_of_ne _ (by simp)]
    exact h.terminal

lemma placePage_frame {segment page : ℕ} {t : Sys n}
    (h : s.placePage b p segment page f = some t) :
    t.control = s.control ∧ t.sema4 = s.sema4 ∧ t.disk = s.disk := by
  unfold placePage at h
  dsimp only at h
  split_ifs at h
  · obtain ⟨_, -, h⟩ := Option.bind_eq_some_iff.mp h
    obtain ⟨_, -, h⟩ := Option.bind_eq_some_iff.mp h
    obtain rfl := Option.some.inj h
    exact ⟨rfl, rfl, rfl⟩
  · obtain ⟨_, -, h⟩ := Option.bind_eq_some_iff.mp h
    obtain ⟨_, -, h⟩ := Option.bind_eq_some_iff.mp h
    obtain rfl := Option.some.inj h
    exact ⟨rfl, rfl, rfl⟩
  · obtain rfl := Option.some.inj h
    exact ⟨rfl, rfl, rfl⟩

lemma Solo.careful_install (h : s.Solo p old back (.install f) 0 w) (hidle : s.disk.busy = none) :
    StaysCareful damage found b p old back ⟨s, u, got⟩ ↔
      (faultPage p old ≠ none → Succeeded got fun io => .tlb old back (.load f io)) := by
  rw [h.careful_run _ _ _ hidle rfl]
  refine and_iff_left ?_
  unfold installPage
  dsimp only
  split
  · apply careful_over
    rw [goto_control_self]
    exact not_false
  · rename_i r hplace
    obtain ⟨hcontrol, hsema4, hdisk⟩ := placePage_frame hplace
    have hr : r.Solo p old back (.install f) 0 w := by
      refine ⟨?_, ?_, ?_, ?_⟩
      · rw [hcontrol]
        exact h.control
      · rw [hsema4]
        exact h.swapmutex
      · rw [hsema4]
        exact h.diskMutex
      · rw [hsema4]
        exact h.terminal
    apply (hr.verhogen_swap .leave).careful_leave
    change r.disk.busy = none
    rw [hdisk]
    exact hidle

lemma Solo.careful_io (damage : Damage) (found : Option Word) (control : IoStage → TlbStage)
    (done : TlbStage) {job : Job} {ask : Prop}
    (hrun : ∀ (s : Sys n) io, s.userTlbHandler b p old back found (control io) =
      s.ioStep p job (fun io => .tlb old back (control io)) (.tlb old back done) io)
    (hquiet : ∀ pool got io, io ≠ .transfer → Demands p old back pool got (control io))
    (hask : ∀ rest, (∀ c ∈ rest, c = (.tlb old back (control .transfer), u 0)) →
      (Demands p old back s.frameSwapPool (got ++ rest) (control .transfer) ↔ ask))
    (h : s.Solo p old back (control .seek) v 0) (hidle : s.disk.busy = none) :
    ∃ disk ram, disk.busy = none ∧
      (StaysCareful damage found b p old back ⟨s, u, got⟩ ↔ ask ∧
        StaysCareful damage found b p old back
          ⟨({ s with disk, ram }.verhogen Support.diskMutex).goto p (.tlb old back done),
            fun j => u (j + 2), got ++ [(.tlb old back (control .transfer), u 0),
              (.tlb old back (control .release), u 1)]⟩) := by
  have hsolo : ∀ io d r, ({ s with disk := d, ram := r }.goto p (.tlb old back (control io))).Solo p
      old back (control io) v 0 := fun io d r =>
    ⟨goto_control_self _ _ _, h.swapmutex, h.diskMutex, h.terminal⟩
  have hmoving := hask [] fun _ hc => absurd hc List.not_mem_nil
  have hmoved := hask [(.tlb old back (control .transfer), u 0)]
    fun _ hc => List.mem_singleton.mp hc
  rw [List.append_nil] at hmoving
  obtain ⟨disk₁, ram₁, hidle₁, hseek⟩ := (hsolo .transfer (s.disk.give job.seek) s.ram).careful_wait
    damage found b u got (by simp [goto, Disk.give])
  obtain ⟨disk₂, ram₂, hidle₂, htransfer⟩ := (hsolo .release
    ({ disk₁ with data0 := job.data0 }.give job.command) ram₁).careful_wait damage found b
      (fun j => u (j + 1)) (got ++ [(.tlb old back (control .transfer), u 0)])
      (by simp [goto, Disk.give])
  have htransferring : (({ s with disk := disk₁, ram := ram₁ } : Sys n).goto p
      (.tlb old back (control .transfer))).userTlbHandler b p old back found (control .transfer) =
        some ({ s with
          disk := { disk₁ with data0 := job.data0 }.give job.command
          ram := ram₁ }.goto p (.tlb old back (control .release))) := by
    rw [hrun]
    unfold ioStep
    simp [goto, hidle₁]
  have hreleasing : (({ s with disk := disk₂, ram := ram₂ } : Sys n).goto p
      (.tlb old back (control .release))).userTlbHandler b p old back found (control .release) =
        some (({ s with disk := disk₂, ram := ram₂ }.verhogen Support.diskMutex).goto p
          (.tlb old back done)) := by
    rw [hrun]
    unfold ioStep
    simp [goto, verhogen, hidle₂]
  have hstart := (h.careful_run damage u got hidle (hrun s .seek)).trans
    (and_iff_right (hquiet _ _ _ (by simp)))
  have hsought := (hsolo .transfer disk₁ ram₁).careful_run damage (fun j => u (j + 1))
    (got ++ [(.tlb old back (control .transfer), u 0)]) hidle₁ htransferring
  have hended := ((hsolo .release disk₂ ram₂).careful_run damage (fun j => u (j + 2))
    (got ++ [(.tlb old back (control .transfer), u 0)] ++
      [(.tlb old back (control .release), u 1)]) hidle₂ hreleasing).trans
    (and_iff_right (hquiet _ _ _ (by simp)))
  have hrest := (htransfer.trans (and_iff_right (hquiet _ _ _ (by simp)))).trans hended
  rw [List.append_assoc] at hrest
  have hmove := hsought.trans (and_congr hmoved hrest)
  refine ⟨disk₂, ram₂, hidle₂, hstart.trans ((hseek.trans (and_congr hmoving hmove)).trans ?_)⟩
  exact and_self_left

end Sys

end Kaya.Support
