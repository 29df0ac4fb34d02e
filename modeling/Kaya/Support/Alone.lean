import Kaya.Lib.Drive
import Kaya.Support.Flat

/-!
# `UserTLBHandler` alone

One process serves its fault while nobody else but the disk goes on.
-/

namespace Kaya.Support

open Function Linked

variable {n : Nat}

def Control.InTlb : Control → Prop
  | .tlb _ _ _ => True
  | _ => False

/-- Where a process goes on after its fault has been served. -/
def Back.control (old : State) : Back → Control
  | .user => .user old
  | .print pr stage => .print pr stage

namespace Disk

/-- A seek and a transfer. -/
def perform (d : Disk) (ram : Ram) (job : Job) : Option (Disk × Ram) := do
  let (d, ram) ← (d.give job.seek).complete ram
  ({ d with data0 := job.data0 }.give job.command).complete ram

variable {d d' : Disk} {ram ram' : Ram} {job : Job}

lemma complete_idle (h : d.complete ram = some (d', ram')) : d'.busy = none := by
  unfold complete at h
  cases hbusy : d.busy with
  | none =>
    rw [hbusy] at h
    cases h
  | some command =>
    rw [hbusy] at h
    dsimp only at h
    split_ifs at h <;> obtain ⟨rfl, -⟩ := Prod.mk.inj (Option.some.inj h) <;> rfl

lemma exists_complete (d : Disk) (command : Word) (ram : Ram) :
    ∃ d' ram', (d.give command).complete ram = some (d', ram') := by
  unfold complete give
  dsimp only
  split_ifs <;> exact ⟨_, _, rfl⟩

lemma exists_perform (d : Disk) (ram : Ram) (job : Job) :
    ∃ d' ram', d.perform ram job = some (d', ram') := by
  obtain ⟨d₁, ram₁, h₁⟩ := d.exists_complete job.seek ram
  obtain ⟨d₂, ram₂, h₂⟩ := { d₁ with data0 := job.data0 }.exists_complete job.command ram₁
  refine ⟨d₂, ram₂, ?_⟩
  unfold perform
  rw [h₁]
  exact h₂

lemma perform_eq_some (h : d.perform ram job = some (d', ram')) :
    ∃ d₁ ram₁, (d.give job.seek).complete ram = some (d₁, ram₁) ∧
      ({ d₁ with data0 := job.data0 }.give job.command).complete ram₁ = some (d', ram') := by
  obtain ⟨⟨d₁, ram₁⟩, h₁, h₂⟩ := Option.bind_eq_some_iff.mp h
  exact ⟨d₁, ram₁, h₁, h₂⟩

lemma perform_idle (h : d.perform ram job = some (d', ram')) : d'.busy = none := by
  obtain ⟨_, _, _, htransfer⟩ := perform_eq_some h
  exact complete_idle htransfer

lemma perform_read (hseek : opOf job.seek = seekCyl) (hread : opOf job.command = readBlk)
    (h : d.perform ram job = some (d', ram')) :
    d'.arm = cylinderOf job.seek ∧ ram' job.data0 = d'.blocks (d'.location job.command) := by
  obtain ⟨d₁, ram₁, h₁, h₂⟩ := perform_eq_some h
  obtain ⟨rfl, rfl⟩ := complete_seek rfl hseek h₁
  obtain ⟨rfl, rfl⟩ := complete_read rfl hread h₂
  exact ⟨rfl, update_self _ _ _⟩

end Disk

namespace Sys

/-- The process waits for the disk as long as it is busy. -/
def turn (s : Sys n) (p : Fin n) : Event n := if s.disk.busy = none then .run p none else .disk

/-- The process goes on in `UserTLBHandler`, together with the disk, until it is out of it. -/
def Returns (b : Board n) (p : Fin n) : Sys n → Sys n → Prop :=
  Drives (fun s => s.step b (s.turn p)) fun s => (s.control p).InTlb

/-- The process is in `UserTLBHandler`, and nobody waits for `swapmutex` or disk 0. -/
structure Solo (s : Sys n) (p : Fin n) (old : State) (back : Back) (stage : TlbStage)
    (swap disk : Int) : Prop where
  control : s.control p = .tlb old back stage
  swapmutex : s.sema4 .swapmutex = ⟨swap, []⟩
  diskMutex : s.sema4 diskMutex = ⟨disk, []⟩
  terminal : p ∉ (s.sema4 (.deviceSema4 (terminalSem (p + 1)))).waiters

variable {b : Board n} {s t u : Sys n} {p : Fin n} {old : State} {back : Back} {stage : TlbStage}
  {v w : Int} {f : Fin poolSize}

namespace Solo

lemma not_blocked (h : s.Solo p old back stage v w) : ¬ s.Blocked p := by
  rintro (hw | hw | hw)
  · rw [h.swapmutex] at hw
    cases hw
  · rw [h.diskMutex] at hw
    cases hw
  · exact h.terminal hw

lemma inTlb (h : s.Solo p old back stage v w) : (s.control p).InTlb := by
  rw [h.control]
  trivial

lemma run_eq (h : s.Solo p old back stage v w) (input : Option Word) :
    s.step b (.run p input) = s.userTlbHandler b p old back input stage := by
  unfold step run
  dsimp only
  rw [if_neg h.not_blocked, h.control]

lemma step_eq (h : s.Solo p old back stage v w) (hidle : s.disk.busy = none) :
    s.step b (s.turn p) = s.userTlbHandler b p old back none stage := by
  unfold turn
  rw [if_pos hidle, h.run_eq]

lemma returns_iff (h : s.Solo p old back stage v w) (hidle : s.disk.busy = none)
    (ht : s.userTlbHandler b p old back none stage = some t) :
    Returns b p s u ↔ Returns b p t u :=
  Drives.iff_of_step h.inTlb ((h.step_eq hidle).trans ht)

/-- With the disk busy it is the disk's turn. -/
lemma returns_disk {disk : Disk} {ram : Ram} (h : s.Solo p old back stage v w)
    (hbusy : s.disk.busy ≠ none) (hd : s.disk.complete s.ram = some (disk, ram)) :
    Returns b p s u ↔ Returns b p { s with disk, ram } u := by
  have hstep : s.step b (s.turn p) = some { s with disk, ram } := by
    unfold turn step
    rw [if_neg hbusy]
    dsimp only
    rw [hd]
    rfl
  exact Drives.iff_of_step h.inTlb hstep

lemma not_returns (h : s.Solo p old back stage v w) (hidle : s.disk.busy = none)
    (hstuck : s.userTlbHandler b p old back none stage = none) : ¬ Returns b p s u :=
  Drives.not_of_stuck h.inTlb ((h.step_eq hidle).trans hstuck)

end Solo

lemma terminalSem_ne (p : Fin n) : Sem.deviceSema4 (terminalSem (p + 1)) ≠ diskMutex := by
  intro he
  have hsem := Sem.deviceSema4.inj he
  simp only [terminalSem, diskSem, terminalLine, diskLine, initialDevLineNum, numDevicesPerType,
    backingStore] at hsem
  omega

lemma Solo.passeren_disk (h : s.Solo p old back stage v 1) (c : TlbStage) :
    ((s.passeren Support.diskMutex p).goto p (.tlb old back c)).Solo p old back c v 0 := by
  refine ⟨goto_control_self _ _ _, ?_, ?_, ?_⟩
  · rw [goto_sema4, passeren_sema4_of_ne _ _ (by simp [Support.diskMutex])]
    exact h.swapmutex
  · rw [goto_sema4, passeren_sema4, h.diskMutex]
    rfl
  · rw [goto_sema4, passeren_sema4_of_ne _ _ (terminalSem_ne p)]
    exact h.terminal

lemma Solo.verhogen_disk (h : s.Solo p old back stage v 0) (c : TlbStage) :
    ((s.verhogen Support.diskMutex).goto p (.tlb old back c)).Solo p old back c v 1 := by
  refine ⟨goto_control_self _ _ _, ?_, ?_, ?_⟩
  · rw [goto_sema4, verhogen_sema4_of_ne _ (by simp [Support.diskMutex])]
    exact h.swapmutex
  · rw [goto_sema4, verhogen_sema4, h.diskMutex]
    rfl
  · rw [goto_sema4, verhogen_sema4_of_ne _ (terminalSem_ne p)]
    exact h.terminal

lemma Solo.setPte {x : UPage n} {e : Pte} {w' : Word} (h : s.Solo p old back stage v w) :
    ({ s with nextFrame := w' }.setPte x e).Solo p old back stage v w := by
  refine ⟨?_, ?_, ?_, ?_⟩
  · rw [setPte_control]
    exact h.control
  · rw [setPte_sema4]
    exact h.swapmutex
  · rw [setPte_sema4]
    exact h.diskMutex
  · rw [setPte_sema4]
    exact h.terminal

lemma Solo.returns_io (control : IoStage → TlbStage) (done : TlbStage) {job : Job} {disk : Disk}
    {ram : Ram} (hrun : ∀ (s : Sys n) io, s.userTlbHandler b p old back none (control io) =
      s.ioStep p job (fun io => .tlb old back (control io)) (.tlb old back done) io)
    (h : s.Solo p old back (control .seek) v 0) (hidle : s.disk.busy = none)
    (hperform : s.disk.perform s.ram job = some (disk, ram)) :
    Returns b p s u ↔
      Returns b p
        (({ s with disk, ram }.verhogen Support.diskMutex).goto p (.tlb old back done)) u := by
  obtain ⟨disk₁, ram₁, hseek, htransfer⟩ := Disk.perform_eq_some hperform
  have hidle₁ := Disk.complete_idle hseek
  have hidle₂ := Disk.perform_idle hperform
  have hsolo : ∀ io d r, ({ s with disk := d, ram := r }.goto p (.tlb old back (control io))).Solo p
      old back (control io) v 0 := fun io d r =>
    ⟨goto_control_self _ _ _, h.swapmutex, h.diskMutex, h.terminal⟩
  have hdisk : ∀ io d command d' r r', (Disk.give d command).complete r = some (d', r') →
      (Returns b p
          ({ s with disk := d.give command, ram := r }.goto p (.tlb old back (control io))) u ↔
        Returns b p ({ s with disk := d', ram := r' }.goto p (.tlb old back (control io))) u) :=
    fun io d command d' r r' hd => (hsolo io _ _).returns_disk (by simp [goto, Disk.give]) hd
  have htransferring : (({ s with disk := disk₁, ram := ram₁ } : Sys n).goto p
      (.tlb old back (control .transfer))).userTlbHandler b p old back none (control .transfer) =
        some ({ s with
          disk := { disk₁ with data0 := job.data0 }.give job.command
          ram := ram₁ }.goto p (.tlb old back (control .release))) := by
    rw [hrun]
    unfold ioStep
    simp [goto, hidle₁]
  have hreleasing : (({ s with disk, ram } : Sys n).goto p
      (.tlb old back (control .release))).userTlbHandler b p old back none (control .release) =
        some (({ s with disk, ram }.verhogen Support.diskMutex).goto p (.tlb old back done)) := by
    rw [hrun]
    unfold ioStep
    simp [goto, verhogen, hidle₂]
  rw [h.returns_iff hidle (hrun s .seek)]
  exact (hdisk .transfer s.disk job.seek disk₁ s.ram ram₁ hseek).trans
    (((hsolo .transfer _ _).returns_iff hidle₁ htransferring).trans
      ((hdisk .release _ _ _ _ _ htransfer).trans
        ((hsolo .release _ _).returns_iff hidle₂ hreleasing)))

/-! ### The stages of the handler -/

/-- Nobody has to be waited for. -/
structure Calls (s : Sys n) (p : Fin n) (old : State) (back : Back) : Prop where
  control : s.control p = .tlb old back .enter
  swapmutex : s.sema4 .swapmutex = .mutex
  diskMutex : s.sema4 diskMutex = .mutex
  terminal : p ∉ (s.sema4 (.deviceSema4 (terminalSem (p + 1)))).waiters
  idle : s.disk.busy = none

lemma Calls.passeren (h : s.Calls p old back) :
    ((s.passeren .swapmutex p).goto p (.tlb old back .check)).Solo p old back .check 0 1 := by
  refine ⟨goto_control_self _ _ _, ?_, ?_, ?_⟩
  · rw [goto_sema4, passeren_sema4, h.swapmutex]
    rfl
  · rw [goto_sema4, passeren_sema4_of_ne _ _ (by simp [Support.diskMutex])]
    exact h.diskMutex
  · rw [goto_sema4, passeren_sema4_of_ne _ _ (by simp)]
    exact h.terminal

lemma Calls.solo (h : s.Calls p old back) : s.Solo p old back .enter 1 1 :=
  ⟨h.control, h.swapmutex, h.diskMutex, h.terminal⟩

lemma enterTlb_served (hserved : Served old) :
    s.enterTlb p old back = (s.passeren .swapmutex p).goto p (.tlb old back .check) := by
  unfold enterTlb
  dsimp only
  rw [if_neg]
  rintro ⟨hload, hstore⟩
  exact hserved.elim hload hstore

lemma takeFrame_vacant (hf : frameOf (s.nextFrame + 1) = some f) (hv : (s.frameSwapPool f).Vacant) :
    s.takeFrame p old back =
      some (({ s with nextFrame := s.nextFrame + 1 }.passeren Support.diskMutex p).goto p
        (.tlb old back (.load f .seek))) := by
  unfold takeFrame bootOut
  simp only [hf, Option.bind_eq_bind, Option.bind_some]
  rcases hv with hfree | ⟨h3, h2⟩
  · rw [if_neg (not_not.mpr hfree)]
    rfl
  · split_ifs <;> rfl

lemma takeFrame_boot {x : UPage n} (hf : frameOf (s.nextFrame + 1) = some f)
    (hx : (s.frameSwapPool f).page n = some x) :
    s.takeFrame p old back =
      some (({ s with nextFrame := s.nextFrame + 1 }.setPte x (s.pte x).flipValid
        |>.passeren Support.diskMutex p).goto p
          (.tlb old back (.boot f (s.frameSwapPool f) .seek))) := by
  have hvacant : ¬ (s.frameSwapPool f).Vacant := by
    intro hv
    rw [SwapEntry.page_of_vacant hv] at hx
    cases hx
  unfold takeFrame bootOut
  simp only [hf, Option.bind_eq_bind, Option.bind_some]
  rw [if_pos fun hfree => hvacant (.inl hfree)]
  unfold SwapEntry.page at hx
  split_ifs at hx ⊢ with h3 h2
  · obtain ⟨q, hq, hx⟩ := Option.bind_eq_some_iff.mp hx
    obtain ⟨j, hj, hx⟩ := Option.bind_eq_some_iff.mp hx
    obtain rfl := Option.some.inj hx
    rw [hq, hj]
    rfl
  · obtain ⟨q, hq, hx⟩ := Option.bind_eq_some_iff.mp hx
    obtain ⟨j, hj, hx⟩ := Option.bind_eq_some_iff.mp hx
    obtain rfl := Option.some.inj hx
    rw [hq, hj]
    rfl

lemma takeFrame_stuck (hf : frameOf (s.nextFrame + 1) = some f) (hv : ¬ (s.frameSwapPool f).Vacant)
    (hx : (s.frameSwapPool f).page n = none) : s.takeFrame p old back = none := by
  unfold takeFrame bootOut
  simp only [hf, Option.bind_eq_bind, Option.bind_some]
  rw [if_pos fun hfree => hv (.inl hfree)]
  unfold SwapEntry.page at hx
  split_ifs at hx ⊢ with h3 h2
  · cases hq : procOf n (s.frameSwapPool f).ASID with
    | none => rfl
    | some q =>
      cases hj : entryOf (s.frameSwapPool f).pageNum with
      | none => rfl
      | some j =>
        rw [hq, hj] at hx
        cases hx
  · cases hq : procOf n (s.frameSwapPool f).ASID with
    | none => rfl
    | some q =>
      cases hj : entryOf (s.frameSwapPool f).pageNum with
      | none => rfl
      | some j =>
        rw [hq, hj] at hx
        cases hx
  · exact absurd (.inr ⟨h3, h2⟩) hv

end Sys

end Kaya.Support
