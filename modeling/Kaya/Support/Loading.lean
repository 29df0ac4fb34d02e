import Kaya.Lib.Stores
import Kaya.Support.Alone

/-!
# `readTape` alone

One process loads its program image while nobody else but its tape and the disk goes on.
-/

namespace Kaya.Support

open Function Linked

variable {n : Nat}

/-! ### The tape -/

structure Tape where
  /-- the blocks that have not been read yet -/
  blocks : List Block
  /-- the register that tells what follows the last block that was read -/
  data1 : Word
  /-- what follows the last block of all -/
  mark : Word
  mark_ne : mark ≠ Sys.endOfBlock

namespace Tape

/-- A successful READBLK: the block, and the tape behind it. -/
def readBlk (t : Tape) : Option (Block × Tape) :=
  match t.blocks with
  | [] => none
  | x :: l => some (x, { t with
      blocks := l
      data1 := if l.isEmpty then t.mark else Sys.endOfBlock })

variable {t : Tape} {x : Block} {l : List Block}

lemma readBlk_cons (h : t.blocks = x :: l) : ∃ t' : Tape, t.readBlk = some (x, t') ∧
    t'.blocks = l ∧ (t'.data1 = Sys.endOfBlock ↔ l ≠ []) := by
  unfold readBlk
  rw [h]
  refine ⟨_, rfl, rfl, ?_⟩
  cases l with
  | nil => exact iff_of_false t.mark_ne (not_not.mpr rfl)
  | cons y l => exact iff_of_true rfl (List.cons_ne_nil y l)

lemma blocks_of_readBlk {t' : Tape} (h : t.readBlk = some (x, t')) : t.blocks = x :: t'.blocks := by
  cases hl : t.blocks with
  | nil =>
    unfold readBlk at h
    rw [hl] at h
    cases h
  | cons y l =>
    obtain ⟨t₁, hread, hblocks, -⟩ := readBlk_cons hl
    obtain ⟨rfl, rfl⟩ := Prod.mk.inj (Option.some.inj (hread.symm.trans h))
    rw [hblocks]

end Tape

/-! ### Where the blocks go -/

/-- The block of the disk for a page of a process in kuseg2. -/
def pageBlock (p : Fin n) (page : ℕ) : Location where
  cylinder := (getCylinderNum page).toNat
  head := (getHeadNum kuseg2).toNat
  sector := (getSectorNum (p + 1 : ℕ)).toNat

lemma pageBlock_eq (p : Fin n) (page : ℕ) : pageBlock p page = ⟨min page 31, 0, p⟩ := by
  have hcylinder : (getCylinderNum page).toNat = min page 31 := by
    unfold getCylinderNum
    split_ifs <;> omega
  have hsector : (getSectorNum (p + 1 : ℕ)).toNat = p := by
    unfold getSectorNum
    omega
  unfold pageBlock
  rw [hcylinder, hsector]
  rfl

lemma pageBlock_eq_iff {p : Fin n} {i j : ℕ} :
    pageBlock p i = pageBlock p j ↔ i = j ∨ 31 ≤ i ∧ 31 ≤ j := by
  rw [pageBlock_eq, pageBlock_eq, Location.mk.injEq]
  omega

lemma getTapeBufferAddr_eq (hn : n ≤ 63) (p : Fin n) (i : ℕ) :
    (tapeJob (asidOf (entryHi p)) i).data0 = getTapeBufferAddr p := by
  have hindex : ((p + 1 : ℕ) : Int) - 1 = p := by omega
  unfold tapeJob
  rw [asidOf_entryHi hn]
  dsimp only
  rw [hindex]

section location

variable {op : Word} {p : Fin n} {page : ℕ}

lemma location_kuseg2 (hop : op.toNat < 256) (hn : n ≤ 63) (addr : Word) :
    (⟨seekCommand page, addr, blockCommand op (p + 1 : ℕ) kuseg2⟩ : Job).location =
      pageBlock p page := by
  have hp := p.isLt
  unfold Job.location
  dsimp only
  rw [cylinderOf_seekCommand, headOf_blockCommand hop (by omega) (by omega),
    sectorOf_blockCommand hop (by omega) (by omega), pageBlock_eq, if_pos rfl]
  rfl

lemma loadJob_location (hn : n ≤ 63) (p : Fin n) (addr : Word) (page : ℕ) :
    (loadJob addr (asidOf (entryHi p)) kuseg2 page).location = pageBlock p page := by
  rw [asidOf_entryHi hn]
  exact location_kuseg2 (by decide) hn addr

lemma tapeJob_location (hn : n ≤ 63) (p : Fin n) (page : ℕ) :
    (tapeJob (asidOf (entryHi p)) page).location = pageBlock p page := by
  rw [asidOf_entryHi hn]
  exact location_kuseg2 (by decide) hn _

end location

namespace Disk

variable {d d' : Disk} {ram ram' : Ram} {job : Job}

lemma perform_write (hseek : opOf job.seek = seekCyl) (hwrite : opOf job.command = writeBlk)
    (h : d.perform ram job = some (d', ram')) :
    ram' = ram ∧ d'.blocks = update d.blocks job.location (ram job.data0) := by
  obtain ⟨d₁, ram₁, h₁, h₂⟩ := perform_eq_some h
  obtain ⟨rfl, rfl⟩ := complete_seek rfl hseek h₁
  obtain ⟨rfl, rfl⟩ := complete_write rfl hwrite h₂
  exact ⟨rfl, rfl⟩

/-- The pager reads the block that `readTape` has written for the page. -/
theorem perform_load {p : Fin n} {addr : Word} {page : ℕ} (hn : n ≤ 63)
    (h : d.perform ram (loadJob addr (asidOf (entryHi p)) kuseg2 page) = some (d', ram')) :
    ram' addr = d.blocks (pageBlock p page) := by
  have hp := p.isLt
  have hread : opOf (loadJob addr (asidOf (entryHi p)) kuseg2 page).command = readBlk := by
    rw [asidOf_entryHi hn]
    exact opOf_blockCommand (by decide) (by omega) (by omega)
  obtain ⟨d₁, ram₁, h₁, h₂⟩ := perform_eq_some h
  obtain ⟨rfl, rfl⟩ := complete_seek rfl (opOf_seekCommand page) h₁
  obtain ⟨rfl, rfl⟩ := complete_read rfl hread h₂
  rw [← loadJob_location hn p addr]
  exact update_self _ _ _

end Disk

/-! ### The process, its tape and the disk -/

/-- What goes on during `readTape`. -/
structure Loader (n : Nat) where
  sys : Sys n
  tape : Tape

namespace Loader

/-- The process waits for the disk as long as it is busy and for its tape before every block.
It reads `DATA1` of the tape after every block. -/
def step (b : Board n) (p : Fin n) (l : Loader n) : Option (Loader n) :=
  if l.sys.disk.busy ≠ none then do
    return { l with sys := ← l.sys.step b .disk }
  else
    match l.sys.control p with
    | .readTape _ .read => do
      let (block, tape) ← l.tape.readBlk
      let ram := update l.sys.ram (getTapeBufferAddr p) block
      return { sys := ← { l.sys with ram }.step b (.run p (some Sys.tapeReady)), tape }
    | _ => do return { l with sys := ← l.sys.step b (.run p (some l.tape.data1)) }

/-- `readTape` of the process, together with its tape and the disk, until it is over. -/
def Loads (b : Board n) (p : Fin n) : Loader n → Loader n → Prop :=
  Drives (step b p) fun l => (l.sys.control p).InTape

end Loader

/-- The process is in `readTape`, and nobody waits for disk 0. -/
structure Sys.Reads (s : Sys n) (p : Fin n) (i : ℕ) (stage : TapeStage) (disk : Int) : Prop where
  control : s.control p = .readTape i stage
  diskMutex : s.sema4 diskMutex = ⟨disk, []⟩
  swapmutex : p ∉ (s.sema4 .swapmutex).waiters
  terminal : p ∉ (s.sema4 (.deviceSema4 (terminalSem (p + 1)))).waiters

variable {b : Board n} {s s' : Sys n} {p : Fin n} {i : ℕ} {stage : TapeStage} {v : Int}
  {t t' : Tape} {u : Loader n} {x : Block} {l : List Block}

namespace Sys.Reads

lemma not_blocked (h : s.Reads p i stage v) : ¬ s.Blocked p := by
  rintro (hw | hw | hw)
  · exact h.swapmutex hw
  · rw [h.diskMutex] at hw
    cases hw
  · exact h.terminal hw

lemma inTape (h : s.Reads p i stage v) : (s.control p).InTape := by
  rw [h.control]
  trivial

lemma run_eq (h : s.Reads p i stage v) (input : Word) :
    s.step b (.run p (some input)) = s.readTape b p i input stage := by
  unfold step run
  dsimp only
  rw [if_neg h.not_blocked, h.control]
  rfl

lemma frame (h : s.Reads p i stage v) (hcontrol : s'.control p = .readTape i stage)
    (hsema4 : s'.sema4 = s.sema4) : s'.Reads p i stage v := by
  refine ⟨hcontrol, ?_, ?_, ?_⟩
  · rw [hsema4]
    exact h.diskMutex
  · rw [hsema4]
    exact h.swapmutex
  · rw [hsema4]
    exact h.terminal

lemma goto (h : s.Reads p i stage v) (i' : ℕ) (stage' : TapeStage) :
    (s.goto p (.readTape i' stage')).Reads p i' stage' v :=
  ⟨goto_control_self _ _ _, h.diskMutex, h.swapmutex, h.terminal⟩

lemma passeren (h : s.Reads p i stage 1) (stage' : TapeStage) :
    ((s.passeren Support.diskMutex p).goto p (.readTape i stage')).Reads p i stage' 0 := by
  refine ⟨goto_control_self _ _ _, ?_, ?_, ?_⟩
  · rw [goto_sema4, passeren_sema4, h.diskMutex]
    rfl
  · rw [goto_sema4, passeren_sema4_of_ne _ _ (by simp [Support.diskMutex])]
    exact h.swapmutex
  · rw [goto_sema4, passeren_sema4_of_ne _ _ (terminalSem_ne p)]
    exact h.terminal

lemma verhogen (h : s.Reads p i stage 0) (stage' : TapeStage) :
    ((s.verhogen Support.diskMutex).goto p (.readTape i stage')).Reads p i stage' 1 := by
  refine ⟨goto_control_self _ _ _, ?_, ?_, ?_⟩
  · rw [goto_sema4, verhogen_sema4, h.diskMutex]
    rfl
  · rw [goto_sema4, verhogen_sema4_of_ne _ (by simp [Support.diskMutex])]
    exact h.swapmutex
  · rw [goto_sema4, verhogen_sema4_of_ne _ (terminalSem_ne p)]
    exact h.terminal

lemma loads_step {l : Loader n} (h : s.Reads p i stage v)
    (hstep : Loader.step b p ⟨s, t⟩ = some l) :
    Loader.Loads b p ⟨s, t⟩ u ↔ Loader.Loads b p l u :=
  Drives.iff_of_step h.inTape hstep

lemma loads_disk {disk : Disk} {ram : Ram} (h : s.Reads p i stage v) (hbusy : s.disk.busy ≠ none)
    (hd : s.disk.complete s.ram = some (disk, ram)) :
    Loader.Loads b p ⟨s, t⟩ u ↔ Loader.Loads b p ⟨{ s with disk, ram }, t⟩ u := by
  apply h.loads_step
  unfold Loader.step step
  rw [if_pos hbusy]
  dsimp only
  rw [hd]
  rfl

/-- With the disk idle the process goes on, unless it waits for its tape. -/
lemma loads_run (h : s.Reads p i stage v) (hstage : stage ≠ .read) (hidle : s.disk.busy = none)
    (hrun : s.readTape b p i t.data1 stage = some s') :
    Loader.Loads b p ⟨s, t⟩ u ↔ Loader.Loads b p ⟨s', t⟩ u := by
  apply h.loads_step
  have hstep : s.step b (.run p (some t.data1)) = some s' := (h.run_eq _).trans hrun
  unfold Loader.step
  rw [if_neg (not_not.mpr hidle)]
  dsimp only
  rw [h.control]
  cases stage with
  | read => exact absurd rfl hstage
  | io stage =>
    dsimp only
    rw [hstep]
    rfl
  | next =>
    dsimp only
    rw [hstep]
    rfl

lemma loads_block (h : s.Reads p i .read v) (hidle : s.disk.busy = none)
    (hblock : t.readBlk = some (x, t')) :
    Loader.Loads b p ⟨s, t⟩ u ↔
      Loader.Loads b p ⟨({ s with ram := update s.ram (getTapeBufferAddr p) x }.passeren
        Support.diskMutex p).goto p (.readTape i (.io .seek)), t'⟩ u := by
  apply h.loads_step
  have hreads :
      ({ s with ram := update s.ram (getTapeBufferAddr p) x } : Sys n).Reads p i .read v :=
    h.frame h.control rfl
  unfold Loader.step
  rw [if_neg (not_not.mpr hidle)]
  dsimp only
  rw [h.control]
  dsimp only
  rw [hblock]
  dsimp only [Option.bind_eq_bind, Option.bind_some]
  rw [hreads.run_eq]
  rfl

lemma loads_io {disk : Disk} {ram : Ram} (h : s.Reads p i (.io .seek) 0)
    (hidle : s.disk.busy = none)
    (hperform : s.disk.perform s.ram (tapeJob (asidOf (entryHi p)) i) = some (disk, ram)) :
    Loader.Loads b p ⟨s, t⟩ u ↔
      Loader.Loads b p
        ⟨({ s with disk, ram }.verhogen Support.diskMutex).goto p (.readTape i .next), t⟩ u := by
  obtain ⟨disk₁, ram₁, hseek, htransfer⟩ := Disk.perform_eq_some hperform
  have hidle₁ := Disk.complete_idle hseek
  have hidle₂ := Disk.perform_idle hperform
  have hreads : ∀ io d r, ({ s with disk := d, ram := r }.goto p (.readTape i (.io io))).Reads p i
      (.io io) 0 := fun io d r => (h.goto i (.io io)).frame (goto_control_self _ _ _) rfl
  have hdisk : ∀ io d command d' r r', (Disk.give d command).complete r = some (d', r') →
      (Loader.Loads b p
          ⟨{ s with disk := d.give command, ram := r }.goto p (.readTape i (.io io)), t⟩ u ↔
        Loader.Loads b p ⟨{ s with disk := d', ram := r' }.goto p (.readTape i (.io io)), t⟩ u) :=
    fun io d command d' r r' hd =>
      (hreads io _ _).loads_disk (by simp [Sys.goto, Disk.give]) hd
  have hseeking : s.readTape b p i t.data1 (.io .seek) =
      some ({ s with
        disk := s.disk.give (tapeJob (asidOf (entryHi p)) i).seek }.goto p
          (.readTape i (.io .transfer))) := rfl
  have htransferring : (({ s with disk := disk₁, ram := ram₁ } : Sys n).goto p
      (.readTape i (.io .transfer))).readTape b p i t.data1 (.io .transfer) =
        some ({ s with
          disk := { disk₁ with data0 := (tapeJob (asidOf (entryHi p)) i).data0 }.give
            (tapeJob (asidOf (entryHi p)) i).command
          ram := ram₁ }.goto p (.readTape i (.io .release))) := by
    unfold readTape ioStep
    simp [Sys.goto, hidle₁]
  have hreleasing : (({ s with disk, ram } : Sys n).goto p
      (.readTape i (.io .release))).readTape b p i t.data1 (.io .release) =
        some (({ s with disk, ram }.verhogen Support.diskMutex).goto p (.readTape i .next)) := by
    unfold readTape ioStep
    simp [Sys.goto, Sys.verhogen, hidle₂]
  rw [h.loads_run (by simp) hidle hseeking]
  refine (hdisk .transfer s.disk _ disk₁ s.ram ram₁ hseek).trans ?_
  rw [(hreads .transfer _ _).loads_run (by simp) hidle₁ htransferring]
  refine (hdisk .release _ _ _ _ _ htransfer).trans ?_
  rw [(hreads .release _ _).loads_run (by simp) hidle₂ hreleasing]

end Sys.Reads

end Kaya.Support
