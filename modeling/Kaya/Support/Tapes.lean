import Kaya.Support.Confined
import Kaya.Support.Contents
import Kaya.Support.Handover
import Kaya.Support.Loading

/-!
# The tapes of the user processes

All processes read their tapes, each at its own pace, while those that have done so already run.
As long as a process reads its tape, its blocks on the disk are those of the tape up to the one
written last, and from there on as they were at first.
-/

namespace Kaya.Support

open Function Linked

variable {n : Nat}

/-- There is memory for the tape buffers below the swap pool. -/
def Board.HoldsBuffers (b : Board n) : Prop :=
  romPageStart.toNat + (osFrames.toNat + n + poolSize + 3) * 4096 ≤ b.ramtop.toNat

instance (b : Board n) : Decidable b.HoldsBuffers := inferInstanceAs (Decidable (_ ≤ _))

/-- The support level with the tapes of its processes. -/
structure Station (n : Nat) where
  sys : Sys n
  tape : Fin n → Tape

namespace Station

/-- A process that is about to read a block has it put into its buffer. -/
def deliver (x : Station n) : Event n → Option (Station n)
  | .run p _ =>
    match x.sys.control p with
    | .readTape _ .read => do
      let (block, tape) ← (x.tape p).readBlk
      let ram := update x.sys.ram (getTapeBufferAddr p) block
      return { sys := { x.sys with ram }, tape := update x.tape p tape }
    | _ => some x
  | _ => some x

/-- What a process learns from its tape: the status before the block and `DATA1` after it. -/
def learns (x : Station n) : Event n → Event n
  | .run p input =>
    match x.sys.control p with
    | .readTape _ .read => .run p (some Sys.tapeReady)
    | .readTape _ .next => .run p (some (x.tape p).data1)
    | _ => .run p input
  | e => e

def step (b : Board n) (x : Station n) (e : Event n) : Option (Station n) := do
  let y ← x.deliver e
  return { y with sys := ← y.sys.step b (x.learns e) }

end Station

section buffers

variable {b : Board n}

lemma toNat_getTapeBufferAddr (hn : n ≤ 63) (p : Fin n) :
    (getTapeBufferAddr p).toNat = romPageStart.toNat + (osFrames.toNat + p) * 4096 := by
  have hp := p.isLt
  have hofInt : BitVec.ofInt 32 (p : ℕ) = BitVec.ofNat 32 p := BitVec.ofInt_natCast 32 p
  have hstart : romPageStart.toNat = 536870912 := rfl
  have hframes : osFrames.toNat = 30 := rfl
  have hbase : (romPageStart + osFrames * pageSize).toNat = 536993792 := rfl
  have hpage : pageSize.toNat = 4096 := rfl
  unfold getTapeBufferAddr
  rw [hofInt, BitVec.toNat_add, BitVec.toNat_mul, BitVec.toNat_ofNat, hbase, hpage, hstart,
    hframes]
  omega

lemma getTapeBufferAddr_inj (hn : n ≤ 63) {p q : Fin n}
    (h : getTapeBufferAddr p = getTapeBufferAddr q) : p = q := by
  have hnat := congrArg BitVec.toNat h
  rw [toNat_getTapeBufferAddr hn, toNat_getTapeBufferAddr hn] at hnat
  exact Fin.ext (by omega)

lemma Board.HoldsBuffers.ne_frame (h : b.HoldsBuffers) (p : Fin n) (f : Fin poolSize) :
    getTapeBufferAddr p ≠ b.getFrameAddr f := by
  have hp := p.isLt
  have hroom := b.room
  intro he
  have hnat := congrArg BitVec.toNat he
  rw [toNat_getTapeBufferAddr b.procCnt_le, b.toNat_getFrameAddr] at hnat
  unfold HoldsBuffers at h
  omega

end buffers

namespace Sys

variable {b : Board n} {s s' : Sys n} {e : Event n} {p q : Fin n} {i : Nat} {stage : TapeStage}
  {job : Job} {m : Flat n} {disk : Disk} {ram : Ram}

/-! ### A process that reads its tape -/

lemma step_readTape_of_ne (h : s.step b e = some s') (hc : s.control p = .readTape i stage)
    (he : ∀ input, e ≠ .run p input) : s'.control p = .readTape i stage := by
  have huser : ∀ {q}, s.InUser q → p ≠ q := by
    rintro q ⟨st, hq⟩ rfl
    cases hc.symm.trans hq
  rw [← hc]
  cases e with
  | access q st va op =>
    have hif := Option.ite_none_right_eq_some.mp h
    have hrefill : (s.refill q (accessHi q va)).control p = s.control p := by rw [refill_control]
    have hfault : ∀ cause, ((s.refill q (accessHi q va)).fault q st (accessHi q va) cause
        .user).control p = s.control p := fun cause =>
      (goto_control_of_ne _ _ _ (huser hif.1.1)).trans hrefill
    obtain rfl := Option.some.inj hif.2
    unfold access
    cases op with
    | load =>
      dsimp only
      split
      · exact hrefill
      · exact hfault _
    | store v =>
      dsimp only
      split
      · exact hrefill
      · exact hfault _
  | syscall q st =>
    have hif := Option.ite_none_right_eq_some.mp h
    obtain rfl := Option.some.inj hif.2
    exact goto_control_of_ne _ _ _ (huser hif.1.1)
  | trap q =>
    have hif := Option.ite_none_right_eq_some.mp h
    obtain rfl := Option.some.inj hif.2
    exact goto_control_of_ne _ _ _ (huser hif.1)
  | run q input =>
    have hqp : p ≠ q := fun hpq => he input (hpq ▸ rfl)
    have hrun := (Option.ite_none_left_eq_some.mp h).2
    by_cases hterm : s.control q = .terminate
    · unfold run at hrun
      simp only [hterm] at hrun
      obtain rfl := Option.some.inj hrun
      exact goto_control_of_ne _ _ _ hqp
    · by_cases hending : s.control q = .ending
      · rw [run_ending hending hrun]
        exact goto_control_of_ne _ _ _ hqp
      · obtain ⟨c, -, hcontrol⟩ := (run_goesOn hterm hending hrun).control
        rw [hcontrol, update_of_ne hqp]
  | disk =>
    obtain ⟨⟨disk, ram⟩, -, hs⟩ := Option.bind_eq_some_iff.mp h
    obtain rfl := Option.some.inj hs
    rfl
  | forget k =>
    obtain rfl := Option.some.inj h
    rfl

lemma refill_disk {hi : Word} : (s.refill p hi).disk = s.disk := by
  obtain ⟨tlb, hrefill, -⟩ := s.refill_eq p hi
  rw [hrefill]

lemma Moves.inTape (hm : s.Moves b e s') (h : (s'.control q).InTape) :
    (s.control q).InTape := by
  cases hm with
  | look hlook htlb | disk hd => exact h
  | @store p st va v frame hc hf =>
    dsimp only at h
    rwa [refill_control] at h
  | @fault e p st va cause back write hc hseg hf hfree =>
    have hq := inTape_goto (p := p) (s.refill p (accessHi p va)) (c := .tlb _ back .enter)
      False.elim q h
    rwa [refill_control] at hq
  | aside masterSema4 he hholds hio hio' hswap hc htape hservice hfree =>
    exact inTape_goto s htape q h
  | die hblocked hc | printStart hc hblocked | printEnd htlb hc hblocked
  | printNext htlb hc hblocked | enter hc hblocked hcode | found hc hblocked hseg hlo hvalid
  | take hc hblocked hmissing hframe hvacant | booted hc hblocked | bootEnd hc hbusy hblocked
  | loadEnd hc hbusy hblocked | installOther hc hblocked hseg
  | installTrap hc hblocked hseg hpage =>
    exact inTape_goto s False.elim q h
  | boot hc hblocked hmissing hframe hoccupied hpage | install hc hblocked hpage =>
    simp only [goto, Sys.passeren, Sys.verhogen, setPte_control] at h
    exact inTape_goto s False.elim q h
  | tapeStart hc hblocked | tapeEnd hc hbusy hblocked =>
    exact inTape_goto s (fun _ => by rw [hc]; trivial) q h
  | seek hc hstages hblocked | transfer hc hstages hbusy hblocked =>
    refine inTape_goto s (fun ht => ?_) q h
    rw [hc]
    cases hstages <;> exact ht

lemma readTape_of_step {w : Word} (hc : s.control p = .readTape i stage)
    (h : s.step b (.run p (some w)) = some s') : s.readTape b p i w stage = some s' := by
  have hrun := (Option.ite_none_left_eq_some.mp h).2
  unfold run at hrun
  rw [hc] at hrun
  exact hrun

lemma Moves.blocks_eq (hm : s.Moves b e s') (he : e ≠ .disk) :
    s'.disk.blocks = s.disk.blocks := by
  cases hm with
  | disk hd => exact absurd rfl he
  | @store p st va v frame hc hf | @fault e p st va cause back write hc hseg hf hfree =>
    exact congrArg Disk.blocks refill_disk
  | @boot p input old back frame u => cases u <;> rfl
  | @install p input old back frame u => cases u <;> rfl
  | _ => rfl

lemma Moves.busy_eq (hm : s.Moves b e s') (hd : s.DiskSafe b)
    (hp : s.ios b p = some (job, .release)) (hdisk : e ≠ .disk)
    (he : ∀ input, e ≠ .run p input) : s'.disk.busy = s.disk.busy := by
  have hown : ∀ {q input job' stage'}, s.ios b q = some (job', stage') → ¬ s.Blocked q →
      e = .run q input → False := by
    intro q input job' stage' hq hblocked heq
    have hqp := hd.eq_of_not_waiting (by simp [hq]) (not_waiting_disk hblocked) (by simp [hp])
      (hd.not_mem_waiters hp (by simp))
    exact he input (hqp ▸ heq)
  cases hm with
  | disk hd => exact absurd rfl hdisk
  | @store p st va v frame hc hf | @fault e p st va cause back write hc hseg hf hfree =>
    exact congrArg Disk.busy refill_disk
  | @boot p input old back frame u => cases u <;> rfl
  | @install p input old back frame u => cases u <;> rfl
  | seek hc hstages hblocked =>
    exact (hown ((ios_of_control hc).trans (hstages.io_eq _)) hblocked rfl).elim
  | transfer hc hstages hbusy hblocked =>
    exact (hown ((ios_of_control hc).trans (hstages.io_eq _)) hblocked rfl).elim
  | _ => rfl

lemma DiskSafe.tape_written (hd : s.DiskSafe b) (hc : s.control p = .readTape i (.io .release))
    (h : s.disk.complete s.ram = some (disk, ram)) : disk.busy = none ∧
      disk.blocks = update s.disk.blocks (pageBlock p i) (s.ram (getTapeBufferAddr p)) := by
  have hn := b.procCnt_le
  have hp := p.isLt
  have hio : s.ios b p = some (tapeJob (asidOf (entryHi p)) i, .release) := ios_of_control hc
  obtain ⟨harm, hdata, hbusy | hbusy⟩ :=
    hd.follows p _ _ hio (hd.not_mem_waiters hio (by simp))
  · obtain ⟨-, rfl⟩ := Disk.complete_write hbusy (opOf_add_shift _ _ _ (by decide)) h
    refine ⟨rfl, ?_⟩
    have hplace : s.disk.location (tapeJob (asidOf (entryHi p)) i).command = pageBlock p i := by
      unfold tapeJob at harm ⊢
      dsimp only at harm ⊢
      rw [asidOf_entryHi hn, Disk.location_eq (by decide) (by omega) (by omega) harm, if_pos rfl,
        pageBlock_eq]
      rfl
    rw [← getTapeBufferAddr_eq hn p i, ← hdata, ← hplace]
  · unfold Disk.complete at h
    rw [hbusy] at h
    cases h

lemma Shows.tape_kept (h : s.Shows b m) (hd : s.DiskSafe b) (ht : (s.control p).InTape)
    (hc : ∀ i, s.control p ≠ .readTape i (.io .release))
    (hcomplete : s.disk.complete s.ram = some (disk, ram)) (j : Fin maxKuseg) :
    disk.blocks (blockOf p j) = s.disk.blocks (blockOf p j) := by
  have hn := b.procCnt_le
  cases hbusy : s.disk.busy with
  | none =>
    unfold Disk.complete at hcomplete
    rw [hbusy] at hcomplete
    cases hcomplete
  | some command =>
    obtain ⟨q, job, ⟨hio, rfl⟩ | ⟨hio, rfl, harm, hdata⟩, hw⟩ := hd.exists_owner hbusy
    · obtain ⟨-, rfl⟩ := Disk.complete_seek hbusy (hd.sound q job _ hio).seek hcomplete
      rfl
    · have hjob : (s.control q).io b q = some (job, .release) := hio
      cases hq : s.control q with
      | readTape k stage =>
        rw [hq] at hjob
        cases stage with
        | io stage =>
          obtain ⟨rfl, rfl⟩ := Prod.mk.inj (Option.some.inj hjob)
          have hpq : p ≠ q := fun he => hc k (he ▸ hq)
          obtain ⟨-, rfl⟩ :=
            Disk.complete_write hbusy (opOf_add_shift _ _ _ (by decide)) hcomplete
          exact update_of_ne (location_tapeJob hn hpq harm).symm _ _
        | _ => cases hjob
      | tlb old back ts =>
        rw [hq] at hjob
        cases ts with
        | boot f victim stage =>
          obtain ⟨rfl, rfl⟩ := Prod.mk.inj (Option.some.inj hjob)
          obtain ⟨-, rfl⟩ :=
            Disk.complete_write hbusy (opOf_add_shift _ _ _ (by decide)) hcomplete
          obtain ⟨hvictim, u, hu, -⟩ := h.booting hq
          have hpage : victim.page n = some u := by rw [hvictim]; exact hu
          refine update_of_ne ?_ _ _
          cases u with
          | priv q' i' =>
            rw [location_bootJob hn hpage harm]
            apply blockOf_ne
            rintro ⟨rfl, rfl⟩
            exact h.tape ht _ _ hu
          | shared i' => exact (location_bootJob_shared hn hpage p).symm
        | load f stage =>
          obtain ⟨rfl, rfl⟩ := Prod.mk.inj (Option.some.inj hjob)
          obtain ⟨-, rfl⟩ := Disk.complete_read hbusy (opOf_add_shift _ _ _ (by decide)) hcomplete
          rfl
        | _ => cases hjob
      | _ =>
        rw [hq] at hjob
        cases hjob

end Sys

/-! ### How far a process has come -/

namespace TapeStage

/-- The number of blocks that have been read. -/
def blocksRead (i : Nat) : TapeStage → Nat
  | .read => i
  | _ => i + 1

/-- The number of blocks that are on the disk. -/
def blocksWritten (i : Nat) (busy : Option Word) : TapeStage → Nat
  | .next => i + 1
  | .io .release => if busy = none then i + 1 else i
  | _ => i

end TapeStage

/-- The pages of a process with the blocks `l` of its tape, and otherwise as in `d`. -/
def image (l : List Block) (d : Fin maxKuseg → Block) (j : Fin maxKuseg) : Block :=
  l[j.val]?.getD (d j)

/-- The process is in `readTape`, on a tape with the blocks `l`. -/
structure OnTape (l : List Block) (d : Fin maxKuseg → Block) (x : Station n) (p : Fin n) (i : Nat)
    (stage : TapeStage) : Prop where
  rest : (x.tape p).blocks = l.drop (stage.blocksRead i)
  data1 : stage ≠ .read → ((x.tape p).data1 = Sys.endOfBlock ↔ l.drop (i + 1) ≠ [])
  buffer : ∀ io, stage = .io io → l[i]? = some (x.sys.ram (getTapeBufferAddr p))
  disk : ∀ j : Fin maxKuseg, j.val < maxKuseg - 1 → x.sys.disk.blocks (blockOf p j) =
    image (l.take (stage.blocksWritten i x.sys.disk.busy)) d j

section image

variable {l : List Block} {d : Fin maxKuseg → Block} {i : Nat} {j : Fin maxKuseg} {x : Block}

lemma image_take_succ (hx : l[i]? = some x) :
    image (l.take (i + 1)) d j = if j.val = i then x else image (l.take i) d j := by
  unfold image
  rw [List.getElem?_take, List.getElem?_take]
  by_cases hj : j.val = i
  · rw [if_pos hj, if_pos (by omega), hj, hx]
    rfl
  · have hlt : j.val < i + 1 ↔ j.val < i := by omega
    simp only [hlt, if_neg hj]

end image

namespace OnTape

variable {b : Board n} {l : List Block} {d : Fin maxKuseg → Block} {x x' : Station n} {p : Fin n}
  {i : Nat} {stage : TapeStage}

lemma frame (h : OnTape l d x p i stage) (htape : x'.tape p = x.tape p)
    (hram : x'.sys.ram (getTapeBufferAddr p) = x.sys.ram (getTapeBufferAddr p))
    (hblocks : ∀ j, x'.sys.disk.blocks (blockOf p j) = x.sys.disk.blocks (blockOf p j))
    (hbusy : stage = .io .release → x'.sys.disk.busy = x.sys.disk.busy) :
    OnTape l d x' p i stage := by
  refine ⟨by rw [htape]; exact h.rest, by rw [htape]; exact h.data1, by rw [hram]; exact h.buffer,
    fun j hj => ?_⟩
  have hwritten : stage.blocksWritten i x'.sys.disk.busy =
      stage.blocksWritten i x.sys.disk.busy := by
    cases stage with
    | io io =>
      cases io with
      | release => rw [hbusy rfl]
      | _ => rfl
    | _ => rfl
  rw [hblocks, hwritten]
  exact h.disk j hj

end OnTape

/-! ### The invariants of the support level -/

/-- What is known of the support level while its processes access their private pages. -/
structure Sys.Orderly (b : Board n) (m : Flat n) (s : Sys n) : Prop where
  safe : s.DiskSafe b
  confined : s.Confined b
  paged : s.Paged b
  shows : s.Shows b m

lemma Sys.Shows.of_frames {b : Board n} {m : Flat n} {s s' : Sys n} (h : s.Shows b m)
    (hp : s.Paged b) (hcontrol : s'.control = s.control)
    (hpool : s'.frameSwapPool = s.frameSwapPool) (hplace : s'.place = s.place)
    (hdisk : s'.disk = s.disk)
    (hram : ∀ f, s'.ram (b.getFrameAddr f) = s.ram (b.getFrameAddr f)) : s'.Shows b m := by
  have hresident : s'.resident = s.resident := by
    unfold Sys.resident
    rw [hpool]
  have hsaving : ∀ {q f u}, s'.Saving q f u → s.Saving q f u := by
    intro q f u hs
    unfold Sys.Saving at hs ⊢
    rwa [hcontrol, hdisk] at hs
  have hsaving' : ∀ {q f u}, s.Saving q f u → s'.Saving q f u := by
    intro q f u hs
    unfold Sys.Saving at hs ⊢
    rwa [hcontrol, hdisk]
  refine ⟨fun hc => ?_, fun ht => ?_, fun ha => ?_, fun hs => ?_, fun ha hs => ?_, fun hl => ?_⟩
  · rw [hcontrol] at hc
    rw [hpool, hresident, hplace]
    exact h.booting hc
  · rw [hcontrol] at ht
    rw [hresident]
    exact h.tape ht
  · rw [hplace] at ha
    obtain ⟨f, -, -, rfl⟩ := (hp.pool.mirrors _ _).mp ha
    exact (hram f).trans (h.resident ha)
  · exact (hram _).trans (h.saving (hsaving hs))
  · rw [hplace] at ha
    rw [hdisk]
    exact h.stored ha fun q f hs' => hs q f (hsaving' hs')
  · unfold Sys.Loaded at hl
    rw [hcontrol, hdisk] at hl
    exact (hram _).trans (h.loaded hl)

namespace Sys.Orderly

variable {b : Board n} {m : Flat n} {s s' : Sys n} {e : Event n}

lemma fresh (h0 : s.Fresh) (hm : s.Shows b m) : s.Orderly b m :=
  ⟨fresh_diskSafe h0, fresh_confined b h0, fresh_paged h0, hm⟩

lemma moves (h : s.Orderly b m) (hm : s.Moves b e s') (hagrees : s.Agrees e) :
    s'.Orderly b (m.after b (s, e, s')) :=
  ⟨hm.diskSafe h.safe, hm.confined h.confined, hm.paged hagrees h.paged,
    hm.shows h.safe h.paged h.shows⟩

lemma fill (h : s.Orderly b m) {a : Word} (ha : ∀ f, a ≠ b.getFrameAddr f) (x : Block) :
    ({ s with ram := update s.ram a x } : Sys n).Orderly b m := by
  have htlb : ∀ x ∈ s.tlb, x ∈ s.tlb ∨ ∃ u, x = s.pte u := fun x hx => .inl hx
  refine ⟨h.safe, h.confined.same rfl rfl htlb, ⟨h.paged.tables.of_eq rfl htlb, h.paged.pool⟩, ?_⟩
  exact h.shows.of_frames h.paged rfl rfl rfl rfl fun f => update_of_ne (ha f).symm _ _

end Sys.Orderly

/-! ### One step -/

namespace Station

variable {b : Board n} {x x' y : Station n} {e : Event n} {p : Fin n} {i : Nat}
  {stage : TapeStage} {input : Option Word} {m : Flat n} {l : List Block}
  {d : Fin maxKuseg → Block}

lemma step_cases (h : x.step b e = some x') : ∃ y, x.deliver e = some y ∧
    y.sys.step b (x.learns e) = some x'.sys ∧ x'.tape = y.tape := by
  obtain ⟨y, hy, h⟩ := Option.bind_eq_some_iff.mp h
  obtain ⟨s, hs, h⟩ := Option.bind_eq_some_iff.mp h
  obtain rfl := Option.some.inj h
  exact ⟨y, hy, hs, rfl⟩

/-- At most a buffer is filled. -/
lemma deliver_cases (h : x.deliver e = some y) : y = x ∨ ∃ q input block t, e = .run q input ∧
    (x.tape q).readBlk = some (block, t) ∧
      y = ⟨{ x.sys with ram := update x.sys.ram (getTapeBufferAddr q) block },
        update x.tape q t⟩ := by
  unfold deliver at h
  split at h
  · rename_i q input
    split at h
    · obtain ⟨⟨block, t⟩, hread, h⟩ := Option.bind_eq_some_iff.mp h
      exact .inr ⟨q, input, block, t, rfl, hread, (Option.some.inj h).symm⟩
    · exact .inl (Option.some.inj h).symm
  · exact .inl (Option.some.inj h).symm

lemma deliver_frame (hn : n ≤ 63) (h : x.deliver e = some y) (he : ∀ input, e ≠ .run p input) :
    y.tape p = x.tape p ∧
      y.sys.ram (getTapeBufferAddr p) = x.sys.ram (getTapeBufferAddr p) := by
  rcases deliver_cases h with rfl | ⟨q, input, block, t, rfl, -, rfl⟩
  · exact ⟨rfl, rfl⟩
  · have hpq : p ≠ q := fun hpq => he input (hpq ▸ rfl)
    have hne : getTapeBufferAddr p ≠ getTapeBufferAddr q := mt (getTapeBufferAddr_inj hn) hpq
    refine ⟨update_of_ne hpq _ _, ?_⟩
    dsimp only
    rw [update_of_ne hne]

lemma deliver_orderly (hb : b.HoldsBuffers) (h : x.deliver e = some y)
    (ho : x.sys.Orderly b m) :
    y.sys.Orderly b m ∧ y.sys.control = x.sys.control ∧ y.sys.disk = x.sys.disk := by
  rcases deliver_cases h with rfl | ⟨q, input, block, t, rfl, -, rfl⟩
  · exact ⟨ho, rfl, rfl⟩
  · exact ⟨ho.fill (hb.ne_frame q) block, rfl, rfl⟩

lemma learns_ne_run (he : ∀ input, e ≠ .run p input) (input : Option Word) :
    x.learns e ≠ .run p input := by
  unfold learns
  split
  · rename_i q input'
    have hqp : q ≠ p := fun hqp => he input' (hqp ▸ rfl)
    split <;> simp [hqp]
  · exact he input

lemma learns_eq_disk : x.learns e = .disk ↔ e = .disk := by
  unfold learns
  split
  · split <;> simp
  · rfl

end Station

namespace OnTape

variable {b : Board n} {l : List Block} {d : Fin maxKuseg → Block} {x x' : Station n} {p : Fin n}
  {i : Nat} {stage : TapeStage} {e : Event n} {input : Option Word} {m : Flat n}

lemma other (h : OnTape l d x p i stage) (hb : b.HoldsBuffers) (ho : x.sys.Orderly b m)
    (hc : x.sys.control p = .readTape i stage) (he : ∀ input, e ≠ .run p input)
    (hs : x.step b e = some x') :
    x'.sys.control p = .readTape i stage ∧ OnTape l d x' p i stage := by
  have hn := b.procCnt_le
  obtain ⟨y, hy, hstep, htape⟩ := Station.step_cases hs
  obtain ⟨hytape, hyram⟩ := Station.deliver_frame hn hy he
  obtain ⟨hyo, hycontrol, hydisk⟩ := Station.deliver_orderly hb hy ho
  have hyc : y.sys.control p = .readTape i stage := by rw [hycontrol, hc]
  have hle := Station.learns_ne_run (x := x) he
  have hm := Sys.step_moves hstep
  have hram : x'.sys.ram (getTapeBufferAddr p) = x.sys.ram (getTapeBufferAddr p) :=
    (hm.ram_eq hyo.confined hyo.safe (hb.ne_frame p)).trans hyram
  refine ⟨Sys.step_readTape_of_ne hstep hyc hle, ?_⟩
  by_cases hdisk : e = .disk
  · subst hdisk
    obtain ⟨⟨disk, ram⟩, hcomplete, hx'⟩ := Option.bind_eq_some_iff.mp hstep
    have hxdisk : x'.sys.disk = disk := (congrArg Sys.disk (Option.some.inj hx')).symm
    by_cases hrelease : stage = .io .release
    · subst hrelease
      obtain ⟨hidle, hblocks⟩ := hyo.safe.tape_written hyc hcomplete
      have hbusy : x.sys.disk.busy ≠ none := by
        intro hnone
        rw [← hydisk] at hnone
        unfold Disk.complete at hcomplete
        rw [hnone] at hcomplete
        cases hcomplete
      have hbuffer := h.buffer .release rfl
      refine ⟨by rw [htape, hytape]; exact h.rest, by rw [htape, hytape]; exact h.data1,
        by rw [hram]; exact h.buffer, fun j hj => ?_⟩
      have hold := h.disk j hj
      unfold TapeStage.blocksWritten at hold ⊢
      rw [if_neg hbusy] at hold
      rw [hxdisk, if_pos hidle, image_take_succ hbuffer, hblocks, hydisk, hyram, pageBlock_eq]
      have hplace : blockOf p j = ⟨min i 31, 0, p⟩ ↔ j.val = i := by
        unfold blockOf maxKuseg at *
        rw [Location.mk.injEq]
        omega
      by_cases hji : j.val = i
      · rw [hplace.mpr hji, update_self, if_pos hji]
      · rw [update_of_ne (mt hplace.mp hji), if_neg hji, hold]
    · refine h.frame (by rw [htape, hytape]) hram (fun j => ?_) fun hr => absurd hr hrelease
      rw [hxdisk, ← hydisk]
      refine hyo.shows.tape_kept hyo.safe (by rw [hyc]; trivial) (fun k hk => hrelease ?_)
        hcomplete j
      exact (Control.readTape.inj (hyc.symm.trans hk)).2
  · have hdisk' := mt (Station.learns_eq_disk (x := x)).mp hdisk
    refine h.frame (by rw [htape, hytape]) hram (fun j => ?_) fun hr => ?_
    · rw [hm.blocks_eq hdisk', hydisk]
    · subst hr
      rw [hm.busy_eq hyo.safe (Sys.ios_of_control hyc) hdisk' hle, hydisk]

/-- The process is on its tape, or at the end of `readTape` with all its blocks on the disk. -/
def Advances (b : Board n) (l : List Block) (d : Fin maxKuseg → Block) (p : Fin n)
    (disk : Location → Block) (x : Station n) : Prop :=
  (∃ i stage, x.sys.control p = .readTape i stage ∧ OnTape l d x p i stage) ∨
    x.sys.control p = .ldst b.junk ∧
      ∀ j : Fin maxKuseg, j.val < maxKuseg - 1 → disk (blockOf p j) = image l d j

lemma own_read (h : OnTape l d x p i .read) (hc : x.sys.control p = .readTape i .read)
    (hs : x.step b (.run p input) = some x') :
    x'.sys.control p = .readTape i (.io .seek) ∧ OnTape l d x' p i (.io .seek) := by
  obtain ⟨y, hy, hstep, htape⟩ := Station.step_cases hs
  unfold Station.deliver at hy
  unfold Station.learns at hstep
  simp only [hc] at hy hstep
  obtain ⟨⟨block, t⟩, hblock, hy⟩ := Option.bind_eq_some_iff.mp hy
  obtain rfl := Option.some.inj hy
  have hrest := h.rest
  cases hl : l.drop i with
  | nil =>
    have hnil : (x.tape p).blocks = [] := hrest.trans hl
    unfold Tape.readBlk at hblock
    rw [hnil] at hblock
    cases hblock
  | cons first rest =>
    obtain ⟨t', hread, hblocks, hdata1⟩ := Tape.readBlk_cons (hrest.trans hl)
    obtain ⟨rfl, rfl⟩ := Prod.mk.inj (Option.some.inj (hread.symm.trans hblock))
    have hx' := Sys.readTape_of_step (s := { x.sys with
      ram := update x.sys.ram (getTapeBufferAddr p) first }) hc hstep
    unfold Sys.readTape at hx'
    rw [if_pos rfl] at hx'
    have hsucc : l.drop (i + 1) = rest := by
      rw [← List.drop_drop, hl]
      rfl
    have hfirst : l[i]? = some first := by
      have h0 := congrArg (fun l => l[0]?) hl
      simpa using h0
    have htp : x'.tape p = t' := by
      rw [htape]
      exact update_self _ _ _
    refine ⟨?_, ?_, fun _ => by rw [htp, hdata1, hsucc], fun _ _ => ?_, ?_⟩
    · rw [← Option.some.inj hx', Sys.goto_control_self]
    · rw [htp, hblocks]
      exact hsucc.symm
    · rw [← Option.some.inj hx', hfirst]
      simp [Sys.goto, Sys.passeren]
    · rw [← Option.some.inj hx']
      exact h.disk

lemma own_io {io : IoStage} (h : OnTape l d x p i (.io io))
    (hc : x.sys.control p = .readTape i (.io io)) (hs : x.step b (.run p input) = some x') :
    ∃ stage, x'.sys.control p = .readTape i stage ∧ OnTape l d x' p i stage := by
  obtain ⟨y, hy, hstep, htape⟩ := Station.step_cases hs
  unfold Station.deliver at hy
  unfold Station.learns at hstep
  simp only [hc] at hy hstep
  obtain rfl := Option.some.inj hy
  cases input with
  | none => exact absurd hstep (by simp [Sys.step, Sys.run, hc])
  | some w =>
    have hx' := Sys.readTape_of_step hc hstep
    unfold Sys.readTape at hx'
    have hmove : ∀ stage', stage' ≠ .read → x'.sys.control p = .readTape i stage' →
        x'.sys.ram = x.sys.ram → x'.sys.disk.blocks = x.sys.disk.blocks →
        stage'.blocksWritten i x'.sys.disk.busy = (TapeStage.io io).blocksWritten i
          x.sys.disk.busy →
        ∃ stage, x'.sys.control p = .readTape i stage ∧ OnTape l d x' p i stage := by
      intro stage' hne hcontrol hram hblocks hwritten
      refine ⟨stage', hcontrol, ?_, fun _ => ?_, fun _ _ => ?_, ?_⟩
      · rw [htape, h.rest]
        cases stage' with
        | read => exact absurd rfl hne
        | _ => rfl
      · rw [htape]
        exact h.data1 (by simp)
      · rw [hram]
        exact h.buffer io rfl
      · rw [hwritten, hblocks]
        exact h.disk
    cases io with
    | seek =>
      have hgive := Option.some.inj hx'
      refine hmove (.io .transfer) (by simp) ?_ ?_ ?_ rfl
      all_goals rw [← hgive]
      · exact Sys.goto_control_self _ _ _
      · rfl
      · rfl
    | transfer =>
      unfold Sys.ioStep at hx'
      obtain ⟨hidle, hx'⟩ := Option.ite_none_right_eq_some.mp hx'
      have hgive := Option.some.inj hx'
      refine hmove (.io .release) (by simp) ?_ ?_ ?_ ?_
      all_goals rw [← hgive]
      · exact Sys.goto_control_self _ _ _
      · rfl
      · rfl
      · rfl
    | release =>
      unfold Sys.ioStep at hx'
      obtain ⟨hidle, hx'⟩ := Option.ite_none_right_eq_some.mp hx'
      have hdone := Option.some.inj hx'
      refine hmove .next (by simp) ?_ ?_ ?_ ?_
      all_goals rw [← hdone]
      · exact Sys.goto_control_self _ _ _
      · rfl
      · rfl
      · unfold TapeStage.blocksWritten
        rw [if_pos hidle]

lemma own_next (h : OnTape l d x p i .next) (hc : x.sys.control p = .readTape i .next)
    (hs : x.step b (.run p input) = some x') : Advances b l d p x.sys.disk.blocks x' := by
  obtain ⟨y, hy, hstep, htape⟩ := Station.step_cases hs
  unfold Station.deliver at hy
  unfold Station.learns at hstep
  simp only [hc] at hy hstep
  obtain rfl := Option.some.inj hy
  have hx' := Sys.readTape_of_step hc hstep
  unfold Sys.readTape at hx'
  dsimp only at hx'
  split_ifs at hx' with hmore
  · have hgoes := Option.some.inj hx'
    refine .inl ⟨i + 1, .read, ?_, ?_⟩
    · rw [← hgoes, Sys.goto_control_self]
    · refine ⟨by rw [htape]; exact h.rest, fun hne => absurd rfl hne, fun _ hio => ?_, ?_⟩
      · cases hio
      · rw [← hgoes]
        exact h.disk
  · have hends := Option.some.inj hx'
    have hnil : l.drop (i + 1) = [] := by
      by_contra hne
      exact hmore ((h.data1 (by simp)).mpr hne)
    refine .inr ⟨?_, fun j hj => ?_⟩
    · rw [← hends, Sys.goto_control_self]
    · have hall : l.take (i + 1) = l := List.take_of_length_le (List.drop_eq_nil_iff.mp hnil)
      have hdisk := h.disk j hj
      unfold TapeStage.blocksWritten at hdisk
      rwa [hall] at hdisk

lemma own (h : OnTape l d x p i stage) (hc : x.sys.control p = .readTape i stage)
    (hs : x.step b (.run p input) = some x') : Advances b l d p x.sys.disk.blocks x' := by
  cases stage with
  | read => exact .inl ⟨i, .io .seek, h.own_read hc hs⟩
  | io io => exact .inl ⟨i, h.own_io hc hs⟩
  | next => exact h.own_next hc hs

end OnTape

end Kaya.Support
