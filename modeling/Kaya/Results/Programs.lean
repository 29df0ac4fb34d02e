import Kaya.Results.FlatMemory
import Kaya.Results.ProgramImage
import Kaya.Support.Tapes

/-!
# From the tape into memory

What a user process finds in its private pages is what stands on its tape, but for its own
stores: through the tape buffers, the disk, the page tables and the swap pool, while all the
others do the same.
-/

namespace Kaya.Support

open Function Linked

variable {n : Nat}

namespace Flat

/-- What a store makes of the arrays. -/
def put (b : Board n) (m : Flat n) : Station n × Event n × Station n → Flat n
  | (x, .access q _ va (.store v), _) =>
    match x.sys.translate b q (Sys.accessHi q va) true with
    | .ok _ => m.store q va v
    | .error _ => m
  | _ => m

/-- The tapes after the disk as it was at first, and then the stores in `h`. -/
def ofTapes (b : Board n) (x₀ : Station n) (h : List (Station n × Event n × Station n)) : Flat n :=
  h.foldl (put b) fun p => image (x₀.tape p).blocks fun j => x₀.sys.disk.blocks (blockOf p j)

end Flat

variable {b : Board n} {s s' : Sys n} {e : Event n} {x x' x₀ y : Station n} {p q : Fin n}
  {m img : Flat n} {j : Fin maxKuseg}

/-- What holds of a station in a run from the blocks `l` of the tapes and the contents `d` of the
disk: `img` is what the processes find. -/
structure Station.Shows (b : Board n) (l : Fin n → List Block) (d img : Flat n) (x : Station n) :
    Prop where
  finds : ∃ m, x.sys.Orderly b m ∧ ∀ p, ¬ (x.sys.control p).InTape →
    ∀ j : Fin maxKuseg, j.val < maxKuseg - 1 → m p j = img p j
  tape : ∀ p i stage, x.sys.control p = .readTape i stage →
    OnTape (l p) (d p) x p i stage ∧ img p = image (l p) (d p)

lemma Station.learns_run (x : Station n) (p : Fin n) (input : Option Word) :
    ∃ input', x.learns (.run p input) = .run p input' := by
  unfold Station.learns
  dsimp only
  split <;> exact ⟨_, rfl⟩

/-- Neither the tape nor what is learnt from it is part of a re-check. -/
lemma Station.agrees_learns (hy : x.deliver e = some y) (h : x.sys.Agrees e) :
    y.sys.Agrees (x.learns e) := by
  have hcontrol : y.sys.control = x.sys.control ∧ y.sys.kuseg3PT = x.sys.kuseg3PT := by
    rcases deliver_cases hy with rfl | ⟨q, input, block, t, rfl, -, rfl⟩ <;> exact ⟨rfl, rfl⟩
  have hchecks : ∀ q, y.sys.checks q = x.sys.checks q := by
    intro q
    unfold Sys.checks
    rw [hcontrol.1]
  have hsame : y.sys.Agrees e := by
    unfold Sys.Agrees at h ⊢
    simp only [hchecks, hcontrol.2]
    exact h
  cases e with
  | run q input =>
    unfold learns
    dsimp only
    split
    · rename_i hc
      exact fun _ i hi => by simp [Sys.checks, hcontrol.1, hc] at hi
    · rename_i hc
      exact fun _ i hi => by simp [Sys.checks, hcontrol.1, hc] at hi
    · exact hsame
  | _ => exact hsame

lemma Control.inTape_iff {c : Control} : c.InTape ↔ ∃ i stage, c = .readTape i stage := by
  cases c <;> simp [Control.InTape]

lemma lt_maxKuseg {page : Nat} (h : page < maxKuseg - 1) : page < maxKuseg := by omega

lemma Sys.Paged.place_of_read {va : Addr} {frame : Word} {write : Bool} (h : s.Paged b)
    (hseg : segmentOf va = kuseg2) (hpage : pageOf va < maxKuseg - 1)
    (hread : s.translate b p (Sys.accessHi p va) write = .ok frame) :
    s.place (.priv p ⟨pageOf va, lt_maxKuseg hpage⟩) = some frame := by
  obtain ⟨u, hu, hmatches⟩ := Sys.translate_ok h.tables.cached hread
  obtain ⟨hnumber, hown⟩ := number_of_matches b.procCnt_le (h.tables.built u) hmatches
  have hpriv : (UPage.priv p ⟨pageOf va, lt_maxKuseg hpage⟩).number = u.number := by
    have h2 : va.toNat / 2 ^ 30 = 2 := (segmentOf_eq va).symm.trans hseg
    have hcases := number_priv p ⟨pageOf va, lt_maxKuseg hpage⟩
    have hval : (⟨pageOf va, lt_maxKuseg hpage⟩ : Fin maxKuseg).val = va.toNat / 2 ^ 12 % 2 ^ 18 :=
      pageOf_eq va
    have hlt : (⟨pageOf va, lt_maxKuseg hpage⟩ : Fin maxKuseg).val < 31 := hpage
    omega
  rw [Sys.eq_of_number hpriv hown] at hu
  exact hu

lemma Flat.put_of_inTape (ht : (x.sys.control p).InTape) (hs : x.step b e = some x') :
    img.put b (x, e, x') p = img p := by
  cases e with
  | access q st va op =>
    obtain ⟨y, hy, hstep, -⟩ := Station.step_cases hs
    obtain rfl := Option.some.inj hy
    obtain ⟨st', hq⟩ := (Option.ite_none_right_eq_some.mp hstep).1.1
    have hpq : p ≠ q := by
      rintro rfl
      rw [hq] at ht
      exact ht
    cases op with
    | load => rfl
    | store v =>
      unfold Flat.put
      dsimp only
      cases x.sys.translate b q (Sys.accessHi q va) true with
      | ok frame =>
        funext i
        exact if_neg fun hand => hpq hand.1
      | error cause => rfl
  | _ => rfl

/-- Outside `readTape` the arrays change by stores only. -/
lemma Flat.after_eq_put (hy : x.deliver e = some y) (hp : ¬ (s'.control p).InTape)
    (heq : m p j = img p j) : m.after b (y.sys, x.learns e, s') p j = img.put b (x, e, x') p j := by
  unfold Flat.after
  dsimp only
  rw [if_neg hp]
  cases e with
  | access q st va op =>
    obtain rfl := Option.some.inj hy
    cases op with
    | load => exact heq
    | store v =>
      unfold Flat.put Station.learns
      dsimp only
      cases x.sys.translate b q (Sys.accessHi q va) true with
      | ok frame =>
        unfold Flat.store
        dsimp only
        rw [heq]
      | error cause => exact heq
  | run q input =>
    obtain ⟨input', hrun⟩ := Station.learns_run x q input
    rw [hrun]
    exact heq
  | _ => exact heq

namespace Station.Shows

variable {l : Fin n → List Block} {d : Flat n}

lemma fresh (b : Board n) (h0 : x.sys.Fresh) (hl : ∀ p, (x.tape p).blocks = l p)
    (hd : ∀ p j, x.sys.disk.blocks (blockOf p j) = d p j) :
    x.Shows b l d fun p => image (l p) (d p) := by
  refine ⟨⟨_, .fresh h0 (Sys.fresh_shows h0), fun p hp => ?_⟩,
    fun p i stage hc => ⟨?_, rfl⟩⟩
  · rw [h0.control] at hp
    exact absurd trivial hp
  · rw [h0.control] at hc
    obtain ⟨rfl, rfl⟩ := Control.readTape.inj hc
    exact ⟨hl p, fun hne => absurd rfl hne, fun _ hio => (by cases hio), fun j _ => hd p j⟩

lemma step (h : x.Shows b l d img) (hb : b.HoldsBuffers) (he : x.sys.Agrees e)
    (hs : x.step b e = some x') : x'.Shows b l d (img.put b (x, e, x')) := by
  obtain ⟨⟨m, ho, hfinds⟩, htape⟩ := h
  obtain ⟨y, hy, hstep, -⟩ := step_cases hs
  obtain ⟨hyo, hycontrol, hydisk⟩ := deliver_orderly hb hy ho
  have hm := Sys.step_moves hstep
  have hback : ∀ p, (x'.sys.control p).InTape → (x.sys.control p).InTape := fun p hp =>
    hycontrol ▸ hm.inTape hp
  have hgoes : ∀ p i stage, x.sys.control p = .readTape i stage →
      OnTape.Advances b (l p) (d p) p x.sys.disk.blocks x' := by
    intro p i stage hc
    obtain ⟨hon, -⟩ := htape p i stage hc
    by_cases hrun : ∃ input, e = .run p input
    · obtain ⟨input, rfl⟩ := hrun
      exact hon.own hc hs
    · exact .inl ⟨i, stage, hon.other hb ho hc (fun input hei => hrun ⟨input, hei⟩) hs⟩
  refine ⟨⟨_, hyo.moves hm (agrees_learns hy he), ?_⟩, ?_⟩
  · intro p hp j hj
    apply Flat.after_eq_put hy hp
    by_cases ht : (x.sys.control p).InTape
    · obtain ⟨i, stage, hc⟩ := Control.inTape_iff.mp ht
      rcases hgoes p i stage hc with ⟨i', stage', hc', -⟩ | ⟨-, hall⟩
      · rw [hc'] at hp
        exact absurd trivial hp
      · have hyt : (y.sys.control p).InTape := hycontrol ▸ ht
        rw [← hyo.shows.tape_eq hyo.paged hyt, hydisk, hall j hj, (htape p i stage hc).2]
    · exact hfinds p ht j hj
  · intro p i' stage' hc'
    have ht := hback p (by rw [hc']; trivial)
    obtain ⟨i, stage, hc⟩ := Control.inTape_iff.mp ht
    rw [Flat.put_of_inTape ht hs]
    rcases hgoes p i stage hc with ⟨i₁, stage₁, hc₁, hon⟩ | ⟨hend, -⟩
    · obtain ⟨rfl, rfl⟩ := Control.readTape.inj (hc'.symm.trans hc₁)
      exact ⟨hon, (htape p i stage hc).2⟩
    · cases hc'.symm.trans hend

lemma run {h : List (Station n × Event n × Station n)} (hb : b.HoldsBuffers)
    (h0 : x₀.sys.Fresh) (hr : Run (Station.step b) (fun x e => x.sys.Agrees e) x₀ h x) :
    x.Shows b (fun p => (x₀.tape p).blocks) (fun p j => x₀.sys.disk.blocks (blockOf p j))
      (Flat.ofTapes b x₀ h) := by
  induction hr with
  | nil => exact fresh b h0 (fun _ => rfl) fun _ _ => rfl
  | snoc _ he hs ih =>
    have hstep := ih.step hb he hs
    unfold Flat.ofTapes at hstep ⊢
    rwa [List.foldl_append]

end Station.Shows

/-- Whatever the order in which the processes read their tapes and run, as long as the re-checks of
shared pages find what the page table says, what one of them reads in a private page is what it
has last stored there, or what stands on its tape. -/
theorem programs_run_from_tapes {h : List (Station n × Event n × Station n)} (hb : b.HoldsBuffers)
    (h0 : x₀.sys.Fresh) (hr : Run (Station.step b) (fun x e => x.sys.Agrees e) x₀ h x) {va : Addr}
    {frame : Word} (hseg : segmentOf va = kuseg2) (hpage : pageOf va < maxKuseg - 1)
    (hread : x.sys.translate b p (Sys.accessHi p va) false = .ok frame) :
    x.sys.ram frame (wordOf va) =
      Flat.ofTapes b x₀ h p ⟨pageOf va, lt_maxKuseg hpage⟩ (wordOf va) := by
  obtain ⟨⟨m, ho, hfinds⟩, -⟩ := Station.Shows.run hb h0 hr
  have hplace := ho.paged.place_of_read hseg hpage hread
  rw [ho.shows.resident hplace, hfinds p (Sys.not_inTape_of_place ho.shows ho.paged hplace) _ hpage]

/-- One block of the tape of `p`, from the buffer onto the disk. -/
def copying (p : Fin n) : List (Event n) :=
  [.run p none, .run p (some 0), .disk, .run p (some 0), .disk, .run p (some 0), .run p none]

/-- SYS17 -/
def clockCall : State := ⟨0, 0, 0, 0, fun r => if r = 3 then getTodNum else 0⟩

/-- The first process stores a word in a shared page and reads the clock, and then finds the second
block of its tape in its second page. The other one still reads its tape. -/
theorem programs_run_from_tapes_second : ∃ h x, Run (Station.step twoProcesses)
    (fun x e => x.sys.Agrees e) ⟨Sys.blank 2, fun _ => .numbered 2⟩ h x ∧
      x.sys.translate twoProcesses 0 (Sys.accessHi (0 : Fin 2) 0x80001000) false =
        .ok 0x200F9000 ∧
      x.sys.ram 0x200F9000 0 = 1 ∧ (x.sys.control 1).InTape ∧
      Flat.ofTapes twoProcesses ⟨Sys.blank 2, fun _ => .numbered 2⟩ h 0 1 0 = 1 := by
  obtain ⟨h, x, hr, hq⟩ := exists_run (Station.step twoProcesses) (fun x e => x.sys.Agrees e)
    ⟨Sys.blank 2, fun _ => .numbered 2⟩
    (copying 0 ++ copying 1 ++ copying 0 ++ [.run 0 none] ++ reading 0 0xC0000000 false ++
      [.access 0 ⟨0, 0, 0, 0, fun _ => 0⟩ 0xC0000000 (.store 7), .syscall 0 clockCall,
        .run 0 (some 0), .run 0 none] ++ reading 0 0x80001000 false)
    (fun _ x => x.sys.translate twoProcesses 0 (Sys.accessHi (0 : Fin 2) 0x80001000) false =
      .ok 0x200F9000 ∧ x.sys.ram 0x200F9000 0 = 1 ∧ (x.sys.control 1).InTape) (by decide +kernel)
  obtain ⟨hread, hram, htape⟩ := of_decide_eq_true hq
  have hfound := programs_run_from_tapes (by decide) Sys.fresh_blank hr (by decide) (by decide)
    hread
  exact ⟨h, x, hr, hread, hram, htape, hfound.symm.trans hram⟩

end Kaya.Support
