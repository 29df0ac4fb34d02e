import Kaya.Support.Loading

/-!
# The program image

`readTape` puts each block of the tape where the pager looks for the page, but the pages from 31
on have one block of the disk together.
-/

namespace Kaya.Support

open Function Linked

variable {n : ℕ} {b : Board n} {s : Sys n} {p : Fin n} {i : ℕ} {t : Tape} {x : Block}
  {l : List Block}

lemma Sys.Reads.exists_next {t' : Tape} (h : s.Reads p i .read 1)
    (hidle : s.disk.busy = none) (hblock : t.readBlk = some (x, t')) :
    ∃ s' : Sys n, s'.Reads p i .next 1 ∧ s'.disk.busy = none ∧
      s'.disk.blocks = update s.disk.blocks (pageBlock p i) x ∧
      ∀ u, Loader.Loads b p ⟨s, t⟩ u ↔ Loader.Loads b p ⟨s', t'⟩ u := by
  have hn := b.procCnt_le
  have hp := p.isLt
  obtain ⟨disk, ram, hperform⟩ := s.disk.exists_perform (update s.ram (getTapeBufferAddr p) x)
    (tapeJob (asidOf (entryHi p)) i)
  have hsought : opOf (tapeJob (asidOf (entryHi p)) i).seek = seekCyl := opOf_seekCommand i
  have hwrite : opOf (tapeJob (asidOf (entryHi p)) i).command = writeBlk := by
    rw [asidOf_entryHi hn]
    exact opOf_blockCommand (by decide) (by omega) (by omega)
  obtain ⟨-, hblocks⟩ := Disk.perform_write hsought hwrite hperform
  have hfilled :
      ({ s with ram := update s.ram (getTapeBufferAddr p) x } : Sys n).Reads p i .read 1 :=
    h.frame h.control rfl
  have hseek := hfilled.passeren (.io .seek)
  have hwritten : ({ ({ s with
      ram := update s.ram (getTapeBufferAddr p) x }.passeren Support.diskMutex p).goto p
        (.readTape i (.io .seek)) with disk, ram } : Sys n).Reads p i (.io .seek) 0 :=
    hseek.frame hseek.control rfl
  refine ⟨_, hwritten.verhogen .next, Disk.perform_idle hperform, ?_, ?_⟩
  · rw [tapeJob_location hn, getTapeBufferAddr_eq hn, update_self] at hblocks
    exact hblocks
  · intro u
    rw [h.loads_block hidle hblock, hseek.loads_io hidle hperform]

/-- `readTape` gets to its end, with the blocks of the tape written one after the other. -/
lemma Sys.Reads.exists_loads (h : s.Reads p i .read 1) (hidle : s.disk.busy = none)
    (hblocks : t.blocks = l) (hne : l ≠ []) :
    ∃ u, Loader.Loads b p ⟨s, t⟩ u ∧ u.sys.control p = .ldst b.junk ∧
      u.sys.disk.blocks = stores (pageBlock p) i l s.disk.blocks := by
  induction l generalizing s t i with
  | nil => exact absurd rfl hne
  | cons x l ih =>
    obtain ⟨t', hread, hrest, hdata1⟩ := Tape.readBlk_cons hblocks
    obtain ⟨s', hnext, hidle', hstored, hloads⟩ := h.exists_next (b := b) hidle hread
    by_cases hl : l = []
    · have hend : t'.data1 ≠ Sys.endOfBlock := fun he => hdata1.mp he hl
      have hrun : s'.readTape b p i t'.data1 .next = some (s'.goto p (.ldst b.junk)) := if_neg hend
      have hstop : ¬ ((s'.goto p (.ldst b.junk)).control p).InTape := by
        rw [Sys.goto_control_self]
        exact not_false
      refine ⟨⟨s'.goto p (.ldst b.junk), t'⟩, ?_, Sys.goto_control_self _ _ _, ?_⟩
      · rw [hloads, hnext.loads_run (by simp) hidle' hrun]
        exact .stop hstop
      · rw [hl]
        exact hstored
    · have hrun : s'.readTape b p i t'.data1 .next = some (s'.goto p (.readTape (i + 1) .read)) :=
        if_pos (hdata1.mpr hl)
      obtain ⟨u, hu, hcontrol, hwritten⟩ := ih (hnext.goto (i + 1) .read) hidle' hrest hl
      refine ⟨u, ?_, hcontrol, ?_⟩
      · rw [hloads, hnext.loads_run (by simp) hidle' hrun]
        exact hu
      · rw [hwritten, stores_cons, ← hstored]
        rfl

/-- About to read the first block of its tape, with disk 0 free. -/
structure Sys.Starts (s : Sys n) (p : Fin n) : Prop where
  reads : s.Reads p 0 .read 1
  idle : s.disk.busy = none

lemma Sys.Starts.exists_loads (h : s.Starts p) (hne : t.blocks ≠ []) :
    ∃ u, Loader.Loads b p ⟨s, t⟩ u ∧ u.sys.control p = .ldst b.junk ∧
      u.sys.disk.blocks = stores (pageBlock p) 0 t.blocks s.disk.blocks :=
  h.reads.exists_loads h.idle rfl hne

lemma stores_pageBlock_iff {w : Location → Block} :
    (∀ i (hi : i < l.length), stores (pageBlock p) 0 l w (pageBlock p i) = l[i]) ↔
      ∀ i j (hi : i < l.length) (hj : j < l.length), 31 ≤ i → 31 ≤ j → l[i] = l[j] := by
  have hkept := stores_kept_iff (f := pageBlock p) (k := 0) (l := l) (w := w)
  simp only [Nat.zero_add] at hkept
  rw [hkept]
  constructor
  · intro heq i j hi hj hi31 hj31
    exact heq i j hi hj (pageBlock_eq_iff.mpr (.inr ⟨hi31, hj31⟩))
  · intro heq i j hi hj hplace
    rcases pageBlock_eq_iff.mp hplace with rfl | ⟨hi31, hj31⟩
    · rfl
    · exact heq i j hi hj hi31 hj31

/-- `readTape` ends, having written nowhere but to the process's sector, and the pager finds each
block of the tape if and only if all blocks from the last entry of the page table on are equal. -/
theorem readTape_loads_iff (b : Board n) (s : Sys n) (p : Fin n) (t : Tape) (h : s.Starts p)
    (hne : t.blocks ≠ []) :
    ∃ u, Loader.Loads b p ⟨s, t⟩ u ∧ u.sys.control p = .ldst b.junk ∧
      (∀ y : Location, y.head ≠ 0 ∨ y.sector ≠ p → u.sys.disk.blocks y = s.disk.blocks y) ∧
      ((∀ i (hi : i < t.blocks.length), u.sys.disk.blocks (pageBlock p i) = t.blocks[i]) ↔
        ∀ i j (hi : i < t.blocks.length) (hj : j < t.blocks.length), 31 ≤ i → 31 ≤ j →
          t.blocks[i] = t.blocks[j]) := by
  obtain ⟨u, hu, hcontrol, hwritten⟩ := h.exists_loads (b := b) hne
  rw [← stores_pageBlock_iff (p := p) (w := s.disk.blocks), ← hwritten]
  refine ⟨u, hu, hcontrol, ?_, Iff.rfl⟩
  intro y hy
  rw [hwritten]
  apply stores_of_ne
  intro j _ hj
  rw [pageBlock_eq] at hj
  subst hj
  simp at hy

/-- A tape of `m` blocks, each filled with its number. -/
def Tape.numbered (m : ℕ) : Tape where
  blocks := (List.range m).map fun i _ => BitVec.ofNat 32 i
  data1 := 0
  mark := 0
  mark_ne := by decide

lemma blank_starts (p : Fin n) : (Sys.blank n).Starts p :=
  ⟨⟨rfl, rfl, List.not_mem_nil, List.not_mem_nil⟩, rfl⟩

/-- The longest image that is loaded as it is. -/
theorem readTape_loads_whole : ∃ u, Loader.Loads twoProcesses (0 : Fin 2)
    ⟨Sys.blank 2, .numbered 32⟩ u ∧ u.sys.control 0 = .ldst twoProcesses.junk ∧
      ∀ i (hi : i < (Tape.numbered 32).blocks.length),
        u.sys.disk.blocks (pageBlock (0 : Fin 2) i) = (Tape.numbered 32).blocks[i] := by
  obtain ⟨u, hu, hcontrol, -, hiff⟩ :=
    readTape_loads_iff twoProcesses (Sys.blank 2) 0 (.numbered 32) (blank_starts 0) (by decide)
  refine ⟨u, hu, hcontrol, hiff.mpr ?_⟩
  intro i j hi hj hi31 hj31
  have hlength : (Tape.numbered 32).blocks.length = 32 := by
    unfold Tape.numbered
    rw [List.length_map, List.length_range]
  have hij : i = j := by omega
  subst hij
  rfl

/-- Block 32 of the tape overwrites block 31. -/
theorem readTape_overwrites : ¬ ∃ u, Loader.Loads twoProcesses (0 : Fin 2)
    ⟨Sys.blank 2, .numbered 33⟩ u ∧
      ∀ i (hi : i < (Tape.numbered 33).blocks.length),
        u.sys.disk.blocks (pageBlock (0 : Fin 2) i) = (Tape.numbered 33).blocks[i] := by
  rintro ⟨u, hu, hkept⟩
  obtain ⟨u', hu', -, hwritten⟩ :=
    (blank_starts (0 : Fin 2)).exists_loads (b := twoProcesses) (t := .numbered 33) (by decide)
  rw [Drives.eq hu hu', hwritten, stores_pageBlock_iff] at hkept
  have heq := congrFun (hkept 31 32 (by decide) (by decide) (by decide) (by decide)) 0
  exact absurd heq (by decide)

end Kaya.Support
