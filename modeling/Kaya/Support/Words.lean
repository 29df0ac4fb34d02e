import Kaya.Support.Pager
import Mathlib.Tactic.IntervalCases

/-!
# Words of the page tables and of the disk

What the masks and shifts of the pager pick out of a word, as arithmetic.
-/

namespace Kaya.Support

open Function Linked

variable {n : Nat} {x y : Word} {e : Pte} {p q : Fin n} {va : Addr}

/-! ### Fields -/

lemma toNat_field (x m : Word) {s k : Nat} (hm : (m >>> s).toNat = 2 ^ k - 1) :
    ((x &&& m) >>> s).toNat = x.toNat / 2 ^ s % 2 ^ k := by
  rw [BitVec.ushiftRight_and_distrib, BitVec.toNat_and, hm, Nat.and_two_pow_sub_one_eq_mod,
    BitVec.toNat_ushiftRight, Nat.shiftRight_eq_div_pow]

lemma toNat_low (x : Word) : (x &&& frameNumMask).toNat = x.toNat % 4096 := by
  rw [BitVec.toNat_and]
  exact Nat.and_two_pow_sub_one_eq_mod x.toNat 12

lemma toNat_high (x : Word) : (x &&& ~~~frameNumMask).toNat = x.toNat / 4096 * 4096 := by
  have hmask : ~~~frameNumMask = BitVec.allOnes 32 <<< 12 := by decide
  rw [hmask, ← BitVec.shiftLeft_ushiftRight, BitVec.toNat_shiftLeft, BitVec.toNat_ushiftRight,
    Nat.shiftRight_eq_div_pow, Nat.shiftLeft_eq]
  have hx := x.isLt
  omega

lemma segmentOf_eq (x : Word) : segmentOf x = x.toNat / 2 ^ 30 := by
  have hfield : segmentOf x = x.toNat / 2 ^ 30 % 2 ^ 2 := toNat_field x segMask (by decide)
  have hx := x.isLt
  omega

lemma pageOf_eq (x : Word) : pageOf x = x.toNat / 2 ^ 12 % 2 ^ 18 :=
  toNat_field x pageMask (by decide)

lemma asidOf_eq (x : Word) : asidOf x = x.toNat / 2 ^ 6 % 2 ^ 6 :=
  toNat_field x asidMask (by decide)

lemma toNat_asidMask (x : Word) : (x &&& asidMask).toNat = x.toNat / 64 % 64 * 64 := by
  have hfield : (x &&& asidMask).toNat / 64 = x.toNat / 64 % 64 := by
    have heq := asidOf_eq x
    unfold asidOf at heq
    rwa [BitVec.toNat_ushiftRight, Nat.shiftRight_eq_div_pow] at heq
  have hlow : (x &&& asidMask).toNat % 64 = 0 := by
    rw [BitVec.toNat_and]
    have hand : x.toNat &&& asidMask.toNat &&& 63 = 0 := by
      rw [Nat.and_assoc]
      exact Nat.and_zero _
    rw [← Nat.and_two_pow_sub_one_eq_mod _ 6]
    exact hand
  omega

lemma toNat_entryHi (hn : n ≤ 63) (p : Fin n) : (entryHi p).toNat = (p + 1) * 64 := by
  unfold entryHi
  have hp := p.isLt
  rw [BitVec.toNat_shiftLeft, BitVec.toNat_ofNat, Nat.shiftLeft_eq]
  simp only [asidShift]
  omega

lemma asidOf_entryHi (hn : n ≤ 63) (p : Fin n) : asidOf (entryHi p) = p + 1 := by
  rw [asidOf_eq, toNat_entryHi hn]
  have hp := p.isLt
  omega

lemma toNat_accessHi (hn : n ≤ 63) (p : Fin n) (va : Addr) :
    (Sys.accessHi p va).toNat = va.toNat / 4096 * 4096 + (p + 1) * 64 := by
  have hp := p.isLt
  have hdisj : (va &&& ~~~frameNumMask) &&& entryHi p = 0 := by
    apply BitVec.eq_of_toNat_eq
    have hlow : entryHi p = entryHi p &&& frameNumMask := by
      apply BitVec.eq_of_toNat_eq
      rw [toNat_low, toNat_entryHi hn]
      omega
    rw [hlow, BitVec.and_comm (entryHi p), ← BitVec.and_assoc, BitVec.and_assoc va]
    have hzero : ~~~frameNumMask &&& frameNumMask = 0 := by decide
    rw [hzero]
    simp
  unfold Sys.accessHi
  rw [← BitVec.add_eq_or_of_and_eq_zero _ _ hdisj, BitVec.toNat_add, toNat_high, toNat_entryHi hn]
  have hva := va.isLt
  omega

lemma segmentOf_accessHi (hn : n ≤ 63) : segmentOf (Sys.accessHi p va) = segmentOf va := by
  have hp := p.isLt
  rw [segmentOf_eq, segmentOf_eq, toNat_accessHi hn]
  omega

lemma pageOf_accessHi (hn : n ≤ 63) : pageOf (Sys.accessHi p va) = pageOf va := by
  have hp := p.isLt
  rw [pageOf_eq, pageOf_eq, toNat_accessHi hn]
  omega

lemma procOf_asid (hn : n ≤ 63) (p : Fin n) : procOf n (asidOf (entryHi p)) = some p := by
  have hp := p.isLt
  rw [asidOf_entryHi hn]
  unfold procOf
  rw [dif_pos (by omega)]
  congr 1
  apply Fin.ext
  simp

/-! ### Page table entries -/

lemma valid_ne_zero_iff : e.valid ≠ 0 ↔ e.entryLo.getLsbD 9 = true := by
  have hbit : e.valid.toNat = e.entryLo.toNat / 2 ^ 9 % 2 ^ 1 :=
    toNat_field e.entryLo validMask (by decide)
  have hne : e.valid ≠ 0 ↔ e.valid.toNat ≠ 0 := by
    rw [ne_eq, ne_eq, ← BitVec.toNat_inj]
    rfl
  rw [hne, hbit, BitVec.getLsbD, Nat.testBit_eq_decide_div_mod_eq]
  simp only [decide_eq_true_eq]
  omega

lemma flipValid_valid : e.flipValid.valid ≠ 0 ↔ e.valid = 0 := by
  have hon : validOn.getLsbD 9 = true := by decide
  have hbit : e.flipValid.entryLo.getLsbD 9 = !e.entryLo.getLsbD 9 := by
    change (e.entryLo ^^^ validOn).getLsbD 9 = _
    rw [BitVec.getLsbD_xor, hon, Bool.xor_true]
  have hold : e.valid = 0 ↔ e.entryLo.getLsbD 9 = false := by
    rw [← Bool.not_eq_true, ← valid_ne_zero_iff, ne_eq, not_not]
  rw [valid_ne_zero_iff, hbit, hold, Bool.not_eq_true']

lemma flipValid_and {m : Word} (hm : validOn &&& m = 0#32) :
    e.flipValid.entryLo &&& m = e.entryLo &&& m := by
  apply BitVec.eq_of_getLsbD_eq
  intro i hi
  have hbit : (validOn &&& m).getLsbD i = false := by
    rw [hm]
    simp
  simp only [Pte.flipValid, BitVec.getLsbD_and, BitVec.getLsbD_xor] at hbit ⊢
  cases hmi : m.getLsbD i <;> simp_all

section place

variable {addr : Word} (haddr : addr.toNat % 4096 = 0)

include haddr

lemma place_entryLo : (e.place addr).entryLo =
    addr ||| ((e.entryLo ||| validOn) &&& frameNumMask) := by
  refine BitVec.add_eq_or_of_and_eq_zero _ _ ?_
  rw [← BitVec.and_assoc, BitVec.and_comm, ← BitVec.and_assoc]
  have hzero : frameNumMask &&& addr = 0#32 := by
    apply BitVec.eq_of_toNat_eq
    rw [BitVec.and_comm, toNat_low, haddr]
    rfl
  rw [hzero]
  simp

lemma place_high : (e.place addr).entryLo &&& ~~~frameNumMask = addr := by
  have hzero : frameNumMask &&& ~~~frameNumMask = 0#32 := by decide
  rw [place_entryLo haddr, BitVec.and_or_distrib_right, BitVec.and_assoc, hzero]
  apply BitVec.eq_of_toNat_eq
  simp only [BitVec.and_zero, BitVec.or_zero]
  rw [toNat_high]
  omega

lemma place_and {m : Word} (hm : m &&& frameNumMask = m) (hv : validOn &&& m = 0#32) :
    (e.place addr).entryLo &&& m = e.entryLo &&& m := by
  have hlow : addr &&& m = 0#32 := by
    have hzero : addr &&& frameNumMask = 0#32 := by
      apply BitVec.eq_of_toNat_eq
      rw [toNat_low, haddr]
      rfl
    rw [← hm, BitVec.and_comm m, ← BitVec.and_assoc, hzero]
    simp
  have hmask : frameNumMask &&& m = m := by rw [BitVec.and_comm, hm]
  rw [place_entryLo haddr, BitVec.and_or_distrib_right, hlow, BitVec.and_assoc, hmask,
    BitVec.and_or_distrib_right, hv]
  simp

lemma place_valid : (e.place addr).valid ≠ 0 := by
  rw [valid_ne_zero_iff, place_entryLo haddr]
  have hon : validOn.getLsbD 9 = true := by decide
  have hmask : frameNumMask.getLsbD 9 = true := by decide
  simp [hon, hmask]

end place

/-! ### Frames -/

namespace Board

variable {b : Board n} {f g : Fin poolSize}

lemma toNat_getFrameAddr (b : Board n) (f : Fin poolSize) :
    (b.getFrameAddr f).toNat = b.ramtop.toNat - (poolSize + 3) * 4096 + f * 4096 := by
  unfold getFrameAddr framePoolStart
  have hf := f.isLt
  have hroom := b.room
  have htop := b.ramtop.isLt
  have hsize : pageSize.toNat = 4096 := rfl
  rw [BitVec.toNat_add, BitVec.toNat_sub, BitVec.toNat_mul, BitVec.toNat_mul, hsize,
    BitVec.toNat_ofNat, BitVec.toNat_ofNat]
  omega

lemma getFrameAddr_aligned (b : Board n) (f : Fin poolSize) :
    (b.getFrameAddr f).toNat % 4096 = 0 := by
  rw [toNat_getFrameAddr]
  have haligned := b.aligned
  have hroom := b.room
  omega

lemma getFrameAddr_inj (h : b.getFrameAddr f = b.getFrameAddr g) : f = g := by
  have hnat := congrArg BitVec.toNat h
  rw [toNat_getFrameAddr, toNat_getFrameAddr] at hnat
  exact Fin.ext (by omega)

end Board

/-! ### Disk commands -/

lemma toNat_opOf (x : Word) : (opOf x).toNat = x.toNat % 256 := by
  unfold opOf
  rw [BitVec.toNat_and]
  exact Nat.and_two_pow_sub_one_eq_mod x.toNat 8

lemma cylinderOf_eq (x : Word) : cylinderOf x = x.toNat / 2 ^ 8 % 2 ^ 16 := by
  unfold cylinderOf
  rw [BitVec.toNat_and, BitVec.toNat_ushiftRight, Nat.shiftRight_eq_div_pow]
  exact Nat.and_two_pow_sub_one_eq_mod _ 16

lemma sectorOf_eq (x : Word) : sectorOf x = x.toNat / 2 ^ 8 % 2 ^ 8 := by
  unfold sectorOf
  rw [BitVec.toNat_and, BitVec.toNat_ushiftRight, Nat.shiftRight_eq_div_pow]
  exact Nat.and_two_pow_sub_one_eq_mod _ 8

lemma headOf_eq (x : Word) : headOf x = x.toNat / 2 ^ 16 % 2 ^ 8 := by
  unfold headOf
  rw [BitVec.toNat_and, BitVec.toNat_ushiftRight, Nat.shiftRight_eq_div_pow]
  exact Nat.and_two_pow_sub_one_eq_mod _ 8

variable {op : Word} {page procNum segment : Nat}

lemma toNat_seekCommand (page : Nat) : (seekCommand page).toNat = 2 + min page 31 * 256 := by
  have hcyl : getCylinderNum page = (min page 31 : Nat) := by
    unfold getCylinderNum
    split_ifs with h <;> omega
  have hseek : seekCyl.toNat = 2 := rfl
  unfold seekCommand
  rw [hcyl, BitVec.ofInt_natCast, BitVec.toNat_add, BitVec.toNat_shiftLeft, BitVec.toNat_ofNat,
    Nat.shiftLeft_eq, hseek]
  simp only [deviceCommandShift]
  omega

lemma opOf_seekCommand (page : Nat) : opOf (seekCommand page) = seekCyl := by
  apply BitVec.eq_of_toNat_eq
  rw [toNat_opOf, toNat_seekCommand]
  change _ = 2
  omega

lemma cylinderOf_seekCommand (page : Nat) : cylinderOf (seekCommand page) = min page 31 := by
  rw [cylinderOf_eq, toNat_seekCommand]
  omega

lemma getHeadNum_eq (segment : Nat) :
    getHeadNum segment = ((if segment = kuseg2 then 0 else 1 : Nat) : Int) := by
  unfold getHeadNum
  split_ifs <;> rfl

lemma toNat_blockCommand (hop : op.toNat < 256) (h1 : 1 ≤ procNum) (h2 : procNum ≤ 63) :
    (blockCommand op procNum segment).toNat =
      op.toNat + (procNum - 1) * 256 + (if segment = kuseg2 then 0 else 1) * 65536 := by
  have hsector : getSectorNum procNum = (procNum - 1 : Nat) := by
    unfold getSectorNum
    omega
  unfold blockCommand
  rw [hsector, getHeadNum_eq, BitVec.ofInt_natCast, BitVec.ofInt_natCast, BitVec.toNat_add,
    BitVec.toNat_add, BitVec.toNat_shiftLeft, BitVec.toNat_shiftLeft, BitVec.toNat_ofNat,
    BitVec.toNat_ofNat, Nat.shiftLeft_eq, Nat.shiftLeft_eq]
  simp only [deviceCommandShift]
  split_ifs <;> omega

section blockCommand

variable (hop : op.toNat < 256) (h1 : 1 ≤ procNum) (h2 : procNum ≤ 63)

include hop h1 h2

lemma opOf_blockCommand : opOf (blockCommand op procNum segment) = op := by
  apply BitVec.eq_of_toNat_eq
  rw [toNat_opOf, toNat_blockCommand hop h1 h2]
  split_ifs <;> omega

lemma sectorOf_blockCommand : sectorOf (blockCommand op procNum segment) = procNum - 1 := by
  rw [sectorOf_eq, toNat_blockCommand hop h1 h2]
  split_ifs <;> omega

lemma headOf_blockCommand :
    headOf (blockCommand op procNum segment) = if segment = kuseg2 then 0 else 1 := by
  rw [headOf_eq, toNat_blockCommand hop h1 h2]
  split_ifs <;> omega

end blockCommand

/-! ### The counter of `findFrame` -/

lemma frameOf_eq_some_iff {w : Word} {f : Fin poolSize} :
    frameOf w = some f ↔ w.toInt.tmod poolSize = f.val := by
  have hf := f.isLt
  unfold frameOf
  split_ifs with h
  · rw [Option.some.injEq, Fin.ext_iff]
    change (w.toInt.tmod poolSize).toNat = f.val ↔ _
    omega
  · exact iff_of_false (by simp) (by omega)

lemma toInt_tmod_of_lt {w : Word} (h : w.toNat < 2 ^ 31) :
    w.toInt.tmod poolSize = (w.toNat % poolSize : Nat) := by
  rw [BitVec.toInt_eq_toNat_of_lt (by omega), Int.tmod_eq_emod_of_nonneg (by omega)]
  exact (Int.natCast_mod _ _).symm

lemma frameOf_of_lt {w : Word} (h : w.toNat < 2 ^ 31) :
    frameOf w = some ⟨w.toNat % poolSize, Nat.mod_lt _ (by decide)⟩ :=
  frameOf_eq_some_iff.mpr (toInt_tmod_of_lt h)

lemma lt_of_frameOf_eq_some {w : Word} {f : Fin poolSize} (h : frameOf w = some f)
    (hle : w.toNat ≤ 2 ^ 31) : w.toNat < 2 ^ 31 := by
  refine lt_of_le_of_ne hle fun he => ?_
  obtain rfl : w = 0x80000000#32 := BitVec.eq_of_toNat_eq he
  have hnone : frameOf 0x80000000#32 = none := by decide
  cases hnone.symm.trans h

end Kaya.Support
