import Kaya.Lib.Frames
import Kaya.Support.Moves

/-!
# Page tables in use

What the pager leaves of the entries that `test` has built, which page an entry is for, and
which of them an access matches.
-/

namespace Kaya.Support

open Function Linked

variable {n : Nat} {b : Board n} {p q : Fin n} {u v : UPage n} {x : Pte} {va : Addr}
  {addr : Word} {i : Fin maxKuseg}

/-- The entry of a page as `test` builds it. -/
def initialPte : UPage n → Pte
  | .priv p i => initialKuseg2PT (p + 1) i
  | .shared i => initialKuseg3PT i

/-- The bits of `entryLo` that the pager keeps. -/
def keptMask : Word := dirtyOn ||| globalOn

namespace Pte

/-- The frame that a valid entry names. -/
def frame (e : Pte) : Option Word :=
  if e.valid = 0 then none else some (e.entryLo &&& ~~~frameNumMask)

/-- The entry is for this page. -/
structure Built (u : UPage n) (e : Pte) : Prop where
  entryHi : e.entryHi = (initialPte u).entryHi
  entryLo : e.entryLo &&& keptMask = (initialPte u).entryLo &&& keptMask

lemma frame_eq_none_iff : x.frame = none ↔ x.valid = 0 := by
  unfold frame
  split_ifs with h
  · simp [h]
  · simpa using h

lemma frame_of_valid (h : x.valid ≠ 0) : x.frame = some (x.entryLo &&& ~~~frameNumMask) :=
  if_neg h

lemma frame_flipValid (h : x.frame ≠ none) : x.flipValid.frame = none := by
  rw [frame_eq_none_iff]
  by_contra hne
  exact h (frame_eq_none_iff.mpr (flipValid_valid.mp hne))

lemma frame_place (haddr : addr.toNat % 4096 = 0) : (x.place addr).frame = some addr := by
  rw [frame_of_valid (place_valid haddr), place_high haddr]

namespace Built

lemma initial (u : UPage n) : (initialPte u).Built u := ⟨rfl, rfl⟩

lemma flipValid (h : x.Built u) : x.flipValid.Built u :=
  ⟨h.entryHi, (flipValid_and (by decide)).trans h.entryLo⟩

lemma place (h : x.Built u) (haddr : addr.toNat % 4096 = 0) : (x.place addr).Built u :=
  ⟨h.entryHi, (place_and haddr (by decide) (by decide)).trans h.entryLo⟩

lemma entryLo_and (h : x.Built u) {m : Word} (hm : keptMask &&& m = m) :
    x.entryLo &&& m = (initialPte u).entryLo &&& m := by
  have hand := congrArg (· &&& m) h.entryLo
  simp only [BitVec.and_assoc, hm] at hand
  exact hand

end Built

end Pte

/-! ### Entries and accesses -/

lemma entryLo_priv (p : Fin n) (i : Fin maxKuseg) :
    (initialPte (.priv p i)).entryLo = dirtyOn := by
  change (initialKuseg2PT (p + 1) i).entryLo = dirtyOn
  unfold initialKuseg2PT
  dsimp only
  split_ifs <;> rfl

lemma entryLo_shared (i : Fin maxKuseg) :
    (initialPte (.shared i : UPage n)).entryLo = dirtyOn ||| globalOn := rfl

lemma frame_initialPte (u : UPage n) : (initialPte u).frame = none := by
  unfold Pte.frame Pte.valid
  cases u with
  | priv p i =>
    rw [entryLo_priv]
    rfl
  | shared i =>
    rw [entryLo_shared]
    rfl

lemma global_priv (p : Fin n) (i : Fin maxKuseg) :
    (initialPte (.priv p i)).entryLo &&& globalOn = 0 := by
  rw [entryLo_priv]
  decide

lemma toNat_high_or_asid {page : Nat} (hn : n ≤ 63) (hpage : page < 2 ^ 20) (p : Fin n) :
    ((BitVec.ofNat 32 page <<< pageShift) ||| (BitVec.ofNat 32 (p + 1) <<< asidShift)).toNat =
      page * 4096 + (p + 1) * 64 := by
  have hp := p.isLt
  have hva : (BitVec.ofNat 32 page <<< pageShift).toNat = page * 4096 := by
    rw [BitVec.toNat_shiftLeft, BitVec.toNat_ofNat, Nat.shiftLeft_eq]
    simp only [pageShift]
    omega
  have hhigh : (BitVec.ofNat 32 page <<< pageShift) &&& ~~~frameNumMask =
      BitVec.ofNat 32 page <<< pageShift := by
    apply BitVec.eq_of_toNat_eq
    rw [toNat_high, hva]
    omega
  have haccess := toNat_accessHi hn p (BitVec.ofNat 32 page <<< pageShift)
  unfold Sys.accessHi entryHi at haccess
  rw [hhigh] at haccess
  rw [haccess, hva]
  omega

/-- The page number of a page. -/
def UPage.number : UPage n → Nat
  | .priv _ i => if i.val = maxKuseg - 1 then 0xBFFFF else 0x80000 + i
  | .shared i => 0xC0000 + i

lemma number_priv (p : Fin n) (i : Fin maxKuseg) :
    i.val = 31 ∧ (UPage.priv p i).number = 0xBFFFF ∨
      i.val < 31 ∧ (UPage.priv p i).number = 0x80000 + i := by
  have hi : i.val < 32 := i.isLt
  unfold UPage.number
  dsimp only
  have hlast : maxKuseg - 1 = 31 := rfl
  rw [hlast]
  split_ifs with h
  · exact .inl ⟨h, rfl⟩
  · exact .inr ⟨by omega, rfl⟩

lemma entryHi_priv (hn : n ≤ 63) (p : Fin n) (i : Fin maxKuseg) :
    (initialPte (.priv p i)).entryHi.toNat =
      (UPage.priv p i).number * 4096 + (p + 1) * 64 := by
  have hi : i.val < 32 := i.isLt
  change (initialKuseg2PT (p + 1) i).entryHi.toNat = _
  unfold initialKuseg2PT UPage.number
  dsimp only
  split_ifs with hlast
  · have hpage : 0xBFFFF < 2 ^ 20 := by decide
    exact toNat_high_or_asid hn hpage p
  · have hadd : kuseg2Start + BitVec.ofNat 32 i = BitVec.ofNat 32 (0x80000 + i) := by
      rw [BitVec.ofNat_add]
      rfl
    rw [hadd]
    exact toNat_high_or_asid hn (by omega) p

lemma entryHi_shared (i : Fin maxKuseg) :
    (initialPte (.shared i : UPage n)).entryHi.toNat =
      (UPage.shared i : UPage n).number * 4096 := by
  have hi : i.val < 32 := i.isLt
  change ((kuseg3Start + BitVec.ofNat 32 i) <<< pageShift).toNat = (0xC0000 + i.val) * 4096
  have hstart : kuseg3Start.toNat = 0xC0000 := rfl
  rw [BitVec.toNat_shiftLeft, BitVec.toNat_add, hstart, BitVec.toNat_ofNat, Nat.shiftLeft_eq]
  simp only [pageShift]
  omega

lemma div_eq_of_high_eq {y z : Word} (h : y &&& ~~~frameNumMask = z &&& ~~~frameNumMask) :
    y.toNat / 4096 = z.toNat / 4096 := by
  have hnat := congrArg BitVec.toNat h
  rw [toNat_high, toNat_high] at hnat
  omega

lemma asidOf_eq_of_and_eq {y z : Word} (h : y &&& asidMask = z &&& asidMask) :
    y.toNat / 64 % 64 = z.toNat / 64 % 64 := by
  have hnat := congrArg BitVec.toNat h
  rw [toNat_asidMask, toNat_asidMask] at hnat
  omega

lemma number_of_matches (hn : n ≤ 63) (hx : x.Built u) (hm : x.Matches (Sys.accessHi p va)) :
    u.number = va.toNat / 4096 ∧ ∀ q i, u = .priv q i → q = p := by
  have hp := p.isLt
  have hva := va.isLt
  have hdiv := div_eq_of_high_eq hm.1
  rw [hx.entryHi, toNat_accessHi hn] at hdiv
  cases u with
  | priv q i =>
    have hq := q.isLt
    rw [entryHi_priv hn] at hdiv
    refine ⟨by omega, fun q' i' he => ?_⟩
    obtain ⟨rfl, rfl⟩ := UPage.priv.inj he
    rcases hm.2 with hglobal | hasid
    · rw [hx.entryLo_and (by decide), global_priv] at hglobal
      exact absurd rfl hglobal
    · have hfield := asidOf_eq_of_and_eq hasid
      rw [hx.entryHi, entryHi_priv hn, toNat_accessHi hn] at hfield
      exact Fin.ext (by omega)
  | shared i =>
    rw [entryHi_shared] at hdiv
    exact ⟨by omega, fun q i' he => by cases he⟩

lemma eq_of_faultPage {old : State} (hn : n ≤ 63) (hx : x.Built u)
    (hm : x.Matches (Sys.accessHi p va)) (hold : old.sAsid = Sys.accessHi p va)
    (hv : faultPage p old = some v) : u = v := by
  obtain ⟨hnumber, hown⟩ := number_of_matches hn hx hm
  have hva := va.isLt
  unfold faultPage at hv
  rw [hold, segmentOf_accessHi hn, pageOf_accessHi hn, segmentOf_eq, pageOf_eq] at hv
  have hentry : ∀ {page : Nat} {j : Fin maxKuseg}, entryOf page = some j → j.val = page := by
    intro page j hj
    unfold entryOf at hj
    split_ifs at hj
    exact (congrArg Fin.val (Option.some.inj hj)).symm
  cases u with
  | priv q i =>
    obtain rfl := hown q i rfl
    have hcases := number_priv q i
    split_ifs at hv with h3 h2
    · change _ = 3 at h3
      omega
    · obtain ⟨j, hj, rfl⟩ := Option.map_eq_some_iff.mp hv
      have hval := hentry hj
      have hjlt : j.val < 32 := j.isLt
      have hij : i = j := Fin.ext (by omega)
      rw [hij]
  | shared i =>
    have hi : i.val < 32 := i.isLt
    have hshared : 0xC0000 + i.val = va.toNat / 4096 := hnumber
    split_ifs at hv with h3 h2
    · obtain ⟨j, hj, rfl⟩ := Option.map_eq_some_iff.mp hv
      have hval := hentry hj
      have hjlt : j.val < 32 := j.isLt
      have hij : i = j := Fin.ext (by omega)
      rw [hij]
    · change _ = 2 at h2
      omega

end Kaya.Support
