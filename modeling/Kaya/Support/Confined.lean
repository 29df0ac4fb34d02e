import Kaya.Support.DiskLock
import Kaya.Support.Pool

/-!
# Where memory changes

The page tables lead to frames of the swap pool only, and so do the transfers of the disk into
memory: a step changes no other frame.
-/

namespace Kaya.Support

open Function Linked

variable {n : Nat} {b : Board n} {p : Fin n} {u : UPage n} {e : Event n}

/-- The frame number of the entry is one of the swap pool. -/
def Pte.Placed (b : Board n) (x : Pte) : Prop :=
  ∃ f, x.entryLo &&& ~~~frameNumMask = b.getFrameAddr f

lemma Pte.Placed.flipValid {x : Pte} (h : x.Placed b) : x.flipValid.Placed b := by
  obtain ⟨f, hf⟩ := h
  exact ⟨f, (flipValid_and (by decide)).trans hf⟩

lemma Pte.placed_place (x : Pte) (f : Fin poolSize) : (x.place (b.getFrameAddr f)).Placed b :=
  ⟨f, place_high (b.getFrameAddr_aligned f)⟩

lemma Control.data0_of_read {c : Control} {job : Job} {stage : IoStage}
    (hio : c.io b p = some (job, stage)) (hread : opOf job.command = readBlk) :
    ∃ f, job.data0 = b.getFrameAddr f := by
  have hwrite : writeBlk ≠ readBlk := by decide
  have hcommand : ∀ (op : Word) (procNum : Int) (segment : Nat), op.toNat < 256 →
      opOf (blockCommand op procNum segment) = op := by
    intro op procNum segment hop
    exact opOf_add_shift op _ _ hop
  cases c with
  | readTape i stage' =>
    cases stage' with
    | io io =>
      obtain ⟨rfl, -⟩ := Prod.mk.inj (Option.some.inj hio)
      exact absurd ((hcommand _ _ _ (by decide)).symm.trans hread) hwrite
    | _ => cases hio
  | tlb old back stage' =>
    cases stage' with
    | boot frame victim io =>
      obtain ⟨rfl, -⟩ := Prod.mk.inj (Option.some.inj hio)
      exact absurd ((hcommand _ _ _ (by decide)).symm.trans hread) hwrite
    | load frame io =>
      obtain ⟨rfl, -⟩ := Prod.mk.inj (Option.some.inj hio)
      exact ⟨frame, rfl⟩
    | _ => cases hio
  | _ => cases hio

namespace Sys

variable {s s' : Sys n}

/-- The page tables lead to frames of the swap pool only. -/
structure Confined (b : Board n) (s : Sys n) : Prop where
  tables : s.Tables
  valid : ∀ u, (s.pte u).valid ≠ 0 → (s.pte u).Placed b
  recorded : ∀ f u, s.resident f = some u → (s.pte u).Placed b

lemma Confined.same (hs : s.Confined b) (hpte : s'.pte = s.pte)
    (hresident : s'.resident = s.resident)
    (htlb : ∀ x ∈ s'.tlb, x ∈ s.tlb ∨ ∃ u, x = s.pte u) : s'.Confined b := by
  refine ⟨hs.tables.of_eq hpte htlb, ?_, ?_⟩
  · rw [hpte]
    exact hs.valid
  · rw [hpte, hresident]
    exact hs.recorded

lemma Confined.setPte {x : Pte} (hs : s.Confined b) (hbuilt : x.Built u) (hx : x.Placed b) :
    (s.setPte u x).Confined b := by
  have hplaced : ∀ v, (v ≠ u → (s.pte v).Placed b) → (update s.pte u x v).Placed b := by
    intro v hv
    by_cases hvu : v = u
    · subst hvu
      rwa [update_self]
    · rw [update_of_ne hvu]
      exact hv hvu
  refine ⟨hs.tables.setPte hbuilt, fun v hv => ?_, fun f v hv => ?_⟩
  · rw [pte_setPte] at hv ⊢
    refine hplaced v fun hvu => hs.valid v ?_
    rwa [update_of_ne hvu] at hv
  · rw [pte_setPte]
    rw [resident_setPte] at hv
    exact hplaced v fun _ => hs.recorded f v hv

lemma Confined.record {f : Fin poolSize} {r : SwapEntry} (hs : s.Confined b)
    (hr : ∀ u, r.page n = some u → (s.pte u).Placed b) :
    ({ s with frameSwapPool := update s.frameSwapPool f r } : Sys n).Confined b := by
  refine ⟨hs.tables.of_eq rfl fun x hx => .inl hx, hs.valid, fun g u hg => ?_⟩
  rw [resident_record] at hg
  by_cases hgf : g = f
  · subst hgf
    rw [update_self] at hg
    exact hr u hg
  · rw [update_of_ne hgf] at hg
    exact hs.recorded g u hg

lemma Moves.confined (hm : s.Moves b e s') (hs : s.Confined b) : s'.Confined b := by
  have htlb : ∀ x ∈ s.tlb, x ∈ s.tlb ∨ ∃ u, x = s.pte u := fun x hx => .inl hx
  cases hm with
  | look hlook htlb => exact hs.same rfl rfl htlb
  | @store p st va v frame hc hf | @fault e p st va cause back write hc hseg hf hfree =>
    obtain ⟨tlb, hrefill, htlb⟩ := s.refill_eq p (accessHi p va)
    rw [hrefill]
    exact hs.same rfl rfl htlb
  | printEnd htlb hc hblocked | printNext htlb hc hblocked => exact hs.same rfl rfl htlb
  | @boot p input old back frame u hc hblocked hmissing hframe hocc hpage =>
    have hnext : ({ s with nextFrame := s.nextFrame + 1 } : Sys n).Confined b :=
      hs.same rfl rfl htlb
    have hset := hnext.setPte (hs.tables.built u).flipValid (hs.recorded frame u hpage).flipValid
    exact hset.same rfl rfl fun x hx => .inl hx
  | @install p input old back frame u hc hblocked hpage =>
    have hset := hs.setPte ((hs.tables.built u).place (b.getFrameAddr_aligned frame))
      (Pte.placed_place _ frame)
    have hrecord := hset.record (f := frame) (r := faultRecord p old) fun v hv => by
      rw [page_faultRecord b.procCnt_le, hpage] at hv
      obtain rfl := Option.some.inj hv
      rw [pte_setPte, update_self]
      exact Pte.placed_place _ frame
    refine hrecord.same ?_ ?_ fun x hx => .inl ?_
    · cases u <;> rfl
    · cases u <;> rfl
    · cases u <;> exact hx
  | @installOther p input old back frame hc hblocked hseg =>
    have hrecord := hs.record (f := frame) (r := faultRecord p old) fun v hv => by
      rw [SwapEntry.page_of_vacant (.inr hseg)] at hv
      cases hv
    exact hrecord.same rfl rfl fun x hx => .inl hx
  | @installTrap p input old back frame hc hblocked hseg hpage =>
    have hrecord := hs.record (f := frame) (r := faultRecord p old) fun v hv => by
      rw [page_faultRecord b.procCnt_le, hpage] at hv
      cases hv
    exact hrecord.same rfl rfl fun x hx => .inl hx
  | aside masterSema4 hact hholds hio hio' hns hctl htape hservice hfree =>
    exact hs.same rfl rfl htlb
  | die hblocked hc | printStart hc hblocked | tapeStart hc hblocked | enter hc hblocked hcode
  | found hc hblocked hseg hlo hvalid | take hc hblocked hmissing hframe hvacant
  | booted hc hblocked | seek hc hstages hblocked | transfer hc hstages hbusy hblocked
  | tapeEnd hc hbusy hblocked | bootEnd hc hbusy hblocked | loadEnd hc hbusy hblocked
  | disk hd => exact hs.same rfl rfl htlb

lemma fresh_confined (b : Board n) (h0 : s.Fresh) : s.Confined b := by
  refine ⟨(fresh_paged (b := b) h0).tables, fun u hu => absurd ?_ hu, fun f u hu => ?_⟩
  · have hpte : s.pte u = initialPte u := by
      cases u with
      | priv p i => exact congrFun (h0.kuseg2PT p) i
      | shared i => exact congrFun h0.kuseg3PT i
    rw [hpte]
    exact Pte.frame_eq_none_iff.mp (frame_initialPte u)
  · have hnone : s.resident f = none := SwapEntry.page_of_vacant (.inl (h0.frameSwapPool f))
    rw [hnone] at hu
    cases hu

lemma DiskSafe.ram_eq {disk : Disk} {ram : Ram} (hs : s.DiskSafe b)
    (hd : s.disk.complete s.ram = some (disk, ram)) {a : Word} (ha : ∀ f, a ≠ b.getFrameAddr f) :
    ram a = s.ram a := by
  unfold Disk.complete at hd
  cases hbusy : s.disk.busy with
  | none => simp [hbusy] at hd
  | some command =>
    simp only [hbusy] at hd
    obtain ⟨p, job, hcases, -⟩ := hs.exists_owner hbusy
    rcases hcases with ⟨hio, rfl⟩ | ⟨hio, rfl, -, hdata⟩
    · rw [if_pos (hs.sound p job _ hio).seek] at hd
      obtain ⟨-, rfl⟩ := Prod.mk.inj (Option.some.inj hd)
      rfl
    · rw [if_neg (hs.sound p job _ hio).command] at hd
      split_ifs at hd with hread hwrite <;> obtain ⟨-, rfl⟩ := Prod.mk.inj (Option.some.inj hd)
      · obtain ⟨f, hf⟩ := Control.data0_of_read hio hread
        rw [hdata, hf]
        exact update_of_ne (ha f) _ _
      · rfl
      · rfl

/-- A step changes memory in frames of the swap pool only. -/
lemma Moves.ram_eq (hm : s.Moves b e s') (hs : s.Confined b) (hd : s.DiskSafe b) {a : Word}
    (ha : ∀ f, a ≠ b.getFrameAddr f) : s'.ram a = s.ram a := by
  cases hm with
  | @store p st va v frame hc hf =>
    obtain ⟨u, hu, -⟩ := translate_ok hs.tables.cached hf
    have hvalid : (s.pte u).valid ≠ 0 := fun hzero => by
      cases (Pte.frame_eq_none_iff.mpr hzero).symm.trans hu
    obtain ⟨f, hframe⟩ := hs.valid u hvalid
    have heq : frame = b.getFrameAddr f := by
      rw [← hframe]
      exact (Option.some.inj ((Pte.frame_of_valid hvalid).symm.trans hu)).symm
    exact update_of_ne (heq ▸ ha f) _ _
  | @fault e p st va cause back write hc hseg hf hfree =>
    obtain ⟨tlb, hrefill, -⟩ := s.refill_eq p (accessHi p va)
    rw [hrefill]
    rfl
  | disk hdisk => exact hd.ram_eq hdisk ha
  | @boot p input old back frame u => cases u <;> rfl
  | @install p input old back frame u => cases u <;> rfl
  | _ => rfl

end Sys

end Kaya.Support
