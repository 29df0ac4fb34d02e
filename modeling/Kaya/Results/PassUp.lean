import Kaya.Abstract.Ends
import Kaya.Refine.Runs
import Kaya.Refine.Vectors

/-!
# Pass up or die

What happens at an exception depends on the SYS5 calls of the same process. The vectors of a
process are read off the history of the run.
-/

namespace Kaya

open Function Linked

/-- Two areas a process may ask for: neither is `NULL` and they do not overlap. -/
structure Areas.Sound (w : Areas) : Prop where
  old : w.old ≠ null
  new : w.new ≠ null
  above : stateSize ≤ (w.old - w.new).toNat
  below : stateSize ≤ (w.new - w.old).toNat

instance (w : Areas) : Decidable w.Sound :=
  decidable_of_iff
    (w.old ≠ null ∧ w.new ≠ null ∧ stateSize ≤ (w.old - w.new).toNat ∧
      stateSize ≤ (w.new - w.old).toNat)
    ⟨fun h => ⟨h.1, h.2.1, h.2.2.1, h.2.2.2⟩, fun h => ⟨h.1, h.2, h.3, h.4⟩⟩

/-- No state vector. -/
def noAreas : Areas := ⟨null, null⟩

/-- The vector that SYS5 asks for. -/
def specified (type : Fin trapTypes) : Event → Option Areas
  | .syscall st =>
    if IsCall st ∧ st.sA0 = exceptionStateVecNum ∧ st.sA1.toNat = type then
      some ⟨st.sA2, st.sA3⟩
    else none
  | _ => none

/-- The exceptions that are passed up or end the process, with the state that is passed up. A
privileged call in user mode is a program trap, and any other number that is not one of the
eight has the program counter advanced. -/
def raised : Event → Option (Fin trapTypes × State)
  | .syscall st =>
    if minSyscall ≤ st.sA0 ∧ st.sA0 ≤ maxSyscall then
      if userMode st then some (programTrapException, { st with sCause := priviledgedInstr })
      else none
    else some (syscallException, st.advancePc)
  | .programTrap st => some (programTrapException, st)
  | .tlbManagement st => some (tlbException, st)
  | _ => none

/-- The vectors of the processes, with `none` for a PCB that has never been one. -/
abbrev Vectors := PcbIx → Option (Fin trapTypes → Option Areas)

/-- A process that SYS1 creates has no vectors, and of the SYS5 calls of a process the first
one for a type counts. -/
def vectorsAfter (V : Vectors) : Kernel × Event × Kernel → Vectors
  | (k, e, _) => fun p =>
    if IsCreate e ∧ k.nextPcb = some p then some fun _ => none
    else if k.currentProcess = some p then (V p).map fun v type => (v type).or (specified type e)
    else V p

/-- `main` creates the initial process in the first PCB. -/
def bootVectors : Vectors := fun p => if p = 0 then some fun _ => none else none

/-- The vectors after a history. -/
def vectors (h : History) : Vectors := h.foldl vectorsAfter bootVectors

/-- The PCBs have the vectors, and all of these can be used. -/
def HasVectors (V : Vectors) (k : Kernel) : Prop :=
  ∀ p v, V p = some v → ∀ type,
    k.procs.areas p type = (v type).getD noAreas ∧ ∀ w, v type = some w → w.Sound

/-- Every SYS5 asks for areas that can be used. -/
def Specifies (e : Event) : Prop := ∀ type w, specified type e = some w → w.Sound

instance (e : Event) : Decidable (Specifies e) :=
  inferInstanceAs (Decidable (∀ type, ∀ w ∈ specified type e, w.Sound))

/-- The handler of the event ends in SYS2 for `p` and has written nothing but old areas. -/
def Terminates (m : Machine) (k : Kernel) (e : Event) (p : PcbIx) : Prop :=
  ∃ oldArea, step m k e = terminateProcess m (some p) { k with oldArea }

/-- The handler of the event has done nothing but pass the state up. -/
def PassesUp (m : Machine) (k : Kernel) (e : Event) (p : PcbIx) (w : Areas) (st : State) : Prop :=
  ∃ oldArea, step m k e = some { k with
    oldArea
    states := update k.states w.old st
    procs := { k.procs with pS := update k.procs.pS p (k.states w.new) }
    cpu := .running (k.states w.new) }

variable {m : Machine} {k k' k₀ : Kernel} {e : Event} {p : PcbIx} {type : Fin trapTypes}
  {w : Areas} {st : State} {V : Vectors} {a : Nuc} {v : Fin trapTypes → Option Areas} {h : History}

lemma Areas.Sound.old_ne_new (hw : w.Sound) : w.old ≠ w.new := by
  intro he
  have habove := hw.above
  rw [he, BitVec.sub_self] at habove
  revert habove
  decide

lemma Areas.Sound.ne_noAreas (hw : w.Sound) : w ≠ noAreas := by
  rintro rfl
  exact hw.old rfl

/-! ### What a transition does to the vectors -/

lemma specified_eq_some_iff : specified type (.syscall st) = some w ↔
    IsCall st ∧ st.sA0 = exceptionStateVecNum ∧ st.sA1.toNat = type ∧ ⟨st.sA2, st.sA3⟩ = w := by
  unfold specified
  dsimp only
  split_ifs with h5 <;> simp_all

lemma specified_of_isCreate (hc : IsCreate e) : specified type e = none := by
  cases e with
  | syscall st =>
    obtain ⟨-, h1⟩ := hc
    simp [specified, h1, createProcessNum, exceptionStateVecNum]
  | _ => exact hc.elim

lemma specified_ne {type' : Fin trapTypes} (hs : specified type e = some w) (hne : type' ≠ type) :
    specified type' e = none := by
  cases e with
  | syscall st =>
    obtain ⟨-, -, htype, -⟩ := specified_eq_some_iff.mp hs
    refine if_neg fun h5 => hne ?_
    exact Fin.ext (h5.2.2.symm.trans htype)
  | _ => cases hs

lemma step_areas_of_isCreate (hc : IsCreate e) (hs : step m k e = some k') :
    k'.procs.areas = fun p => if k.nextPcb = some p then fun _ => noAreas else k.procs.areas p := by
  cases e with
  | syscall st =>
    obtain ⟨hcall, h1⟩ := hc
    unfold step syscallHandler at hs
    simp only [update_self] at hs
    rw [if_neg hcall] at hs
    unfold syscallSwitch at hs
    rw [if_pos h1] at hs
    exact (createProcess_areas hs).trans rfl
  | _ => exact hc.elim

lemma step_areas_of_specified (hsp : specified type e = some w) (hs : step m k e = some k') :
    ∃ p, k.currentProcess = some p ∧ k'.procs.areas =
      if k.procs.areas p type = noAreas then
        update k.procs.areas p (update (k.procs.areas p) type w)
      else k.procs.areas := by
  cases e with
  | syscall st =>
    obtain ⟨hcall, h5, htype, rfl⟩ := specified_eq_some_iff.mp hsp
    unfold step syscallHandler at hs
    simp only [update_self] at hs
    rw [if_neg hcall] at hs
    unfold syscallSwitch at hs
    simp only [h5] at hs
    obtain ⟨p, hp, ht, hareas⟩ := exceptionStateVec_areas hs
    obtain rfl : type = ⟨_, ht⟩ := Fin.ext htype.symm
    exact ⟨p, hp, hareas⟩
  | _ => cases hsp

lemma step_areas_of_other (hc : ¬ IsCreate e) (hsp : ∀ type, specified type e = none)
    (hs : step m k e = some k') : k'.procs.areas = k.procs.areas := by
  cases e with
  | syscall st =>
    unfold step syscallHandler at hs
    simp only [update_self] at hs
    split_ifs at hs with hu
    · exact (passUpOrDie_areas hs).trans rfl
    · unfold syscallSwitch at hs
      split_ifs at hs with h1 h2 h3 h4 h5 h6 h7 h8
      · exact absurd ⟨hu, h1⟩ hc
      · exact (terminateProcess_areas hs).trans rfl
      · exact (verhogen_areas hs).trans rfl
      · exact (passeren_areas hs).trans rfl
      · obtain ⟨-, -, ht, -⟩ := exceptionStateVec_areas hs
        have hsome : specified ⟨_, ht⟩ (.syscall st) = some ⟨st.sA2, st.sA3⟩ :=
          specified_eq_some_iff.mpr ⟨hu, h5, rfl, rfl⟩
        rw [hsp] at hsome
        cases hsome
      · obtain ⟨p, -, hs⟩ := Option.bind_eq_some_iff.mp hs
        cases hs
        rfl
      · exact (passeren_areas hs).trans rfl
      · exact (waitForIo_areas hs).trans rfl
      · exact (passUpOrDie_areas hs).trans rfl
  | programTrap st => exact (passUpOrDie_areas hs).trans rfl
  | tlbManagement st => exact (passUpOrDie_areas hs).trans rfl
  | interrupt st => exact (interruptHandler_areas hs).trans rfl
  | device bus =>
    cases hs
    rfl
  | writeInt a v =>
    cases hs
    rfl
  | writeState a st =>
    cases hs
    rfl

lemma HasVectors.create (hk : HasVectors V k) (hc : IsCreate e) (hs : step m k e = some k') :
    HasVectors (vectorsAfter V (k, e, k')) k' := by
  intro p v hv type
  unfold vectorsAfter at hv
  simp only [hc, true_and, specified_of_isCreate hc, Option.or_none] at hv
  rw [step_areas_of_isCreate hc hs]
  split_ifs at hv with hnext hcur
  · obtain rfl := Option.some.inj hv
    exact ⟨by simp [hnext], by simp⟩
  · simp only [if_neg hnext]
    exact hk p v (by simpa using hv) type
  · simp only [if_neg hnext]
    exact hk p v hv type

lemma HasVectors.specify (hk : HasVectors V k) (hc : ¬ IsCreate e) (hw : w.Sound)
    (hsp : specified type e = some w) (hs : step m k e = some k') :
    HasVectors (vectorsAfter V (k, e, k')) k' := by
  intro p v hv type'
  unfold vectorsAfter at hv
  simp only [hc, false_and, if_false] at hv
  obtain ⟨caller, hcaller, hareas⟩ := step_areas_of_specified hsp hs
  rw [hareas]
  by_cases hp : p = caller
  · subst hp
    rw [if_pos hcaller] at hv
    obtain ⟨u, hu, rfl⟩ := Option.map_eq_some_iff.mp hv
    obtain ⟨hold, hsound⟩ := hk p u hu type'
    dsimp only
    by_cases htype : type' = type
    · subst htype
      rw [hsp]
      cases hut : u type' with
      | none =>
        have hnone : k.procs.areas p type' = noAreas := by rw [hold, hut, Option.getD_none]
        rw [if_pos hnone]
        refine ⟨by simp, fun w' hw' => ?_⟩
        obtain rfl := Option.some.inj hw'
        exact hw
      | some w' =>
        have hsome : k.procs.areas p type' = w' := by rw [hold, hut, Option.getD_some]
        have hw' := hsound w' hut
        rw [if_neg (hsome.trans_ne hw'.ne_noAreas)]
        refine ⟨hsome, fun w'' hw'' => ?_⟩
        obtain rfl := Option.some.inj hw''
        exact hw'
    · rw [specified_ne hsp htype, Option.or_none]
      refine ⟨?_, hsound⟩
      split_ifs with hnone
      · simpa [htype] using hold
      · exact hold
  · have hcur : k.currentProcess ≠ some p := fun hcur =>
      hp (Option.some.inj (hcur.symm.trans hcaller))
    rw [if_neg hcur] at hv
    have hkept := hk p v hv type'
    split_ifs with hnone
    · rw [update_of_ne hp]
      exact hkept
    · exact hkept

lemma HasVectors.other (hk : HasVectors V k) (hc : ¬ IsCreate e)
    (hsp : ∀ type, specified type e = none) (hs : step m k e = some k') :
    HasVectors (vectorsAfter V (k, e, k')) k' := by
  intro p v hv type
  unfold vectorsAfter at hv
  simp only [hc, false_and, if_false, hsp, Option.or_none] at hv
  rw [step_areas_of_other hc hsp hs]
  split_ifs at hv with hcur
  · exact hk p v (by simpa using hv) type
  · exact hk p v hv type

/-- Each transition leaves the PCBs with the vectors its history says. -/
lemma HasVectors.step (hk : HasVectors V k) (he : Specifies e) (hs : step m k e = some k') :
    HasVectors (vectorsAfter V (k, e, k')) k' := by
  by_cases hc : IsCreate e
  · exact hk.create hc hs
  by_cases hsp : ∃ type w, specified type e = some w
  · obtain ⟨type, w, hw⟩ := hsp
    exact hk.specify hc (he type w hw) hw hs
  · have hnone : ∀ type, specified type e = none := by
      intro type
      by_contra hne
      obtain ⟨w, hw⟩ := Option.ne_none_iff_exists'.mp hne
      exact hsp ⟨type, w, hw⟩
    exact hk.other hc hnone hs

lemma vectors_snoc (h : History) (x : Kernel × Event × Kernel) :
    vectors (h ++ [x]) = vectorsAfter (vectors h) x := by
  simp [vectors]

lemma main_hasVectors (hmain : main m k₀ = some k) : HasVectors bootVectors k := by
  obtain ⟨k₁, hmain₁, hrep⟩ := main_sim m k₀
  obtain rfl := Option.some.inj (hmain.symm.trans hmain₁)
  intro p v hv type
  unfold bootVectors at hv
  split_ifs at hv with hp
  obtain rfl := Option.some.inj hv
  subst hp
  refine ⟨?_, by simp⟩
  have hold : (Nuc.boot m k₀).oldAreas 0 type = null := by
    unfold Nuc.boot Nuc.dispatch
    simp [Nuc.initial]
  have hnew : (Nuc.boot m k₀).newAreas 0 type = null := by
    unfold Nuc.boot Nuc.dispatch
    simp [Nuc.initial]
  rw [hrep.data_eq] at hold hnew
  unfold ProcTable.areas
  exact congrArg₂ Areas.mk hold hnew

lemma Reaches.hasVectors (hr : Reaches m (fun _ e => Specifies e) k₀ h k) :
    HasVectors (vectors h) k := by
  obtain ⟨k₁, hmain, hrun⟩ := hr
  induction hrun with
  | nil => exact main_hasVectors hmain
  | snoc _ he hs ih =>
    rw [vectors_snoc]
    exact ih.step he.2 hs

/-! ### Exceptions -/

lemma passUpOrDie_eq {area : OldArea} {oldArea : OldArea → State}
    (hc : k.currentProcess = some p) (hst : oldArea area = st) :
    passUpOrDie m area type { k with oldArea } =
      if NoVector (k.procs.oldAreas p) (k.procs.newAreas p) type then
        terminateProcess m (some p) { k with oldArea }
      else
        let states := update k.states (k.procs.oldAreas p type) st
        let st' := states (k.procs.newAreas p type)
        some { k with
          oldArea
          states
          procs := { k.procs with pS := update k.procs.pS p st' }
          cpu := .running st' } := by
  subst hst
  unfold passUpOrDie
  dsimp only
  rw [hc]
  rfl

lemma ne_calls {a0 : Word} (hn : ¬ (minSyscall ≤ a0 ∧ a0 ≤ maxSyscall)) :
    a0 ≠ createProcessNum ∧ a0 ≠ terminateProcessNum ∧ a0 ≠ verhogenNum ∧ a0 ≠ passerenNum ∧
      a0 ≠ exceptionStateVecNum ∧ a0 ≠ getCpuTimeNum ∧ a0 ≠ waitForClockNum ∧
      a0 ≠ waitForIoNum := by
  refine ⟨?_, ?_, ?_, ?_, ?_, ?_, ?_, ?_⟩ <;>
  · rintro rfl
    exact hn (by decide)

lemma step_raised (hr : raised e = some (type, st)) : ∃ area oldArea,
    oldArea area = st ∧ step m k e = passUpOrDie m area type { k with oldArea } := by
  cases e with
  | syscall s =>
    unfold raised at hr
    dsimp only at hr
    unfold step syscallHandler
    simp only [update_self]
    split_ifs at hr with hn hu
    · obtain ⟨rfl, rfl⟩ := Prod.mk.inj (Option.some.inj hr)
      rw [if_pos ⟨hu, hn⟩]
      exact ⟨.programTrap, _, update_self _ _ _, rfl⟩
    · obtain ⟨rfl, rfl⟩ := Prod.mk.inj (Option.some.inj hr)
      rw [if_neg fun h => hn h.2]
      obtain ⟨h1, h2, h3, h4, h5, h6, h7, h8⟩ := ne_calls hn
      unfold syscallSwitch
      rw [if_neg h1, if_neg h2, if_neg h3, if_neg h4, if_neg h5, if_neg h6, if_neg h7, if_neg h8]
      exact ⟨.syscall, _, update_self _ _ _, rfl⟩
  | programTrap s =>
    obtain ⟨rfl, rfl⟩ := Prod.mk.inj (Option.some.inj hr)
    exact ⟨.programTrap, _, update_self _ _ _, rfl⟩
  | tlbManagement s =>
    obtain ⟨rfl, rfl⟩ := Prod.mk.inj (Option.some.inj hr)
    exact ⟨.tlbManagement, _, update_self _ _ _, rfl⟩
  | _ => cases hr

lemma terminates_of_noVector (hc : k.currentProcess = some p) (hr : raised e = some (type, st))
    (hv : NoVector (k.procs.oldAreas p) (k.procs.newAreas p) type) : Terminates m k e p := by
  obtain ⟨area, oldArea, hst, hs⟩ := step_raised (m := m) (k := k) hr
  refine ⟨oldArea, ?_⟩
  rw [hs, passUpOrDie_eq hc hst]
  exact if_pos hv

lemma passesUp_of_sound (hc : k.currentProcess = some p) (hr : raised e = some (type, st))
    (hw : k.procs.areas p type = w) (hs : w.Sound) : PassesUp m k e p w st := by
  subst hw
  obtain ⟨area, oldArea, hst, hstep⟩ := step_raised (m := m) (k := k) hr
  refine ⟨oldArea, ?_⟩
  have hv : ¬ NoVector (k.procs.oldAreas p) (k.procs.newAreas p) type :=
    not_or.mpr ⟨hs.old, hs.new⟩
  have hne : k.procs.newAreas p type ≠ k.procs.oldAreas p type := Ne.symm hs.old_ne_new
  rw [hstep, passUpOrDie_eq hc hst]
  dsimp only
  rw [if_neg hv, update_of_ne hne]
  rfl

lemma terminates_of_specified (hc : k.currentProcess = some p)
    (hsp : specified type e = some w) (hne : k.procs.areas p type ≠ noAreas) :
    Terminates m k e p := by
  cases e with
  | syscall s =>
    obtain ⟨hcall, h5, htype, -⟩ := specified_eq_some_iff.mp hsp
    have ht : s.sA1.toNat < trapTypes := htype ▸ type.isLt
    obtain rfl : type = ⟨_, ht⟩ := Fin.ext htype.symm
    have hvec : ¬ (k.procs.oldAreas p ⟨_, ht⟩ = null ∧ k.procs.newAreas p ⟨_, ht⟩ = null) :=
      fun hnull => hne (congrArg₂ Areas.mk hnull.1 hnull.2)
    refine ⟨update (update k.oldArea .syscall s) .syscall s.advancePc, ?_⟩
    unfold step syscallHandler
    simp only [update_self]
    rw [if_neg hcall]
    unfold syscallSwitch
    simp only [h5]
    change exceptionStateVec m _ _ _ _ = _
    unfold exceptionStateVec
    simp only [hc, Option.bind_eq_bind, Option.bind_some]
    rw [dif_pos ht, if_neg hvec]
  | _ => cases hsp

lemma Terminates.free (ht : Terminates m k e p) (hrep : Rep k a) (hg : a.Good)
    (hc : k.currentProcess = some p) (hsafe : a.KillSafe p) :
    ∃ k', step m k e = some k' ∧ p ∈ k'.freePcbs := by
  obtain ⟨oldArea, hs⟩ := ht
  have hc' : a.currentProcess = some p := hrep.currentProcess_eq.symm.trans hc
  have hinv : Nuc.Inv { a with oldArea } := ⟨hg.inv.homes, hg.inv.waits, hg.inv.shape⟩
  obtain ⟨L, root, hh, htree⟩ := hrep
  have hrep' : Rep { k with oldArea } { a with oldArea } := ⟨L, root, hh.setOldArea oldArea, htree⟩
  have hsim := terminateProcess_sim (m := m) hrep' (hinv.doomed hc' hsafe)
  rw [← hs] at hsim
  cases hk : step m k e with
  | none =>
    rw [hk] at hsim
    cases hsim
  | some k' =>
    rw [hk] at hsim
    cases hsim with
    | some hr' =>
      refine ⟨k', rfl, ?_⟩
      rw [hr'.freePcbs_eq, Nuc.terminate, Nuc.dispatch_free]
      simp [Nuc.kill]

lemma dies_of_noVector {mem : Addr → Int} {old new : Fin trapTypes → Addr}
    (hr : raised e = some (type, st)) (hv : NoVector old new type) : Dies m mem old new e := by
  cases e with
  | syscall s =>
    unfold raised at hr
    unfold Dies
    dsimp only at hr ⊢
    split_ifs at hr with hn hu
    · obtain ⟨rfl, -⟩ := Prod.mk.inj (Option.some.inj hr)
      rw [if_pos ⟨hu, hn⟩]
      exact hv
    · obtain ⟨rfl, -⟩ := Prod.mk.inj (Option.some.inj hr)
      rw [if_neg fun h => hn h.2]
      obtain ⟨h1, h2, h3, h4, h5, h6, h7, h8⟩ := ne_calls hn
      unfold DiesInService
      rw [if_neg h1, if_neg h2, if_neg h3, if_neg h4, if_neg h5, if_neg h6, if_neg h7, if_neg h8]
      exact hv
  | programTrap s =>
    obtain ⟨rfl, -⟩ := Prod.mk.inj (Option.some.inj hr)
    exact hv
  | tlbManagement s =>
    obtain ⟨rfl, -⟩ := Prod.mk.inj (Option.some.inj hr)
    exact hv
  | _ => cases hr

lemma dies_of_specified {mem : Addr → Int} {old new : Fin trapTypes → Addr}
    (hsp : specified type e = some w) (hv : ¬ (old type = null ∧ new type = null)) :
    Dies m mem old new e := by
  cases e with
  | syscall s =>
    obtain ⟨hcall, h5, htype, -⟩ := specified_eq_some_iff.mp hsp
    unfold Dies
    dsimp only
    rw [if_neg hcall]
    unfold DiesInService
    simp only [h5]
    change ∀ h : s.sA1.toNat < trapTypes, _
    intro ht
    obtain rfl : type = ⟨_, ht⟩ := Fin.ext htype.symm
    exact hv
  | _ => cases hsp

/-- No transition of the history, nor the next one, is a stale termination. -/
def StaleFree (m : Machine) (h : History) (k : Kernel) (e : Event) : Prop :=
  (∀ x ∈ h, ¬ KillsStale m x.1 x.2.1) ∧ ¬ KillsStale m k e

/-- In every run whose SYS5 calls ask for areas that can be used, for the running process `p`: its
PCB has the vectors that its own SYS5 calls have asked for since it was created; an exception of
a type with a vector is passed up to it, and one of a type without a vector terminates `p`, as
does a second SYS5 for a type. Whoever is terminated is free, unless a termination was stale. -/
theorem pass_up_or_die (hr : Reaches m (fun _ e => Specifies e) k₀ h k)
    (hc : k.currentProcess = some p) (hv : vectors h p = some v) :
    (∀ type, k.procs.areas p type = (v type).getD noAreas) ∧
    (∀ e type st w, raised e = some (type, st) → v type = some w → PassesUp m k e p w st) ∧
    (∀ e type st, raised e = some (type, st) → v type = none → Terminates m k e p ∧
      (StaleFree m h k e → ∃ k', step m k e = some k' ∧ p ∈ k'.freePcbs)) ∧
    ∀ e type w, specified type e = some w → v type ≠ none → Terminates m k e p ∧
      (StaleFree m h k e → ∃ k', step m k e = some k' ∧ p ∈ k'.freePcbs) := by
  have hvec := hr.hasVectors p v hv
  have hfreed : ∀ e, Terminates m k e p →
      Dies m k.mem (k.procs.oldAreas p) (k.procs.newAreas p) e →
      StaleFree m h k e → ∃ k', step m k e = some k' ∧ p ∈ k'.freePcbs := by
    rintro e ht hd ⟨hstale, hs⟩
    obtain ⟨a, hrep, hg⟩ := (hr.strengthen hstale).rep fun _ _ hs => hs.2
    have hc' : a.currentProcess = some p := hrep.currentProcess_eq.symm.trans hc
    exact ht.free hrep hg hc (hrep.safe hg.inv hs p hc' ((hrep.dies_iff p).mpr hd))
  refine ⟨fun type => (hvec type).1, fun e type st w hraised hw => ?_,
    fun e type st hraised hnone => ?_, fun e type w hsp hsome => ?_⟩
  · have hareas : k.procs.areas p type = w := by rw [(hvec type).1, hw, Option.getD_some]
    exact passesUp_of_sound hc hraised hareas ((hvec type).2 w hw)
  · have hareas : k.procs.areas p type = noAreas := by
      rw [(hvec type).1, hnone, Option.getD_none]
    have hno : NoVector (k.procs.oldAreas p) (k.procs.newAreas p) type :=
      .inl (congrArg Areas.old hareas)
    have ht := terminates_of_noVector (m := m) hc hraised hno
    exact ⟨ht, hfreed e ht (dies_of_noVector hraised hno)⟩
  · obtain ⟨w', hw'⟩ := Option.ne_none_iff_exists'.mp hsome
    have hareas : k.procs.areas p type ≠ noAreas := by
      rw [(hvec type).1, hw', Option.getD_some]
      exact ((hvec type).2 w' hw').ne_noAreas
    have ht := terminates_of_specified (m := m) hc hsp hareas
    refine ⟨ht, hfreed e ht (dies_of_specified hsp fun hnull => hareas ?_)⟩
    exact congrArg₂ Areas.mk hnull.1 hnull.2

/-- The initial process specifies a vector for syscalls and creates a child. An unknown syscall of
the child, which has the processor next, terminates it: the vector of the parent does not count. -/
theorem pass_up_or_die_child : ∃ h k, Reaches demo (fun _ e => Specifies e) blankKernel h k ∧
    (vectors h 0).bind (fun v => v syscallException) = some ⟨0x20030000, 0x20040000⟩ ∧
    k.currentProcess = some 1 ∧ Terminates demo k (sys 9 0 0 0) 1 := by
  obtain ⟨h, k, hr, hq⟩ := exists_reaches (P := fun _ e => Specifies e) demo blankKernel
    (fun k e => Deliverable demo k e ∧ Specifies e)
    [sys 5 2 0x20030000 0x20040000, sys 1 0x20050000 0 0, irq 0x200]
    (fun h k => (vectors h 0).bind (fun v => v syscallException) = some ⟨0x20030000, 0x20040000⟩ ∧
      k.currentProcess = some 1 ∧ (vectors h 1).map (fun v => v syscallException) = some none)
    (fun _ _ hok => hok) (by decide +kernel)
  obtain ⟨hparent, hc, hchild⟩ := of_decide_eq_true hq
  obtain ⟨v, hv, hnone⟩ := Option.map_eq_some_iff.mp hchild
  have hraised : raised (sys 9 0 0 0) = some (syscallException, _) := rfl
  exact ⟨h, k, hr, hparent, hc, ((pass_up_or_die hr hc hv).2.2.1 _ _ _ hraised hnone).1⟩

end Kaya
