import Kaya.Support.Handover

/-!
# Phase 3 as a run of the support level

What holds between the creation of the user processes and the end of `test`, and what the steps
of `test`, `uProcInit` and the user processes are as steps of the support level.
-/

namespace Kaya.Support

open Function Linked

variable {n : Nat}

/-- How many of the P's of `masterSema4` have been done. -/
def TestStage.taken (n : Nat) : TestStage → Nat
  | .globals | .create _ => 0
  | .passeren i | .waiting i => i
  | .terminate | .gone => n

/-- The vector of the exception type has been set. -/
def InitStage.Set : InitStage → Fin trapTypes → Prop
  | .absent, _ | .entry, _ => False
  | .vector type, type' => type' < type
  | .entered, _ => True

namespace Sys

/-- `masterSema4` counts the processes that have done their V of it. -/
def Counted (s : Sys n) : Prop :=
  s.masterSema4 = (Finset.univ.filter fun p => (s.control p).Released).card

lemma Counted.step {b : Board n} {s s' : Sys n} {e : Event n} (hs : s.Counted)
    (h : s.step b e = some s') : s'.Counted := by
  by_cases hends : Phase3.Ends s e
  · obtain ⟨p, -, hc, rfl⟩ := step_ends hends h
    have hbefore : ¬ (s.control p).Released := by
      rw [hc]
      exact not_false
    have hp : p ∉ Finset.univ.filter fun q => (s.control q).Released := by
      simpa using hbefore
    have hreleased : (Finset.univ.filter fun q => (update s.control p .ending q).Released) =
        insert p (Finset.univ.filter fun q => (s.control q).Released) := by
      ext q
      by_cases hq : q = p
      · subst hq
        have hafter : Control.ending.Released := trivial
        simpa using hafter
      · simp [hq]
    change s.masterSema4 + 1 =
      (Finset.univ.filter fun q => (update s.control p .ending q).Released).card
    rw [hreleased, Finset.card_insert_of_notMem hp, Nat.cast_succ, ← hs]
  · obtain ⟨hmaster, hreleased⟩ := step_released hends h
    rw [Counted, hmaster, hs]
    simp only [hreleased]

end Sys

namespace Phase3

/-- The support level as the processes that have entered `readTape` see it. -/
def view (s : Phase3 n) : Sys n :=
  s.sys.view (fun p => s.init p = .entered) (s.test.taken n)

/-- The process has done its V of `masterSema4`. -/
def Ended (s : Phase3 n) (p : Fin n) : Prop :=
  s.init p = .entered ∧ (s.sys.control p).Released

instance (s : Phase3 n) (p : Fin n) : Decidable (s.Ended p) :=
  inferInstanceAs (Decidable (_ ∧ _))

/-- The value of `masterSema4`, by what `test` is doing. -/
def Settled (s : Phase3 n) : Prop :=
  match s.test with
  | .waiting i => s.sys.masterSema4 = -1 ∧ i ≤ n
  | .create k => 0 ≤ s.sys.masterSema4 ∧ k ≤ n
  | .passeren i => 0 ≤ s.sys.masterSema4 ∧ i ≤ n
  | _ => 0 ≤ s.sys.masterSema4

/-- What `test` and `uProcInit` have set up for a process that has been created. -/
structure Readied (img : Image) (s : Phase3 n) (p : Fin n) : Prop where
  procState : ∃ st, s.procState p = img.procState (p + 1) st
  newAreas : s.init p ≠ .entry → ∀ type, ∃ st, s.newAreas p type = img.newArea (p + 1) type st
  set : ∀ type, (s.init p).Set type → s.vectors p type = some (p, type)
  unset : ∀ type, ¬ (s.init p).Set type → s.vectors p type = none
  tables : s.init p ≠ .entered → s.sys.kuseg2PT p = initialKuseg2PT (p + 1)

/-- What holds once the globals are set. -/
structure Going (img : Image) (s : Phase3 n) : Prop where
  set : s.test ≠ .globals
  created : ∀ p, s.init p = .absent ↔ ∃ k, s.test = .create k ∧ k ≤ p
  readied : ∀ p, s.init p ≠ .absent → s.Readied img p
  within : s.sys.Within fun p => s.init p = .entered
  settled : s.Settled
  counted : s.view.Counted

section View

variable {s s' : Phase3 n} {p : Fin n}

lemma view_released_iff : (s.view.control p).Released ↔ s.Ended p := by
  by_cases hp : s.init p = .entered
  · simp [view, Ended, hp]
  · simp [view, Sys.view, Ended, hp, Control.Released]

lemma view_eq (hinit : ∀ q, s'.init q = .entered ↔ s.init q = .entered)
    (hcontrol : ∀ q, s.init q = .entered → s'.sys.control q = s.sys.control q)
    (htables : ∀ q, s.init q = .entered → s'.sys.kuseg2PT q = s.sys.kuseg2PT q)
    (hmaster : s'.sys.masterSema4 + s'.test.taken n = s.sys.masterSema4 + s.test.taken n)
    (hrest : s'.sys = { s.sys with
      control := s'.sys.control
      kuseg2PT := s'.sys.kuseg2PT
      masterSema4 := s'.sys.masterSema4 }) : s'.view = s.view := by
  have hcontrol' : s'.view.control = s.view.control := by
    funext q
    by_cases hq : s.init q = .entered
    · simp [view, Sys.view, hq, (hinit q).mpr hq, hcontrol q hq]
    · simp [view, Sys.view, hq, mt (hinit q).mp hq]
  have htables' : s'.view.kuseg2PT = s.view.kuseg2PT := by
    funext q
    by_cases hq : s.init q = .entered
    · simp [view, Sys.view, hq, (hinit q).mpr hq, htables q hq]
    · simp [view, Sys.view, hq, mt (hinit q).mp hq]
  have hview : s'.view = { s'.sys with
      control := s'.view.control
      kuseg2PT := s'.view.kuseg2PT
      masterSema4 := s'.sys.masterSema4 + s'.test.taken n } := rfl
  rw [hview, hcontrol', htables', hmaster, hrest]
  rfl

lemma Readied.congr {img : Image} (h : s.Readied img p) (hinit : s'.init p = s.init p)
    (hproc : s'.procState p = s.procState p) (hareas : s'.newAreas p = s.newAreas p)
    (hvectors : s'.vectors p = s.vectors p)
    (htables : s.init p ≠ .entered → s'.sys.kuseg2PT p = s.sys.kuseg2PT p) :
    s'.Readied img p where
  procState := hproc ▸ h.procState
  newAreas := by
    rw [hinit, hareas]
    exact h.newAreas
  set := by
    rw [hinit, hvectors]
    exact h.set
  unset := by
    rw [hinit, hvectors]
    exact h.unset
  tables := by
    rw [hinit]
    exact fun hne => (htables hne).trans (h.tables hne)

lemma Readied.whoAmI {img : Image} (hn : n ≤ 63) (h : s.Readied img p) :
    s.whoAmI p = some p := by
  obtain ⟨st, hst⟩ := h.procState
  have hasid : (s.procState p).sAsid = entryHi p := by
    rw [hst]
    rfl
  rw [Phase3.whoAmI, hasid, procOf_asid hn]

lemma Going.ended {img : Image} (h : s.Going img) (htest : s.test.taken n = n)
    (hmaster : 0 ≤ s.sys.masterSema4) (p : Fin n) : s.Ended p := by
  have hcount : s.sys.masterSema4 + s.test.taken n =
    (Finset.univ.filter fun p => (s.view.control p).Released).card := h.counted
  have hle := Finset.card_filter_le (Finset.univ : Finset (Fin n)) fun p =>
    (s.view.control p).Released
  have hcard : (Finset.univ : Finset (Fin n)).card = n := Finset.card_fin n
  have hall := Finset.filter_card_eq (s := Finset.univ) (p := fun p => (s.view.control p).Released)
    (by omega)
  exact view_released_iff.mp (hall p (Finset.mem_univ p))

lemma Going.not_ended {img : Image} {i : Nat} (h : s.Going img) (htest : s.test = .waiting i) :
    ∃ p, ¬ s.Ended p := by
  by_contra hall
  push Not at hall
  have hsettled := h.settled
  have hcount : s.sys.masterSema4 + s.test.taken n =
    (Finset.univ.filter fun p => (s.view.control p).Released).card := h.counted
  rw [Finset.filter_true_of_mem fun p _ => view_released_iff.mpr (hall p),
    Finset.card_fin, htest, TestStage.taken] at hcount
  rw [Settled, htest] at hsettled
  dsimp only at hsettled
  omega

end View

section Steps

variable {b : Board n} {img : Image} {s s' : Phase3 n} {p : Fin n}

/-! ### `test` -/

lemma Going.goes_test (h : s.Going img) {test : TestStage} {masterSema4 : Int}
    (hset : test ≠ .globals)
    (hcreated : ∀ p : Fin n, (∃ k, test = .create k ∧ k ≤ p) ↔ ∃ k, s.test = .create k ∧ k ≤ p)
    (hsettled : Settled { s with test, sys := { s.sys with masterSema4 } })
    (hsum : masterSema4 + test.taken n = s.sys.masterSema4 + s.test.taken n) :
    Going img { s with test, sys := { s.sys with masterSema4 } } ∧
      view { s with test, sys := { s.sys with masterSema4 } } = s.view := by
  have hview : view { s with test, sys := { s.sys with masterSema4 } } = s.view :=
    view_eq (fun _ => Iff.rfl) (fun _ _ => rfl) (fun _ _ => rfl) hsum rfl
  exact ⟨⟨hset, fun p => (h.created p).trans (hcreated p).symm,
    fun p hp => (h.readied p hp).congr rfl rfl rfl rfl fun _ => rfl, h.within, hsettled,
    hview ▸ h.counted⟩, hview⟩

lemma pcbs_lt (hn : n ≤ numDevicesPerType) (s : Phase3 n) : s.pcbs < maxProc := by
  have hle := Finset.card_filter_le (Finset.univ : Finset (Fin n)) s.Lives
  rw [Finset.card_fin] at hle
  have hmax : numDevicesPerType + 1 < maxProc := by decide
  unfold pcbs
  omega

lemma Going.createProcess (hn : n ≤ numDevicesPerType) (h : s.Going img)
    (htest : s.test = .create p) :
    (s.createProcess img p).Going img ∧ (s.createProcess img p).view = s.view := by
  have habsent : s.init p = .absent := (h.created p).mpr ⟨p, htest, le_rfl⟩
  have hne : ∀ q, s.init q = .entered → q ≠ p := by
    rintro q hq rfl
    rw [habsent] at hq
    cases hq
  let t : Phase3 n := { s with
    test := .create (p + 1)
    initialState := img.procState (p + 1) s.initialState
    init := update s.init p .entry
    procState := update s.procState p (img.procState (p + 1) s.initialState)
    vectors := update s.vectors p fun _ => none
    sys := { s.sys with kuseg2PT := update s.sys.kuseg2PT p (initialKuseg2PT (p + 1)) } }
  have heq : s.createProcess img p = t := if_pos (pcbs_lt hn _)
  have hinit : ∀ q ≠ p, t.init q = s.init q := fun q hq => update_of_ne hq _ _
  have hself : t.init p = .entry := update_self _ _ _
  have hentered : ∀ q, t.init q = .entered ↔ s.init q = .entered := by
    intro q
    by_cases hq : q = p
    · subst hq
      simp [hself, habsent]
    · rw [hinit q hq]
  have hview : t.view = s.view := view_eq hentered (fun _ _ => rfl)
    (fun q hq => update_of_ne (hne q hq) _ _) (by rw [htest]; rfl) rfl
  rw [heq]
  refine ⟨⟨by simp [t], fun q => ?_, fun q hq => ?_, fun f q hq => ?_, ?_, hview ▸ h.counted⟩,
    hview⟩
  · have hcreated := h.created q
    rw [htest] at hcreated
    by_cases hq : q = p
    · subst hq
      simp [t]
    · have hval : (q : Nat) ≠ p := fun he => hq (Fin.ext he)
      rw [hinit q hq, hcreated]
      simp only [t, TestStage.create.injEq, exists_eq_left']
      omega
  · by_cases hqp : q = p
    · subst hqp
      have hnone : t.vectors q = fun _ => none := update_self _ _ _
      refine ⟨⟨s.initialState, update_self _ _ _⟩, fun hne => absurd hself hne, fun type hset => ?_,
        fun type _ => congrFun hnone type, fun _ => update_self _ _ _⟩
      rw [hself] at hset
      exact hset.elim
    · rw [hinit q hqp] at hq
      exact (h.readied q hq).congr (hinit q hqp) (update_of_ne hqp _ _) rfl (update_of_ne hqp _ _)
        fun _ => update_of_ne hqp _ _
  · exact (hentered q).mpr (h.within f q hq)
  · have hsettled := h.settled
    rw [Settled, htest] at hsettled
    exact ⟨hsettled.1, p.isLt⟩

lemma Going.runTest (hn : n ≤ numDevicesPerType) (h : s.Going img)
    (hs : s.runTest img = some s') : s'.Going img ∧ s'.view = s.view := by
  have hsettled := h.settled
  rw [Settled] at hsettled
  cases htest : s.test with
  | globals => exact absurd htest h.set
  | create k =>
    rw [htest] at hsettled
    simp only [Phase3.runTest, htest] at hs
    split_ifs at hs with hk
    · obtain rfl := Option.some.inj hs
      exact h.createProcess hn (p := ⟨k, hk⟩) htest
    · obtain rfl := Option.some.inj hs
      refine h.goes_test (by simp) (fun p => ?_) ⟨hsettled.1, Nat.zero_le n⟩ (by rw [htest]; rfl)
      have hp := p.isLt
      simp only [htest, reduceCtorEq, false_and, exists_false, TestStage.create.injEq,
        exists_eq_left', false_iff]
      omega
  | passeren i =>
    rw [htest] at hsettled
    simp only [Phase3.runTest, htest] at hs
    split_ifs at hs with hi hneg
    · obtain rfl := Option.some.inj hs
      refine h.goes_test (by simp) (fun p => by simp [htest]) ⟨?_, hi⟩ ?_
      · have hpos := hsettled.1
        change s.sys.masterSema4 - 1 < 0 at hneg
        change s.sys.masterSema4 - 1 = -1
        omega
      · rw [htest]
        change s.sys.masterSema4 - 1 + ((i + 1 : Nat) : Int) = s.sys.masterSema4 + i
        omega
    · obtain rfl := Option.some.inj hs
      refine h.goes_test (by simp) (fun p => by simp [htest]) ⟨?_, hi⟩ ?_
      · exact not_lt.mp hneg
      · rw [htest]
        change s.sys.masterSema4 - 1 + ((i + 1 : Nat) : Int) = s.sys.masterSema4 + i
        omega
    · obtain rfl := Option.some.inj hs
      refine h.goes_test (by simp) (fun p => by simp [htest]) hsettled.1 ?_
      have hle := hsettled.2
      rw [htest]
      change s.sys.masterSema4 + (n : Int) = s.sys.masterSema4 + i
      omega
  | waiting i => simp [Phase3.runTest, htest] at hs
  | terminate =>
    rw [htest] at hsettled
    simp only [Phase3.runTest, htest] at hs
    obtain rfl := Option.some.inj hs
    exact h.goes_test (by simp) (fun p => by simp [htest]) hsettled (by rw [htest]; rfl)
  | gone => simp [Phase3.runTest, htest] at hs

/-! ### `uProcInit` -/

lemma Going.goes_init (h : s.Going img) (hp : s.init p ≠ .absent) (hp' : s'.init p ≠ .absent)
    (htest : s'.test = s.test) (hinit : ∀ q ≠ p, s'.init q = s.init q)
    (hproc : s'.procState = s.procState) (hareas : ∀ q ≠ p, s'.newAreas q = s.newAreas q)
    (hvectors : ∀ q ≠ p, s'.vectors q = s.vectors q)
    (hmaster : s'.sys.masterSema4 = s.sys.masterSema4)
    (htables : s'.sys.kuseg2PT = s.sys.kuseg2PT) (hready : s'.Readied img p)
    (hwithin : s'.sys.Within fun p => s'.init p = .entered) (hview : s'.view = s.view) :
    s'.Going img where
  set := htest ▸ h.set
  created := fun q => by
    rw [htest, ← h.created q]
    by_cases hq : q = p
    · subst hq
      exact iff_of_false hp' hp
    · rw [hinit q hq]
  readied := fun q hne => by
    by_cases hq : q = p
    · exact hq ▸ hready
    · rw [hinit q hq] at hne
      exact (h.readied q hne).congr (hinit q hq) (congrFun hproc q) (hareas q hq) (hvectors q hq)
        fun _ => congrFun htables q
  within := hwithin
  settled := by
    have hsettled := h.settled
    unfold Settled at hsettled ⊢
    rw [htest, hmaster]
    exact hsettled
  counted := hview ▸ h.counted

lemma Readied.exceptionStateVec {type : Fin trapTypes} (h : s.Readied img p)
    (hinit : s.init p = .vector type) (q : Fin n) (next : InitStage) :
    s.exceptionStateVec p q type next = { s with
      vectors := update s.vectors p (update (s.vectors p) type (some (q, type)))
      init := update s.init p next } :=
  if_pos (h.unset type (by rw [hinit]; exact lt_irrefl type))

lemma Going.goes_stage (h : s.Going img) (habsent : s.init p ≠ .absent)
    (hentry : s.init p ≠ .entered) (next : Fin trapTypes) (areas : Fin trapTypes → State)
    (vectors : Fin trapTypes → Option (Fin n × Fin trapTypes))
    (hs' : s' = { s with
      newAreas := update s.newAreas p areas
      vectors := update s.vectors p vectors
      init := update s.init p (.vector next) }) (hready : s'.Readied img p) :
    s'.Going img ∧ s'.view = s.view := by
  subst hs'
  have hself : update s.init p (.vector next) p = .vector next := update_self _ _ _
  have hentered : ∀ q, update s.init p (.vector next) q = .entered ↔ s.init q = .entered := by
    intro q
    by_cases hq : q = p
    · subst hq
      simp [hentry]
    · rw [update_of_ne hq]
  have hview : view { s with
      newAreas := update s.newAreas p areas
      vectors := update s.vectors p vectors
      init := update s.init p (.vector next) } = s.view :=
    view_eq hentered (fun _ _ => rfl) (fun _ _ => rfl) rfl rfl
  refine ⟨h.goes_init (p := p) habsent ?_ rfl (fun q hq => update_of_ne hq _ _) rfl
    (fun q hq => update_of_ne hq _ _) (fun q hq => update_of_ne hq _ _) rfl rfl hready ?_ hview,
    hview⟩
  · exact fun he => InitStage.noConfusion (hself.symm.trans he)
  · exact fun f q hq => (hentered q).mpr (h.within f q hq)

lemma Going.goes_entry (h : s.Going img) (hinit : s.init p = .entry)
    (hs' : s' = { s with
      newAreas := update s.newAreas p fun type => img.newArea (p + 1) type (s.newAreas p type)
      init := update s.init p (.vector tlbException) }) : s'.Going img ∧ s'.view = s.view := by
  have hready := h.readied p (by simp [hinit])
  have hself : s'.init p = .vector tlbException := by
    rw [hs']
    exact update_self _ _ _
  have hnone (type : Fin trapTypes) : s'.vectors p type = none := by
    rw [hs']
    exact hready.unset type (by simp [hinit, InitStage.Set])
  refine h.goes_stage (p := p) (by simp [hinit]) (by simp [hinit]) tlbException
    (fun type => img.newArea (p + 1) type (s.newAreas p type)) (s.vectors p)
    (hs'.trans (by rw [update_eq_self]))
    ⟨?_, fun _ type => ⟨s.newAreas p type, ?_⟩, fun type hset => ?_, fun type _ => hnone type,
      fun _ => ?_⟩
  · rw [hs']
    exact hready.procState
  · rw [hs']
    exact congrFun (update_self p _ s.newAreas) type
  · rw [hself] at hset
    exact absurd hset (Fin.not_lt_zero type)
  · rw [hs']
    exact hready.tables (by simp [hinit])

lemma Going.goes_vector (h : s.Going img) {type next : Fin trapTypes}
    (hinit : s.init p = .vector type) (hnext : ∀ type', type' < next ↔ type' = type ∨ type' < type)
    (hs' : s' = s.exceptionStateVec p p type (.vector next)) :
    s'.Going img ∧ s'.view = s.view := by
  have hready := h.readied p (by simp [hinit])
  rw [hready.exceptionStateVec hinit] at hs'
  have hself : s'.init p = .vector next := by
    rw [hs']
    exact update_self _ _ _
  have hvectors : s'.vectors p = update (s.vectors p) type (some (p, type)) := by
    rw [hs']
    exact update_self _ _ _
  refine h.goes_stage (p := p) (by simp [hinit]) (by simp [hinit]) next (s.newAreas p) _
    (hs'.trans (by rw [update_eq_self]))
    ⟨?_, fun _ => ?_, fun type' hset => ?_, fun type' hset => ?_, fun _ => ?_⟩
  · rw [hs']
    exact hready.procState
  · rw [hs']
    exact hready.newAreas (by simp [hinit])
  · rw [hself] at hset
    rw [hvectors]
    by_cases htype : type' = type
    · rw [htype, update_self]
    · rw [update_of_ne htype]
      refine hready.set type' ?_
      rw [hinit]
      exact ((hnext type').mp hset).resolve_left htype
  · rw [hself] at hset
    have hnot := not_or.mp (mt (hnext type').mpr hset)
    rw [hvectors, update_of_ne hnot.1]
    exact hready.unset type' (by rw [hinit]; exact hnot.2)
  · rw [hs']
    exact hready.tables (by simp [hinit])

lemma lt_syscallException {type : Fin trapTypes} (h : type ≠ syscallException) :
    type < syscallException := by
  revert type
  decide

lemma eq_syscallException {type : Fin trapTypes} (htlb : type ≠ tlbException)
    (htrap : type ≠ programTrapException) : type = syscallException := by
  revert type
  decide

lemma Going.goes_tape (h : s.Going img) (hinit : s.init p = .vector syscallException) :
    ((s.exceptionStateVec p p syscallException (.vector syscallException)).enterTape p).Going img ∧
      ((s.exceptionStateVec p p syscallException (.vector syscallException)).enterTape p).view =
        s.view := by
  have hne : s.init p ≠ .absent := by simp [hinit]
  have hready := h.readied p hne
  let t : Phase3 n := { s with
    vectors :=
      update s.vectors p (update (s.vectors p) syscallException (some (p, syscallException)))
    init := update s.init p .entered
    sys := s.sys.goto p (.readTape 0 .read) }
  have heq : (s.exceptionStateVec p p syscallException (.vector syscallException)).enterTape p =
      t := by
    rw [hready.exceptionStateVec hinit, enterTape, if_neg (by simp), update_idem]
  have hself : t.init p = .entered := update_self _ _ _
  have hother : ∀ q ≠ p, t.init q = s.init q := fun q hq => update_of_ne hq _ _
  have hcontrol : t.view.control = s.view.control := by
    funext q
    by_cases hq : q = p
    · subst hq
      simp [view, Sys.view, hinit, t]
    · simp [view, Sys.view, t, hq, Sys.goto_control_of_ne]
  have htables : t.view.kuseg2PT = s.view.kuseg2PT := by
    funext q
    by_cases hq : q = p
    · subst hq
      simp [view, Sys.view, hinit, t, Sys.goto, hready.tables]
    · simp [view, Sys.view, t, hq, Sys.goto]
  have hview : t.view = s.view := by
    have ht : t.view = { s.view with
      control := t.view.control
      kuseg2PT := t.view.kuseg2PT } := rfl
    rw [ht, hcontrol, htables]
  rw [heq]
  refine ⟨h.goes_init (p := p) hne (by simp [hself]) rfl hother rfl (fun q hq => rfl)
    (fun q hq => update_of_ne hq _ _) rfl rfl ?_ ?_ hview, hview⟩
  · refine ⟨hready.procState, fun _ => hready.newAreas (by simp [hinit]), fun type _ => ?_,
      fun type hset => ?_, fun hne => absurd hself hne⟩
    · have hvectors : t.vectors p =
        update (s.vectors p) syscallException (some (p, syscallException)) := update_self _ _ _
      rw [hvectors]
      by_cases htype : type = syscallException
      · subst htype
        exact update_self _ _ _
      · rw [update_of_ne htype]
        refine hready.set type ?_
        rw [hinit]
        exact lt_syscallException htype
    · rw [hself] at hset
      exact absurd trivial hset
  · intro f q hq
    by_cases hqp : q = p
    · exact hqp ▸ hself
    · rw [hother q hqp]
      exact h.within f q hq

lemma Going.runInit (hn : n ≤ 63) (h : s.Going img) (hs : s.runInit img p = some s') :
    s'.Going img ∧ s'.view = s.view := by
  cases hinit : s.init p with
  | absent => simp [Phase3.runInit, hinit] at hs
  | entered => simp [Phase3.runInit, hinit] at hs
  | entry =>
    have hready := h.readied p (by simp [hinit])
    simp only [Phase3.runInit, hinit, hready.whoAmI hn, Option.bind_eq_bind, Option.bind_some] at hs
    exact h.goes_entry hinit (Option.some.inj hs).symm
  | vector type =>
    have hready := h.readied p (by simp [hinit])
    simp only [Phase3.runInit, hinit, hready.whoAmI hn, Option.bind_eq_bind, Option.bind_some] at hs
    split_ifs at hs with htlb htrap
    · subst htlb
      exact h.goes_vector hinit (by decide) (Option.some.inj hs).symm
    · subst htrap
      exact h.goes_vector hinit (by decide) (Option.some.inj hs).symm
    · obtain rfl := eq_syscallException htlb htrap
      obtain rfl := Option.some.inj hs
      exact h.goes_tape hinit

/-! ### The user processes -/

lemma wakeTest_view (s : Phase3 n) : s.wakeTest.view = s.view := by
  unfold wakeTest
  split
  · split
    · refine view_eq (fun _ => Iff.rfl) (fun _ _ => rfl) (fun _ _ => rfl) ?_ rfl
      simp_all [TestStage.taken]
    · rfl
  · rfl

/-- Two states that differ in `test` and `sys` only. -/
structure SameSetup (s s' : Phase3 n) : Prop where
  init : s'.init = s.init
  procState : s'.procState = s.procState
  newAreas : s'.newAreas = s.newAreas
  vectors : s'.vectors = s.vectors
  globals : s.test ≠ .globals → s'.test ≠ .globals
  create : ∀ k, s'.test = .create k ↔ s.test = .create k

lemma wakeTest_sameSetup (s : Phase3 n) (sys : Sys n) :
    SameSetup s (wakeTest { s with sys }) := by
  unfold wakeTest
  split
  · split
    · constructor <;> simp_all
    · exact ⟨rfl, rfl, rfl, rfl, id, fun _ => Iff.rfl⟩
  · exact ⟨rfl, rfl, rfl, rfl, id, fun _ => Iff.rfl⟩

lemma wakeTest_sys (s : Phase3 n) : s.wakeTest.sys = s.sys := by
  unfold wakeTest
  split
  · split <;> rfl
  · rfl

lemma Settled.wakeTest (h : s.Settled) {sys : Sys n}
    (hmaster : sys.masterSema4 = s.sys.masterSema4 + 1) :
    Settled (wakeTest { s with sys }) := by
  unfold Phase3.wakeTest
  cases htest : s.test with
  | waiting i =>
    rw [Settled, htest] at h
    dsimp only at h ⊢
    rw [if_pos (by omega)]
    refine ⟨?_, h.2⟩
    dsimp only
    omega
  | _ =>
    rw [Settled, htest] at h
    simp only [Settled]
    omega

/-- A step of a process that has entered `readTape`, of the disk or of the TLB. -/
lemma Going.user (h : s.Going img) {e : Event n} {sys : Sys n} (he : s.Entered e)
    (hs : s.sys.step b e = some sys)
    (hs' : s' = if Ends s.sys e then wakeTest { s with sys } else { s with sys }) :
    s'.Going img ∧ s.view.step b e = some s'.view := by
  have hentered : ∀ p ∈ e.process, s.init p = .entered := fun p hp => (he p hp).2
  have hapart := (Sys.step_moves hs).apart hentered h.within
  have hstep : s.view.step b e = some (view { s with sys }) := by
    have hview : (s.sys.step b e).map (Sys.view (fun p => s.init p = .entered) (s.test.taken n)) =
      s.view.step b e := Sys.view_step hentered h.within
    rw [hs] at hview
    exact hview.symm
  have hview : s'.view = view { s with sys } := by
    rw [hs']
    split
    · exact wakeTest_view _
    · rfl
  have hsys : s'.sys = sys := by
    rw [hs']
    split
    · exact wakeTest_sys _
    · rfl
  have hsame : SameSetup s s' := by
    rw [hs']
    split
    · exact wakeTest_sameSetup s sys
    · exact ⟨rfl, rfl, rfl, rfl, id, fun _ => Iff.rfl⟩
  have hsettled : s'.Settled := by
    rw [hs']
    split
    · rename_i hends
      obtain ⟨p, -, -, rfl⟩ := Sys.step_ends hends hs
      exact h.settled.wakeTest rfl
    · rename_i hends
      have hsettled := h.settled
      unfold Settled at hsettled ⊢
      rw [(Sys.step_released hends hs).1]
      exact hsettled
  refine ⟨⟨hsame.globals h.set, fun p => ?_, fun p hp => ?_, ?_, hsettled, ?_⟩, hview ▸ hstep⟩
  · rw [hsame.init, h.created p]
    simp only [hsame.create]
  · rw [hsame.init] at hp
    refine (h.readied p hp).congr (congrFun hsame.init p) (congrFun hsame.procState p)
      (congrFun hsame.newAreas p) (congrFun hsame.vectors p) fun hne => ?_
    rw [hsys]
    exact hapart.kuseg2PT p hne
  · rw [hsys, hsame.init]
    exact hapart.within
  · exact hview ▸ h.counted.step hstep

/-! ### Runs -/

/-- A step is one of the support level, or none. -/
theorem Going.step (hn : n ≤ numDevicesPerType) (h : s.Going img) {a : Doing n}
    (hs : s.step b img a = some s') :
    s'.Going img ∧ ((∀ e, a ≠ .user e) ∧ s'.view = s.view ∨
      ∃ e, a = .user e ∧ s.view.step b e = some s'.view) := by
  cases a with
  | test =>
    obtain ⟨hgoing, hview⟩ := h.runTest hn hs
    exact ⟨hgoing, .inl ⟨by simp, hview⟩⟩
  | init p =>
    obtain ⟨hgoing, hview⟩ := h.runInit b.procCnt_le (Option.ite_none_right_eq_some.mp hs).2
    exact ⟨hgoing, .inl ⟨by simp, hview⟩⟩
  | user e =>
    have he : s.Entered e := by
      by_contra he
      simp [Phase3.step, he] at hs
    rw [Phase3.step, if_pos he] at hs
    obtain ⟨sys, hsys, hs⟩ := Option.bind_eq_some_iff.mp hs
    obtain ⟨hgoing, hstep⟩ := h.user he hsys (Option.some.inj hs).symm
    exact ⟨hgoing, .inr ⟨e, rfl, hstep⟩⟩

/-- Until the globals are set nothing else happens. -/
lemma Start.step (h : s.Start) {a : Doing n} (hs : s.step b img a = some s') :
    a = .test ∧ s' = s.setGlobals ∨ s' = s := by
  cases a with
  | test =>
    simp only [Phase3.step, Phase3.runTest, h.test] at hs
    exact .inl ⟨rfl, (Option.some.inj hs).symm⟩
  | init p => simp [Phase3.step, Phase3.runInit, h.init p] at hs
  | user e =>
    have he : s.Entered e := by
      by_contra he
      simp [Phase3.step, he] at hs
    rw [Phase3.step, if_pos he] at hs
    obtain ⟨sys, hsys, hs⟩ := Option.bind_eq_some_iff.mp hs
    have hnone {p : Fin n} (hp : e.process = some p) : False := by
      have hentered := (he p hp).2
      rw [h.init p] at hentered
      cases hentered
    cases e with
    | disk =>
      simp only [Sys.step, Disk.complete, h.busy] at hsys
      cases hsys
    | forget i =>
      obtain rfl := Option.some.inj hsys
      have htlb : ({ s.sys with tlb := s.sys.tlb.eraseIdx i } : Sys n) = s.sys := by
        have herase : s.sys.tlb.eraseIdx i = s.sys.tlb := by rw [h.tlb, List.eraseIdx_nil]
        rw [herase]
      right
      rw [htlb] at hs
      exact (Option.some.inj hs).symm
    | _ => exact (hnone rfl).elim

lemma Start.setGlobals (img : Image) (h : s.Start) :
    s.setGlobals.Going img ∧ s.setGlobals.view.Fresh := by
  have hne (p : Fin n) : s.init p ≠ .entered := by simp [h.init p]
  have hcontrol (p : Fin n) : s.setGlobals.view.control p = .readTape 0 .read := if_neg (hne p)
  have hvacant (f : Fin poolSize) : (s.setGlobals.sys.frameSwapPool f).ASID = unoccupiedFrame := rfl
  refine ⟨⟨by simp [Phase3.setGlobals], fun p => ?_, fun p hp => absurd (h.init p) hp,
    fun f q hq => ?_, ⟨le_rfl, Nat.zero_le n⟩, ?_⟩, ⟨hcontrol, fun m => ?_, h.nextFrame, hvacant,
    fun p => if_neg (hne p), rfl, h.tlb, h.busy⟩⟩
  · simp [Phase3.setGlobals, h.init p]
  · rw [hvacant f] at hq
    simp [procOf, unoccupiedFrame] at hq
  · have hnone : (Finset.univ.filter fun p => (s.setGlobals.view.control p).Released) = ∅ := by
      simp [hcontrol, Control.Released]
    rw [Sys.Counted, hnone]
    rfl
  · cases m with
    | swapmutex => rfl
    | deviceSema4 i =>
      by_cases hi : i < deviceCount
      · exact if_pos hi
      · exact (if_neg hi).trans (h.behind i (not_lt.mp hi))

end Steps

end Phase3

end Kaya.Support
