import Kaya.Support.Tables

/-!
# The swap pool under its mutex

The frames, the page tables and the faults that are being served fit together: every page is
where a frame has it, and a page that a process is fetching is nowhere.
-/

namespace Kaya.Support

open Function Linked

variable {n : Nat} {b : Board n} {p q : Fin n} {u v : UPage n}

/-- The exception is one that the pager serves. -/
def Served (old : State) : Prop :=
  excCodeOf old.sCause = tlbInvalidLoad ∨ excCodeOf old.sCause = tlbInvalidStore

instance (old : State) : Decidable (Served old) := inferInstanceAs (Decidable (_ ∨ _))

/-- How far a process is with a fault: before the P of `swapmutex`, before it has chosen a
frame, or filling a frame. -/
inductive Phase
  | out
  | entering (old : State)
  | waiting (old : State)
  | filling (old : State) (f : Fin poolSize)

def TlbStage.phase (old : State) : TlbStage → Phase
  | .enter => .entering old
  | .check => .waiting old
  | .boot f _ _ => .filling old f
  | .booted f => .filling old f
  | .load f _ => .filling old f
  | .install f => .filling old f
  | .leave => .out

def Control.phase : Control → Phase
  | .tlb old _ stage => stage.phase old
  | _ => .out

namespace Phase

def Inside : Phase → Prop
  | .waiting _ | .filling _ _ => True
  | _ => False

/-- The page that `p` has faulted on must not be there. A shared page may be brought in by
another process until `p` has made its re-check. -/
def Misses (p : Fin n) (u : UPage n) : Phase → Prop
  | .out => False
  | .entering old => Served old ∧ faultPage p old = some u ∧ ∃ i, u = .priv p i
  | .waiting old => faultPage p old = some u ∧ ∃ i, u = .priv p i
  | .filling old _ => faultPage p old = some u

/-- A fault in the shared segment is on a page of its table. -/
def Known (p : Fin n) : Phase → Prop
  | .out => True
  | .entering old =>
    Served old → segmentOf old.sAsid = kuseg3 → ∃ i, faultPage p old = some (.shared i)
  | .waiting old | .filling old _ =>
    segmentOf old.sAsid = kuseg3 → ∃ i, faultPage p old = some (.shared i)

end Phase

lemma Control.inSwap_iff (c : Control) : c.InSwap ↔ c.phase.Inside := by
  cases c with
  | tlb old back stage => cases stage <;> exact Iff.rfl
  | _ => exact Iff.rfl

lemma Stages.phase_eq {job : Job} {control : IoStage → Control} (h : Stages b p job control)
    (stage stage' : IoStage) : (control stage).phase = (control stage').phase := by
  cases h <;> rfl

lemma faultPage_cases {old : State} (h : faultPage p old = some u) :
    (∃ i, u = .shared i) ∧ segmentOf old.sAsid = kuseg3 ∨ (∃ i, u = .priv p i) ∧
      segmentOf old.sAsid = kuseg2 := by
  unfold faultPage at h
  split_ifs at h with h3 h2
  · obtain ⟨i, -, rfl⟩ := Option.map_eq_some_iff.mp h
    exact .inl ⟨⟨i, rfl⟩, h3⟩
  · obtain ⟨i, -, rfl⟩ := Option.map_eq_some_iff.mp h
    exact .inr ⟨⟨i, rfl⟩, h2⟩

/-- A process is filling the frame. -/
def Busy (phase : Fin n → Phase) (f : Fin poolSize) : Prop := ∃ p old, phase p = .filling old f

/-- The faults of the processes, `swapmutex`, the pages that the frames have and where the page
tables say that pages are. -/
structure PoolLock (addr : Fin poolSize → Word) (phase : Fin n → Phase) (m : Semaphore (Fin n))
    (resident : Fin poolSize → Option (UPage n)) (place : UPage n → Option Word) : Prop where
  excludes : m.Excludes fun p => (phase p).Inside
  fresh : ∀ p ∈ m.waiters, ∃ old, phase p = .waiting old
  mirrors : Mirrors addr (Busy phase) resident place
  misses : ∀ p u, (phase p).Misses p u → place u = none
  known : ∀ p, (phase p).Known p

namespace PoolLock

variable {addr : Fin poolSize → Word} {phase : Fin n → Phase} {m : Semaphore (Fin n)}
  {resident : Fin poolSize → Option (UPage n)} {place : UPage n → Option Word} {ph : Phase}
  {old : State} {f g : Fin poolSize}

lemma busy_update (hp : ∀ old, phase p ≠ .filling old f) (hph : ∀ old, ph ≠ .filling old f) :
    Busy (update phase p ph) f ↔ Busy phase f := by
  have hone : ∀ q old, update phase p ph q = .filling old f ↔ phase q = .filling old f := by
    intro q old
    by_cases hq : q = p
    · subst hq
      rw [update_self]
      exact iff_of_false (hph old) (hp old)
    · rw [update_of_ne hq]
  unfold Busy
  simp only [hone]

lemma eq_of_filling (h : PoolLock addr phase m resident place) {old' : State}
    (hp : phase p = .filling old f) (hq : phase q = .filling old' g) : p = q := by
  have hin : ∀ {r : Fin n} {o : State} {k : Fin poolSize}, phase r = .filling o k →
      (phase r).Inside ∧ r ∉ m.waiters := by
    intro r o k hr
    refine ⟨?_, fun hw => ?_⟩
    · rw [hr]
      trivial
    · obtain ⟨o', ho'⟩ := h.fresh r hw
      rw [hr] at ho'
      cases ho'
  exact h.excludes.unique (hin hp).1 (hin hp).2 (hin hq).1 (hin hq).2

lemma not_busy (h : PoolLock addr phase m resident place) (hp : phase p = .waiting old)
    (hw : p ∉ m.waiters) : ¬ Busy phase f := by
  rintro ⟨q, old', hq⟩
  have hinp : (phase p).Inside := by
    rw [hp]
    trivial
  have hinq : (phase q).Inside := by
    rw [hq]
    trivial
  have hwq : q ∉ m.waiters := by
    intro hmem
    obtain ⟨o, ho⟩ := h.fresh q hmem
    rw [hq] at ho
    cases ho
  obtain rfl := h.excludes.unique hinp hw hinq hwq
  rw [hp] at hq
  cases hq

lemma misses_update (h : PoolLock addr phase m resident place)
    (hph : ∀ u, ph.Misses p u → place u = none) (u : UPage n)
    (hu : (update phase p ph q).Misses q u) : place u = none := by
  by_cases hq : q = p
  · subst hq
    rw [update_self] at hu
    exact hph u hu
  · rw [update_of_ne hq] at hu
    exact h.misses q u hu

lemma known_update (h : PoolLock addr phase m resident place) (hph : ph.Known p) (q : Fin n) :
    (update phase p ph q).Known q := by
  by_cases hq : q = p
  · subst hq
    rw [update_self]
    exact hph
  · rw [update_of_ne hq]
    exact h.known q

/-- A process goes from one phase to another without the mutex. -/
lemma turn (h : PoolLock addr phase m resident place) (hp : ¬ (phase p).Inside)
    (hph : ¬ ph.Inside) (hmisses : ∀ u, ph.Misses p u → place u = none) (hknown : ph.Known p) :
    PoolLock addr (update phase p ph) m resident place := by
  refine ⟨h.excludes.congr fun q => ?_, fun q hq => ?_, h.mirrors.congr fun f => ?_,
    fun q => h.misses_update hmisses, h.known_update hknown⟩
  · by_cases hq : q = p
    · subst hq
      rw [update_self]
      exact iff_of_false hph hp
    · rw [update_of_ne hq]
  · obtain ⟨old, hold⟩ := h.fresh q hq
    have hqp : q ≠ p := by
      rintro rfl
      rw [hold] at hp
      exact hp trivial
    exact ⟨old, by rw [update_of_ne hqp, hold]⟩
  · refine busy_update (fun old he => hp ?_) fun old he => hph ?_
    · rw [he]
      trivial
    · rw [he]
      trivial

lemma passeren (h : PoolLock addr phase m resident place) (hp : phase p = .entering old)
    (hserved : Served old) :
    PoolLock addr (update phase p (.waiting old)) (m.passeren p) resident place := by
  have hout : ¬ (phase p).Inside := by
    rw [hp]
    exact not_false
  refine ⟨h.excludes.passeren hout fun q => ?_, fun q hq => ?_, h.mirrors.congr fun f => ?_,
    fun q => h.misses_update fun u hu => ?_, h.known_update ?_⟩
  · by_cases hq : q = p
    · subst hq
      rw [update_self]
      exact iff_of_true trivial (.inl rfl)
    · rw [update_of_ne hq]
      simp [hq]
  · by_cases hqp : q = p
    · subst hqp
      exact ⟨old, update_self _ _ _⟩
    · rw [update_of_ne hqp]
      exact h.fresh q ((Semaphore.of_mem_waiters_passeren hq).resolve_left hqp)
  · exact busy_update (by simp [hp]) (by simp)
  · apply h.misses p u
    rw [hp]
    exact ⟨hserved, hu⟩
  · have hknown := h.known p
    rw [hp] at hknown
    exact hknown hserved

lemma excludes_verhogen (h : PoolLock addr phase m resident place) (hp : (phase p).Inside)
    (hw : p ∉ m.waiters) :
    m.verhogen.Excludes (fun q => (update phase p .out q).Inside) ∧
      ∀ q ∈ m.verhogen.waiters, ∃ old, update phase p .out q = .waiting old := by
  refine ⟨h.excludes.verhogen hp hw fun q => ?_, fun q hq => ?_⟩
  · by_cases hq : q = p
    · subst hq
      rw [update_self]
      exact iff_of_false not_false (by simp)
    · rw [update_of_ne hq]
      simp [hq]
  · have hmem := Semaphore.of_mem_waiters_verhogen hq
    have hqp : q ≠ p := fun he => hw (he ▸ hmem)
    rw [update_of_ne hqp]
    exact h.fresh q hmem

lemma found (h : PoolLock addr phase m resident place) (hp : phase p = .waiting old)
    (hw : p ∉ m.waiters) : PoolLock addr (update phase p .out) m.verhogen resident place := by
  have hin : (phase p).Inside := by
    rw [hp]
    trivial
  obtain ⟨hexcludes, hfresh⟩ := h.excludes_verhogen hin hw
  exact ⟨hexcludes, hfresh, h.mirrors.congr fun f => busy_update (by simp [hp]) (by simp),
    fun q => h.misses_update fun u hu => hu.elim, h.known_update trivial⟩

lemma busy_fill (hp : phase p = .waiting old) :
    Busy (update phase p (.filling old f)) g ↔ g = f ∨ Busy phase g := by
  unfold Busy
  constructor
  · rintro ⟨q, old', hq⟩
    by_cases hqp : q = p
    · subst hqp
      rw [update_self] at hq
      exact .inl (Phase.filling.inj hq).2.symm
    · rw [update_of_ne hqp] at hq
      exact .inr ⟨q, old', hq⟩
  · rintro (rfl | ⟨q, old', hq⟩)
    · exact ⟨p, old, update_self _ _ _⟩
    · have hqp : q ≠ p := by
        rintro rfl
        rw [hp] at hq
        cases hq
      exact ⟨q, old', by rw [update_of_ne hqp, hq]⟩

lemma fill {place' : UPage n → Option Word} (h : PoolLock addr phase m resident place)
    (hp : phase p = .waiting old) (hw : p ∉ m.waiters)
    (hmirrors : Mirrors addr (Busy (update phase p (.filling old f))) resident place')
    (hplace : ∀ u, place u = none → place' u = none)
    (hmissing : ∀ u, faultPage p old = some u → place u = none) :
    PoolLock addr (update phase p (.filling old f)) m resident place' := by
  have hknown := h.known p
  rw [hp] at hknown
  have hfilling : ∀ u, (Phase.filling old f).Misses p u → place u = none := hmissing
  refine ⟨h.excludes.congr fun q => ?_, fun q hq => ?_, hmirrors, fun q u hu => hplace u ?_,
    h.known_update hknown⟩
  · by_cases hq : q = p
    · subst hq
      rw [update_self, hp]
      exact Iff.rfl
    · rw [update_of_ne hq]
  · have hqp : q ≠ p := fun he => hw (he ▸ hq)
    rw [update_of_ne hqp]
    exact h.fresh q hq
  · exact h.misses_update hfilling u hu

lemma busy_leave (h : PoolLock addr phase m resident place) (hp : phase p = .filling old f) :
    Busy (update phase p .out) g ↔ g ≠ f ∧ Busy phase g := by
  unfold Busy
  constructor
  · rintro ⟨q, old', hq⟩
    have hqp : q ≠ p := by
      rintro rfl
      rw [update_self] at hq
      cases hq
    rw [update_of_ne hqp] at hq
    exact absurd (h.eq_of_filling hq hp) hqp
  · rintro ⟨hne, q, old', hq⟩
    obtain rfl := h.eq_of_filling hq hp
    rw [hp] at hq
    exact absurd (Phase.filling.inj hq).2.symm hne

lemma not_mem_waiters (h : PoolLock addr phase m resident place) (hp : phase p = .filling old f) :
    p ∉ m.waiters := by
  intro hmem
  obtain ⟨o, ho⟩ := h.fresh p hmem
  rw [hp] at ho
  cases ho

lemma trap {resident' : Fin poolSize → Option (UPage n)}
    (h : PoolLock addr phase m resident place) (hp : phase p = .filling old f)
    (hmirrors : Mirrors addr (Busy (update phase p .out)) resident' place) :
    PoolLock addr (update phase p .out) m resident' place := by
  have hin : (phase p).Inside := by
    rw [hp]
    trivial
  have hw := h.not_mem_waiters hp
  refine ⟨.inr (h.excludes.leave hin hw fun q hq => ?_), fun q hq => ?_, hmirrors,
    fun q => h.misses_update fun u hu => hu.elim, h.known_update trivial⟩
  · by_cases hqp : q = p
    · subst hqp
      rw [update_self] at hq
      exact hq.elim
    · rw [update_of_ne hqp] at hq
      exact ⟨hqp, hq⟩
  · have hqp : q ≠ p := fun he => hw (he ▸ hq)
    rw [update_of_ne hqp]
    exact h.fresh q hq

lemma leave {resident' : Fin poolSize → Option (UPage n)} {place' : UPage n → Option Word}
    (h : PoolLock addr phase m resident place) (hp : phase p = .filling old f)
    (hmirrors : Mirrors addr (Busy (update phase p .out)) resident' place')
    (hplace : ∀ q u, q ≠ p → (phase q).Misses q u → place u = none → place' u = none) :
    PoolLock addr (update phase p .out) m.verhogen resident' place' := by
  have hin : (phase p).Inside := by
    rw [hp]
    trivial
  have hw := h.not_mem_waiters hp
  obtain ⟨hexcludes, hfresh⟩ := h.excludes_verhogen hin hw
  refine ⟨hexcludes, hfresh, hmirrors, fun q u hu => ?_, h.known_update trivial⟩
  by_cases hqp : q = p
  · subst hqp
    rw [update_self] at hu
    exact hu.elim
  · rw [update_of_ne hqp] at hu
    exact hplace q u hqp hu (h.misses q u hu)

lemma not_misses (h : PoolLock addr phase m resident place) (hp : phase p = .filling old f)
    (hpage : faultPage p old = some u) (hqp : q ≠ p) : ¬ (phase q).Misses q u := by
  have hown : ∀ i, u = .priv q i → False := by
    rintro i rfl
    rcases faultPage_cases hpage with ⟨⟨j, hj⟩, -⟩ | ⟨⟨j, hj⟩, -⟩
    · cases hj
    · exact hqp (UPage.priv.inj hj).1
  cases hq : phase q with
  | out => exact not_false
  | entering o => exact fun hm => hm.2.2.elim hown
  | waiting o => exact fun hm => hm.2.elim hown
  | filling o g => exact fun _ => hqp (h.eq_of_filling hq hp)

end PoolLock

/-! ### Records -/

lemma SwapEntry.page_of_vacant {r : SwapEntry} (h : r.Vacant) : r.page n = none := by
  unfold page
  rcases h with h | ⟨h3, h2⟩
  · have hproc : procOf n r.ASID = none := by
      rw [h]
      exact dif_neg (by unfold unoccupiedFrame; omega)
    rw [hproc]
    split_ifs <;> rfl
  · rw [if_neg h3, if_neg h2]

lemma page_faultRecord (hn : n ≤ 63) (p : Fin n) (old : State) :
    (faultRecord p old).page n = faultPage p old := by
  unfold SwapEntry.page faultRecord faultPage
  dsimp only
  rw [procOf_asid hn]
  split_ifs
  · cases entryOf (pageOf old.sAsid) <;> rfl
  · cases entryOf (pageOf old.sAsid) <;> rfl
  · rfl

namespace Sys

variable {s s' : Sys n} {e : Event n} {hi : Word} {old : State} {c : Control} {ph : Phase}
  {f : Fin poolSize} {x : Pte}

def phase (s : Sys n) (p : Fin n) : Phase := (s.control p).phase

/-- The page that is in a frame according to its record. -/
def resident (s : Sys n) (f : Fin poolSize) : Option (UPage n) := (s.frameSwapPool f).page n

/-- The frame in which a page is according to its page table. -/
def place (s : Sys n) (u : UPage n) : Option Word := (s.pte u).frame

/-- The page tables are those of `test` but for what the pager does, and the TLB has nothing
else. -/
structure Tables (s : Sys n) : Prop where
  built : ∀ u, (s.pte u).Built u
  cached : ∀ x ∈ s.tlb, ∃ u, x = s.pte u

structure Paged (b : Board n) (s : Sys n) : Prop where
  tables : s.Tables
  pool : PoolLock b.getFrameAddr s.phase (s.sema4 .swapmutex) s.resident s.place

lemma phase_goto (s : Sys n) (p : Fin n) (c : Control) :
    (s.goto p c).phase = update s.phase p c.phase := by
  funext q
  by_cases hq : q = p
  · subst hq
    simp [phase, goto]
  · simp [phase, goto, hq]

lemma pte_setPte (s : Sys n) (u : UPage n) (x : Pte) : (s.setPte u x).pte = update s.pte u x := by
  funext v
  by_cases hv : v = u
  · subst hv
    cases v <;> simp [setPte, pte]
  · rw [update_of_ne hv]
    cases u with
    | priv p i =>
      cases v with
      | priv q j =>
        by_cases hq : q = p
        · subst hq
          have hj : j ≠ i := fun he => hv (he ▸ rfl)
          simp [setPte, pte, hj]
        · simp [setPte, pte, hq]
      | shared j => rfl
    | shared i =>
      cases v with
      | priv q j => rfl
      | shared j =>
        have hj : j ≠ i := fun he => hv (he ▸ rfl)
        simp [setPte, pte, hj]

lemma place_setPte (s : Sys n) (u : UPage n) (x : Pte) :
    (s.setPte u x).place = update s.place u x.frame := by
  funext v
  unfold place
  rw [pte_setPte]
  by_cases hv : v = u
  · subst hv
    rw [update_self, update_self]
  · rw [update_of_ne hv, update_of_ne hv]

lemma resident_record (s : Sys n) (f : Fin poolSize) (r : SwapEntry) :
    ({ s with frameSwapPool := update s.frameSwapPool f r } : Sys n).resident =
      update s.resident f (r.page n) := by
  funext g
  unfold resident
  by_cases hg : g = f
  · subst hg
    simp
  · simp [hg]

lemma resident_setPte (s : Sys n) (u : UPage n) (x : Pte) :
    (s.setPte u x).resident = s.resident := by
  unfold resident
  rw [setPte_frameSwapPool]

lemma phase_setPte (s : Sys n) (u : UPage n) (x : Pte) : (s.setPte u x).phase = s.phase := by
  unfold phase
  rw [setPte_control]

lemma not_waiting_swap (h : ¬ s.Blocked p) : p ∉ (s.sema4 .swapmutex).waiters :=
  fun hw => h (.inl hw)

/-! ### What an access finds -/

lemma lookup_pte (hcached : ∀ x ∈ s.tlb, ∃ u, x = s.pte u) (h : s.lookup p hi = some x) :
    ∃ u, x = s.pte u ∧ x.Matches hi := by
  unfold lookup at h
  rcases Option.or_eq_some_iff.mp h with h | ⟨-, h⟩
  · obtain ⟨u, hu⟩ := hcached x (List.mem_of_find?_eq_some h)
    exact ⟨u, hu, by simpa using List.find?_some h⟩
  · obtain ⟨u, hu⟩ := search_pte h
    refine ⟨u, hu, ?_⟩
    unfold search at h
    split_ifs at h
    · simpa using List.find?_some h
    · simpa using List.find?_some h

lemma translate_ok {write : Bool} {frame : Word} (hcached : ∀ x ∈ s.tlb, ∃ u, x = s.pte u)
    (h : s.translate b p hi write = .ok frame) :
    ∃ u, s.place u = some frame ∧ (s.pte u).Matches hi := by
  unfold translate at h
  split at h
  · cases h
  · rename_i x hx
    obtain ⟨u, rfl, hm⟩ := lookup_pte hcached hx
    split_ifs at h with hvalid hdirty
    cases h
    exact ⟨u, Pte.frame_of_valid hvalid, hm⟩

lemma translate_error {write : Bool} {cause : Word} (hcached : ∀ x ∈ s.tlb, ∃ u, x = s.pte u)
    (h : s.translate b p hi write = .error cause)
    (hcode : excCodeOf cause = tlbInvalidLoad ∨ excCodeOf cause = tlbInvalidStore) :
    ∃ u, s.place u = none ∧ (s.pte u).Matches hi := by
  unfold translate at h
  split at h
  · cases h
    rcases hcode with hcode | hcode
    · exact absurd hcode b.missCause_ne.1
    · exact absurd hcode b.missCause_ne.2
  · rename_i x hx
    obtain ⟨u, rfl, hm⟩ := lookup_pte hcached hx
    split_ifs at h with hvalid hwrite hdirty
    · exact ⟨u, Pte.frame_eq_none_iff.mpr hvalid, hm⟩
    · exact ⟨u, Pte.frame_eq_none_iff.mpr hvalid, hm⟩
    · cases h
      exact absurd hcode (by decide)

/-! ### The re-check of a shared page -/

/-- The shared page that the process is about to re-check. -/
def checks (s : Sys n) (p : Fin n) : Option (Fin maxKuseg) :=
  match s.control p with
  | .tlb old _ .check =>
    match faultPage p old with
    | some (.shared i) => some i
    | _ => none
  | _ => none

lemma checks_eq_some {i : Fin maxKuseg} (h : s.checks p = some i) :
    ∃ old back, s.control p = .tlb old back .check ∧ faultPage p old = some (.shared i) := by
  unfold checks at h
  split at h
  · rename_i old back hc
    split at h
    · rename_i j hj
      obtain rfl := Option.some.inj h
      exact ⟨old, back, hc, hj⟩
    · cases h
  · cases h

/-- The word that the process with the ASID 1 reads through the entry 0 of the segment table,
which is never set, has the valid bit of the shared page table. -/
def Agrees (s : Sys n) : Event n → Prop
  | .run p input => p.val = 0 → ∀ i, s.checks p = some i → ∃ lo ∈ input,
      (lo &&& validMask) >>> validShift = 0 ↔ (s.kuseg3PT i).valid = 0
  | _ => True

/-- The same, to be evaluated. -/
def agrees (s : Sys n) : Event n → Bool
  | .run p input => p.val ≠ 0 ||
    match s.checks p with
    | none => true
    | some i => input.any fun lo =>
        ((lo &&& validMask) >>> validShift == 0) == ((s.kuseg3PT i).valid == 0)
  | _ => true

lemma agrees_iff (s : Sys n) (e : Event n) : s.agrees e = true ↔ s.Agrees e := by
  cases e with
  | run p input =>
    unfold agrees Agrees
    dsimp only
    rw [Bool.or_eq_true, decide_eq_true_eq]
    cases hi : s.checks p with
    | none =>
      refine iff_of_true (.inr rfl) fun _ j hj => ?_
      cases hj
    | some i =>
      simp only [Option.any_eq_true, Bool.beq_eq_decide_eq, decide_eq_true_eq, decide_eq_decide]
      constructor
      · rintro h hp j hj
        obtain rfl := Option.some.inj hj
        exact h.resolve_left fun hne => hne hp
      · intro h
        by_cases hp : p.val = 0
        · exact .inr (h hp i rfl)
        · exact .inl hp
  | _ => exact iff_of_true rfl trivial

instance (s : Sys n) (e : Event n) : Decidable (s.Agrees e) := decidable_of_iff _ (s.agrees_iff e)

variable {back : Back} {input : Option Word} {i : Fin maxKuseg}

lemma recheck_valid (hn : n ≤ 63) (hagrees : s.Agrees (.run p input))
    (hc : s.control p = .tlb old back .check) (hu : faultPage p old = some (.shared i)) :
    ∃ lo, s.recheck p (pageOf old.sAsid) input = some lo ∧
      ((lo &&& validMask) >>> validShift = 0 ↔ (s.kuseg3PT i).valid = 0) := by
  have hentry : entryOf (pageOf old.sAsid) = some i := by
    rcases faultPage_cases hu with ⟨-, h3⟩ | ⟨⟨j, hj⟩, -⟩
    · unfold faultPage at hu
      rw [if_pos h3] at hu
      obtain ⟨j, hj, hji⟩ := Option.map_eq_some_iff.mp hu
      rw [hj, UPage.shared.inj hji]
    · cases hj
  have hp := p.isLt
  unfold recheck
  rw [asidOf_entryHi hn, hentry]
  by_cases hp0 : p.val = 0
  · have hproc : procOf n (((p.val + 1 : Nat) : Int) - 1) = none := by
      unfold procOf
      rw [dif_neg (by omega)]
    rw [hproc]
    refine hagrees hp0 i ?_
    unfold checks
    rw [hc]
    dsimp only
    rw [hu]
  · have hproc : procOf n (((p.val + 1 : Nat) : Int) - 1) =
        some ⟨((p.val + 1 : Nat) - 1 - 1 : Int).toNat, by omega⟩ := by
      unfold procOf
      rw [dif_pos (by omega)]
    rw [hproc]
    exact ⟨_, rfl, Iff.rfl⟩

lemma Paged.place_of_missing (h : s.Paged b) (hagrees : s.Agrees (.run p input))
    (hc : s.control p = .tlb old back .check) (hmissing : s.Missing p old input)
    (hu : faultPage p old = some u) : s.place u = none := by
  have hphase : s.phase p = .waiting old := by
    rw [phase, hc]
    rfl
  rcases faultPage_cases hu with ⟨⟨i, rfl⟩, h3⟩ | ⟨⟨i, rfl⟩, -⟩
  · obtain ⟨lo, hlo, hiff⟩ := recheck_valid b.procCnt_le hagrees hc hu
    obtain ⟨lo', hlo', hzero⟩ := hmissing h3
    rw [hlo] at hlo'
    obtain rfl := Option.some.inj hlo'
    exact Pte.frame_eq_none_iff.mpr (hiff.mp hzero)
  · apply h.pool.misses p
    rw [hphase]
    exact ⟨hu, i, rfl⟩

lemma Tables.of_eq (h : s.Tables) (hpte : s'.pte = s.pte)
    (htlb : ∀ x ∈ s'.tlb, x ∈ s.tlb ∨ ∃ u, x = s.pte u) : s'.Tables := by
  refine ⟨fun u => ?_, fun x hx => ?_⟩
  · rw [hpte]
    exact h.built u
  · rw [hpte]
    rcases htlb x hx with hx | hx
    · exact h.cached x hx
    · exact hx

lemma Tables.setPte (h : s.Tables) (hx : x.Built u) : (s.setPte u x).Tables := by
  refine ⟨fun v => ?_, fun y hy => ?_⟩
  · rw [pte_setPte]
    by_cases hv : v = u
    · subst hv
      rw [update_self]
      exact hx
    · rw [update_of_ne hv]
      exact h.built v
  · rw [setPte_tlb] at hy
    cases hy

lemma Paged.of_pool {φ : Fin n → Phase} {m : Semaphore (Fin n)}
    {r : Fin poolSize → Option (UPage n)} {l : UPage n → Option Word} (htables : s.Tables)
    (h : PoolLock b.getFrameAddr φ m r l) (hφ : s.phase = φ) (hm : s.sema4 .swapmutex = m)
    (hr : s.resident = r) (hl : s.place = l) : s.Paged b := by
  subst hφ hm hr hl
  exact ⟨htables, h⟩

lemma Paged.same (h : s.Paged b) (hphase : s'.phase = s.phase)
    (hm : s'.sema4 .swapmutex = s.sema4 .swapmutex) (hpte : s'.pte = s.pte)
    (hpool : s'.frameSwapPool = s.frameSwapPool)
    (htlb : ∀ x ∈ s'.tlb, x ∈ s.tlb ∨ ∃ u, x = s.pte u) : s'.Paged b :=
  .of_pool (h.tables.of_eq hpte htlb) h.pool hphase hm (by unfold resident; rw [hpool])
    (by unfold place; rw [hpte])

lemma Paged.turn (h : s.Paged b) (ph : Phase) (hp : ¬ (s.phase p).Inside) (hph : ¬ ph.Inside)
    (hmisses : ∀ u, ph.Misses p u → s.place u = none) (hknown : ph.Known p)
    (hphase : s'.phase = update s.phase p ph)
    (hm : s'.sema4 .swapmutex = s.sema4 .swapmutex) (hpte : s'.pte = s.pte)
    (hpool : s'.frameSwapPool = s.frameSwapPool)
    (htlb : ∀ x ∈ s'.tlb, x ∈ s.tlb ∨ ∃ u, x = s.pte u) : s'.Paged b :=
  .of_pool (h.tables.of_eq hpte htlb) (h.pool.turn hp hph hmisses hknown) hphase hm
    (by unfold resident; rw [hpool]) (by unfold place; rw [hpte])

lemma Paged.quit (h : s.Paged b) (p : Fin n) (hp : ¬ (s.phase p).Inside)
    (hphase : s'.phase = update s.phase p .out)
    (hm : s'.sema4 .swapmutex = s.sema4 .swapmutex) (hpte : s'.pte = s.pte)
    (hpool : s'.frameSwapPool = s.frameSwapPool) (htlb : s'.tlb = s.tlb) : s'.Paged b :=
  h.turn .out hp not_false (fun _ hu => hu.elim) trivial hphase hm hpte hpool
    fun _ hx => .inl (htlb ▸ hx)

lemma Paged.fault (h : s.Paged b) (st : State) {va : Addr} {cause : Word} {write : Bool}
    (hf : s.translate b p (accessHi p va) write = .error cause) :
    (∀ u, (Phase.entering { st with sCause := cause, sAsid := accessHi p va }).Misses p u →
      s.place u = none) ∧
    (Phase.entering { st with sCause := cause, sAsid := accessHi p va }).Known p := by
  have hn := b.procCnt_le
  refine ⟨fun u hu => ?_, fun hserved h3 => ?_⟩
  · obtain ⟨hserved, hpage, -⟩ := hu
    obtain ⟨v, hv, hm⟩ := translate_error h.tables.cached hf hserved
    rw [← eq_of_faultPage hn (h.tables.built v) hm rfl hpage]
    exact hv
  · obtain ⟨v, hv, hm⟩ := translate_error h.tables.cached hf hserved
    obtain ⟨hnumber, -⟩ := number_of_matches hn (h.tables.built v) hm
    have hseg : segmentOf va = kuseg3 := by rwa [segmentOf_accessHi hn] at h3
    rw [segmentOf_eq] at hseg
    have h3' : va.toNat / 2 ^ 30 = 3 := hseg
    cases v with
    | priv q i =>
      have hcases := number_priv q i
      have hva := va.isLt
      omega
    | shared i =>
      have hshared : 0xC0000 + i.val = va.toNat / 4096 := hnumber
      have hpage : pageOf (accessHi p va) = i := by
        rw [pageOf_accessHi hn, pageOf_eq]
        omega
      refine ⟨i, ?_⟩
      unfold faultPage
      rw [if_pos h3]
      dsimp only
      rw [hpage]
      unfold entryOf
      rw [dif_pos i.isLt]
      rfl

lemma phase_of_control (hc : s.control p = c) : s.phase p = c.phase := by rw [phase, hc]

lemma phase_goto_of_eq {c' : Control} (hc : s.control p = c) (h : c'.phase = c.phase) :
    (s.goto p c').phase = s.phase := by
  rw [phase_goto, h, ← phase_of_control hc, update_eq_self]

lemma Accesses.phase_eq {st : State} {va : Addr} {write : Bool}
    (h : s.Accesses p st va write back e) :
    s.phase p = .out := by
  cases e with
  | access q st' va' op =>
    obtain ⟨-, -, -, -, -, st₀, hc⟩ := h
    exact phase_of_control hc
  | run q input =>
    obtain ⟨-, -, pr, stage, hc, -⟩ := h
    exact phase_of_control hc
  | _ => exact h.elim

lemma Paged.place_of_record (h : s.Paged b) {frame : Fin poolSize} {u : UPage n}
    (hc : s.control p = .tlb old back .check) (hblocked : ¬ s.Blocked p)
    (hpage : (s.frameSwapPool frame).page n = some u) :
    s.place u = some (b.getFrameAddr frame) :=
  h.pool.mirrors.place_eq (h.pool.not_busy (phase_of_control hc) (not_waiting_swap hblocked)) hpage

lemma Paged.boot (h : s.Paged b) {input : Option Word} {frame : Fin poolSize} {u : UPage n}
    (hagrees : s.Agrees (.run p input)) (hc : s.control p = .tlb old back .check)
    (hblocked : ¬ s.Blocked p) (hmissing : s.Missing p old input)
    (hpage : (s.frameSwapPool frame).page n = some u) :
    (({ s with nextFrame := s.nextFrame + 1 }.setPte u (s.pte u).flipValid
      |>.passeren diskMutex p).goto p
      (.tlb old back (.boot frame (s.frameSwapPool frame) .seek))).Paged b := by
  have hdisk : Sem.swapmutex ≠ diskMutex := by decide
  have hphase : s.phase p = .waiting old := phase_of_control hc
  have hw := not_waiting_swap hblocked
  have hplace := h.place_of_record hc hblocked hpage
  have hvalid : (s.pte u).frame ≠ none := by
    intro hnone
    cases hplace.symm.trans hnone
  have hfill := h.pool.fill hphase hw
    (h.pool.mirrors.evict (fun _ _ => Board.getFrameAddr_inj) (h.pool.not_busy hphase hw) hpage
      fun g => PoolLock.busy_fill hphase)
    (fun v hv => by
      by_cases hvu : v = u
      · rw [hvu, update_self]
      · rw [update_of_ne hvu, hv])
    fun v hv => h.place_of_missing hagrees hc hmissing hv
  have htables : ({ s with nextFrame := s.nextFrame + 1 } : Sys n).Tables :=
    h.tables.of_eq rfl fun _ hx => .inl hx
  refine .of_pool ((htables.setPte (h.tables.built u).flipValid).of_eq rfl fun _ hx => .inl hx)
    hfill ?_ ?_ (resident_setPte _ u _) ?_
  · exact (phase_goto _ _ _).trans (congrArg (update · p _) (phase_setPte _ u _))
  · exact (passeren_sema4_of_ne _ p hdisk).trans (congrFun (setPte_sema4 _ u _) _)
  · exact (place_setPte _ u _).trans (by rw [Pte.frame_flipValid hvalid]; rfl)

/-- The page of the fault is put into the frame. -/
lemma Paged.install (h : s.Paged b) {frame : Fin poolSize} {u : UPage n}
    (hc : s.control p = .tlb old back (.install frame)) (hpage : faultPage p old = some u) :
    (({ s with frameSwapPool := update s.frameSwapPool frame (faultRecord p old) }.setPte u
      ((s.pte u).place (b.getFrameAddr frame)) |>.verhogen .swapmutex).goto p
      (.tlb old back .leave)).Paged b := by
  have hphase : s.phase p = .filling old frame := phase_of_control hc
  have hnone : s.place u = none := by
    apply h.pool.misses p
    rw [hphase]
    exact hpage
  have hleave := h.pool.leave hphase
    (h.pool.mirrors.install ⟨p, old, hphase⟩ hnone fun g => h.pool.busy_leave hphase)
    (fun q v hqp hv hplace => by
      have hvu : v ≠ u := fun he => h.pool.not_misses hphase hpage hqp (he ▸ hv)
      rw [update_of_ne hvu, hplace])
  have haligned := b.getFrameAddr_aligned frame
  have htables : ({ s with
      frameSwapPool := update s.frameSwapPool frame (faultRecord p old) } : Sys n).Tables :=
    h.tables.of_eq rfl fun _ hx => .inl hx
  refine .of_pool ((htables.setPte ((h.tables.built u).place haligned)).of_eq rfl
    fun _ hx => .inl hx) hleave ?_ ?_ ?_ ?_
  · exact (phase_goto _ _ _).trans (congrArg (update · p _) (phase_setPte _ u _))
  · simp [goto, Sys.verhogen]
  · refine (resident_setPte _ u _).trans ((resident_record s frame _).trans ?_)
    rw [page_faultRecord b.procCnt_le, hpage]
  · exact (place_setPte _ u _).trans (by rw [Pte.frame_place haligned]; rfl)

/-- Every step keeps the swap pool under its mutex, as long as re-checks of shared pages find what
the page table says. -/
theorem Moves.paged (hm : s.Moves b e s') (hagrees : s.Agrees e) (h : s.Paged b) :
    s'.Paged b := by
  have htlb : ∀ x ∈ s.tlb, x ∈ s.tlb ∨ ∃ u, x = s.pte u := fun x hx => .inl hx
  have hdisk : Sem.swapmutex ≠ diskMutex := by decide
  have hterm : ∀ p : Fin n, Sem.swapmutex ≠ terminalMutex p := fun p he => by cases he
  cases hm with
  | look he htlb => exact h.same rfl rfl rfl rfl htlb
  | @store p st va v frame hc hf =>
    obtain ⟨tlb, hrefill, htlb⟩ := s.refill_eq p (accessHi p va)
    rw [hrefill]
    exact h.same rfl rfl rfl rfl htlb
  | @fault e p st va cause back write hc hseg hf hfree =>
    obtain ⟨tlb, hrefill, htlb⟩ := s.refill_eq p (accessHi p va)
    obtain ⟨hmisses, hknown⟩ := h.fault st hf
    rw [hrefill]
    refine h.turn (.entering _) ?_ not_false hmisses hknown (phase_goto _ _ _) rfl rfl rfl htlb
    rw [hc.phase_eq]
    exact not_false
  | @aside e p c masterSema4 he hholds hio hio' hns hctl htape hservice hfree =>
    have hout : c.phase = .out := by
      cases c with
      | tlb old back stage => exact absurd rfl (hctl old back stage)
      | _ => rfl
    refine h.quit p ?_ ?_ rfl rfl rfl rfl
    · rw [phase, ← Control.inSwap_iff]
      exact hns
    · rw [← hout]
      exact phase_goto _ _ _
  | @die p input hblocked hc =>
    rcases hc with ⟨pr, stage, hc, -⟩ | ⟨old, pr, stage, hc, -⟩ | ⟨old, back, hc, h3, hnone⟩
    · refine h.quit p ?_ (phase_goto _ _ _) rfl rfl rfl rfl
      rw [phase_of_control hc]
      exact not_false
    · refine h.quit p ?_ (phase_goto _ _ _) rfl rfl rfl rfl
      rw [phase_of_control hc]
      exact not_false
    · have hknown := h.pool.known p
      rw [phase_of_control hc] at hknown
      obtain ⟨i, hi⟩ := hknown h3
      obtain ⟨lo, hlo, -⟩ := recheck_valid b.procCnt_le hagrees hc hi
      rw [hlo] at hnone
      cases hnone
  | @printStart p input old pr hc hblocked =>
    refine h.same ?_ (passeren_sema4_of_ne s p (hterm p)) rfl rfl htlb
    exact phase_goto_of_eq hc rfl
  | @printEnd p input st pr stage tlb htlb hc hblocked =>
    refine h.same ?_ (verhogen_sema4_of_ne s (hterm p)) rfl rfl htlb
    exact phase_goto_of_eq hc rfl
  | @printNext p input pr pr' stage stage' tlb htlb hc hblocked =>
    exact h.same (phase_goto_of_eq hc rfl) rfl rfl rfl htlb
  | @tapeStart p input i hc hblocked =>
    exact h.same (phase_goto_of_eq hc rfl) (passeren_sema4_of_ne s p hdisk) rfl rfl htlb
  | @enter p input old back hc hblocked hcode =>
    refine .of_pool (h.tables.of_eq rfl htlb)
      (h.pool.passeren (phase_of_control hc) hcode) (phase_goto _ _ _) ?_ rfl rfl
    exact passeren_sema4 s p .swapmutex
  | @found p input old back lo hc hblocked hseg hlo hvalid =>
    refine .of_pool (h.tables.of_eq rfl htlb)
      (h.pool.found (phase_of_control hc) (not_waiting_swap hblocked)) (phase_goto _ _ _) ?_ rfl rfl
    exact verhogen_sema4 s .swapmutex
  | @take p input old back frame hc hblocked hmissing hframe hvacant =>
    have hphase : s.phase p = .waiting old := phase_of_control hc
    have hfill := h.pool.fill hphase (not_waiting_swap hblocked)
      (h.pool.mirrors.take (SwapEntry.page_of_vacant hvacant) fun g => PoolLock.busy_fill hphase)
      (fun _ hu => hu) fun u hu => h.place_of_missing hagrees hc hmissing hu
    exact .of_pool (h.tables.of_eq rfl htlb) hfill (phase_goto _ _ _)
      (passeren_sema4_of_ne _ p hdisk) rfl rfl
  | @boot p input old back frame u hc hblocked hmissing hframe hocc hpage =>
    exact h.boot hagrees hc hblocked hmissing hpage
  | @booted p input old back frame hc hblocked =>
    exact h.same (phase_goto_of_eq hc rfl) (passeren_sema4_of_ne s p hdisk) rfl rfl htlb
  | @seek p input job control hc hstages hblocked =>
    exact h.same (phase_goto_of_eq hc (hstages.phase_eq _ _)) rfl rfl rfl htlb
  | @transfer p input job control hc hstages hbusy hblocked =>
    exact h.same (phase_goto_of_eq hc (hstages.phase_eq _ _)) rfl rfl rfl htlb
  | @tapeEnd p input i hc hbusy hblocked =>
    exact h.same (phase_goto_of_eq hc rfl) (verhogen_sema4_of_ne s hdisk) rfl rfl htlb
  | @bootEnd p input old back frame victim hc hbusy hblocked =>
    exact h.same (phase_goto_of_eq hc rfl) (verhogen_sema4_of_ne s hdisk) rfl rfl htlb
  | @loadEnd p input old back frame hc hbusy hblocked =>
    exact h.same (phase_goto_of_eq hc rfl) (verhogen_sema4_of_ne s hdisk) rfl rfl htlb
  | @install p input old back frame u hc hblocked hpage => exact h.install hc hpage
  | @installOther p input old back frame hc hblocked hseg =>
    have hphase : s.phase p = .filling old frame := phase_of_control hc
    have hpage : (faultRecord p old).page n = none := SwapEntry.page_of_vacant (.inr hseg)
    have hleave := h.pool.leave hphase
      (h.pool.mirrors.release ⟨p, old, hphase⟩ fun g => h.pool.busy_leave hphase)
      (fun _ _ _ _ hplace => hplace)
    refine .of_pool (h.tables.of_eq rfl htlb) hleave (phase_goto _ _ _)
      (verhogen_sema4 s .swapmutex) ?_ rfl
    exact (resident_record s frame _).trans (by rw [hpage])
  | @installTrap p input old back frame hc hblocked hseg hpage =>
    have hphase : s.phase p = .filling old frame := phase_of_control hc
    refine .of_pool (h.tables.of_eq rfl htlb) (h.pool.trap hphase
      (h.pool.mirrors.release ⟨p, old, hphase⟩ fun g => h.pool.busy_leave hphase))
      (phase_goto _ _ _) rfl ?_ rfl
    exact (resident_record s frame _).trans (by rw [page_faultRecord b.procCnt_le, hpage])
  | disk hd => exact h.same rfl rfl rfl rfl htlb

lemma fresh_paged (h0 : s.Fresh) : s.Paged b := by
  have hpte : ∀ u, s.pte u = initialPte u := by
    intro u
    cases u with
    | priv p i => exact congrFun (h0.kuseg2PT p) i
    | shared i => exact congrFun h0.kuseg3PT i
  have hphase : ∀ p, s.phase p = .out := fun p => phase_of_control (h0.control p)
  refine ⟨⟨fun u => ?_, fun x hx => ?_⟩, ⟨?_, fun p hp => ?_, ?_, fun p u hu => ?_, fun p => ?_⟩⟩
  · rw [hpte]
    exact .initial u
  · rw [h0.tlb] at hx
    cases hx
  · rw [h0.sema4]
    refine .inl (Semaphore.Guards.mutex.congr fun p => ?_)
    rw [hphase]
    exact Iff.rfl
  · rw [h0.sema4] at hp
    cases hp
  · refine .empty (fun f => SwapEntry.page_of_vacant (.inl (h0.frameSwapPool f))) fun u => ?_
    rw [place, hpte]
    exact frame_initialPte u
  · rw [hphase] at hu
    exact hu.elim
  · rw [hphase]
    trivial

lemma Paged.run {s₀ : Sys n} {h : List (Sys n × Event n × Sys n)} (h0 : s₀.Fresh)
    (hr : Run (Sys.step b) Agrees s₀ h s) : s.Paged b := by
  induction hr with
  | nil => exact fresh_paged h0
  | snoc _ hagrees hs ih => exact (step_moves hs).paged hagrees ih

end Sys

end Kaya.Support
