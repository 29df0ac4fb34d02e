import Kaya.Abstract.Step
import Kaya.Refine.Kill

/-!
# The handlers refine the nucleus on lists

Every handler of `exceptions.c` and `interrupts.c`, run on tables that hold the lists of an
abstract state, returns exactly when its counterpart on lists does, with tables that hold
the lists of the result.
-/

namespace Kaya

open Function Linked

variable {m : Machine} {L : TreeLinks PcbIx} {k : Kernel} {a : Nuc} {p : PcbIx} {s : Addr}

/-! ### The data of both sides -/

lemma Held.currentProcess (h : Held L k a) : k.currentProcess = a.currentProcess := by
  rw [h.data]
  rfl

lemma Held.mem (h : Held L k a) : k.mem = a.mem := by
  rw [h.data]
  rfl

lemma Held.oldArea (h : Held L k a) : k.oldArea = a.oldArea := by
  rw [h.data]
  rfl

lemma Held.pS (h : Held L k a) : k.procs.pS = a.pS := by
  rw [h.data]
  rfl

lemma rel_some {α β : Type} {R : α → β → Prop} {x : Option α} {b : β}
    (h : Option.Rel R x (some b)) : ∃ c, x = some c ∧ R c b := by
  cases h with
  | some h => exact ⟨_, rfl, h⟩

lemma rel_bind {α β γ : Type*} {R : β → γ → Prop} {x y : Option α} {f : α → Option β}
    {g : α → Option γ} (hxy : x = y) (h : ∀ v, y = some v → Option.Rel R (f v) (g v)) :
    Option.Rel R (x.bind f) (y.bind g) := by
  subst hxy
  cases x with
  | none => exact .none
  | some v => exact h v rfl

lemma rel_bind_rel {β γ δ ε : Type*} {R : β → γ → Prop} {S : δ → ε → Prop} {x : Option β}
    {y : Option γ} {f : β → Option δ} {g : γ → Option ε} (hxy : Option.Rel R x y)
    (h : ∀ u v, R u v → y = some v → Option.Rel S (f u) (g v)) :
    Option.Rel S (x.bind f) (y.bind g) := by
  cases hxy with
  | none => exact .none
  | some huv => exact h _ _ huv rfl

lemma rel_ite {β γ : Type*} {R : β → γ → Prop} {c d : Prop} [Decidable c] [Decidable d]
    {x y : Option β} {x' y' : Option γ} (hcd : c ↔ d) (ht : d → Option.Rel R x x')
    (hf : ¬ d → Option.Rel R y y') :
    Option.Rel R (if c then x else y) (if d then x' else y') := by
  by_cases hd : d
  · rw [if_pos (hcd.mpr hd), if_pos hd]
    exact ht hd
  · rw [if_neg (fun hc => hd (hcd.mp hc)), if_neg hd]
    exact hf hd

lemma Held.rep (root : PcbPtr) {x : Option Kernel} {y : Option Nuc}
    (h : Option.Rel (Held L) x y) (hf : ∀ b ∈ y, IsForest L none none root b.tree) :
    Option.Rel Rep x y := by
  cases h with
  | none => exact .none
  | some h => exact .some ⟨L, root, h, hf _ rfl⟩

lemma loadState_sim (h : Held L k a) (st : State) : Held L (loadState st k) (a.resume st) := by
  obtain ⟨free, ready, blocked, tree, rfl, -⟩ := h.exists_view
  exact h.setData (.refl _) rfl rfl rfl rfl

lemma scheduler_sim (h : Held L k a) :
    Option.Rel (Held L) (scheduler m k) (some (a.dispatch m)) := by
  obtain ⟨readyQ, procs, hrem, hh⟩ := h.removeReady
  obtain ⟨free, ready, blocked, tree, rfl, hl⟩ := h.exists_view
  unfold scheduler Nuc.dispatch
  cases ready with
  | nil =>
    simp only [hrem, view_ready, List.head?_nil, Option.bind_eq_bind, Option.bind_some]
    by_cases hc : k.processCount = 0
    · have hc' : (view k free [] blocked tree).processCount = 0 := hc
      simp only [hc, hc', if_true]
      exact .some ⟨hh.lists, by simpa [view] using hh.data, hh.links⟩
    · have hc' : ¬ (view k free [] blocked tree).processCount = 0 := hc
      by_cases hs : k.softBlockCount = 0
      · have hs' : (view k free [] blocked tree).softBlockCount = 0 := hs
        simp only [hc, hc', hs, hs', if_true, if_false]
        exact .some ⟨hh.lists, by simpa [view] using hh.data, hh.links⟩
      · have hs' : ¬ (view k free [] blocked tree).softBlockCount = 0 := hs
        simp only [hc, hc', hs, hs', if_false]
        exact .some ⟨hh.lists, by simpa [view, setTimer] using hh.data, hh.links⟩
  | cons q rest =>
    simp only [hrem, view_ready, List.head?_cons, Option.bind_eq_bind, Option.bind_some]
    have hps : procs.pS = k.procs.pS := hh.pS
    exact .some ⟨hh.lists, by simpa [view, setTimer, stck, loadState, Nuc.now, hps] using hh.data,
      hh.links⟩

lemma incrementProcessTime_sim (h : Held L k a) (p : PcbIx) :
    ∃ k', incrementProcessTime m (some p) k = some k' ∧ Held L k' (a.charge m p) := by
  obtain ⟨free, ready, blocked, tree, rfl, -⟩ := h.exists_view
  exact ⟨_, rfl, h.setData (.refl _) rfl rfl rfl rfl⟩

lemma blockHelperFunction_sim {area : OldArea} (h : Held L k a) (hp : a.Homeless p)
    (hs : Aligned s) :
    Option.Rel (Held L) (blockHelperFunction m area s (some p) k)
      (some (a.block m (a.oldArea area) s p)) := by
  obtain ⟨k₁, hinc, h₁⟩ := incrementProcessTime_sim (m := m) h p
  have hold : k₁.oldArea = a.oldArea := h₁.oldArea
  have h₂ : Held L { k₁ with procs := { k₁.procs with
      pS := update k₁.procs.pS p (k₁.oldArea area) } }
      { a.charge m p with pS := update a.pS p (a.oldArea area) } := by
    rw [← hold]
    generalize hb : a.charge m p = b at h₁
    have hps : a.pS = b.pS := by rw [← hb]; rfl
    rw [hps]
    obtain ⟨free, ready, blocked, tree, rfl, -⟩ := h₁.exists_view
    exact h₁.setData (.refl _) rfl rfl rfl rfl
  obtain ⟨r, procs, asl, hins, h₃⟩ := h₂.insertBlocked hs.ne_null ⟨hp.free, hp.ready, hp.blocked⟩
  have h₄ : Held L { k₁ with procs, asl, currentProcess := none } { a.charge m p with
      pS := update a.pS p (a.oldArea area)
      pSemAdd := update a.pSemAdd p s
      blocked := update a.blocked s (a.blocked s ++ [p])
      currentProcess := none } := h₃.setCurrent none
  unfold blockHelperFunction Nuc.block
  dsimp only at hins
  simp only [hinc, hins, Option.bind_eq_bind, Option.bind_some]
  exact scheduler_sim h₄

lemma dispatch_tree (m : Machine) (a : Nuc) : (a.dispatch m).tree = a.tree := by
  unfold Nuc.dispatch
  split
  · split_ifs <;> rfl
  · rfl

lemma wake_sim (h : Held L k a) (hs : s ≠ null) :
    ∃ procs asl, removeBlocked s k.procs k.asl = some ((a.blocked s).head?, procs, asl) ∧
      (a.blocked s = [] → Held L { k with procs, asl } a) ∧
      ∀ p rest, a.blocked s = p :: rest → ∃ readyQ procs',
        insertProcQ k.readyQ (some p) procs = some (readyQ, procs') ∧
        Held L { k with procs := procs', asl, readyQ } (a.wake s) := by
  obtain ⟨procs, asl, hrem, hh, hhome⟩ := h.removeBlocked hs
  refine ⟨procs, asl, hrem, fun hb => ?_, fun p rest hb => ?_⟩
  · have hself : update a.blocked s [] = a.blocked := by rw [← hb, update_eq_self]
    simpa [hb, hself] using hh
  · obtain ⟨readyQ, procs', hins, hh'⟩ := hh.insertReady (hhome p rest hb)
    refine ⟨readyQ, procs', hins, ?_⟩
    unfold Nuc.wake
    simpa [hb] using hh'

lemma resume_sim (h : Held L k a) (area : OldArea) :
    Held L (loadState (k.oldArea area) k) (a.resume (a.oldArea area)) := by
  rw [← h.oldArea]
  exact loadState_sim h _

lemma wake_tree (a : Nuc) (s : Addr) : (a.wake s).tree = a.tree := by
  unfold Nuc.wake
  split <;> rfl

/-! ### Syscalls -/

lemma verhogen_sim (h : Rep k a) : Option.Rel Rep (verhogen s k) (a.verhogen s) := by
  obtain ⟨L, root, h, ht⟩ := h
  unfold verhogen Nuc.verhogen Kernel.load
  by_cases hs : Aligned s
  · have hs' : s.toNat % 4 = 0 := hs
    have h₁ := h.store s (a.mem s + 1)
    have hmem : (a.store s (a.mem s + 1)).mem s = a.mem s + 1 := by simp [Nuc.store]
    simp only [hs', hs, if_true, Option.bind_eq_bind, Option.bind_some, h.mem, hmem]
    by_cases hv : a.mem s + 1 ≤ 0
    · obtain ⟨procs, asl, hrem, hnil, hcons⟩ := wake_sim h₁ hs.ne_null
      simp only [hv, if_true, hrem, Option.bind_some]
      cases hb : (a.store s (a.mem s + 1)).blocked s with
      | nil =>
        have hw : (a.store s (a.mem s + 1)).wake s = a.store s (a.mem s + 1) := by
          unfold Nuc.wake
          rw [hb]
        rw [hw]
        exact .some ⟨L, root, resume_sim (hnil hb) _, ht⟩
      | cons p rest =>
        obtain ⟨readyQ, procs', hins, h₂⟩ := hcons p rest hb
        dsimp only [Kernel.store] at hins
        simp only [List.head?_cons, ne_eq, reduceCtorEq, not_false_eq_true, if_true,
          Kernel.store, hins, Option.bind_some]
        refine .some ⟨L, root, resume_sim h₂ _, ?_⟩
        change IsForest L none none root ((a.store s (a.mem s + 1)).wake s).tree
        rw [wake_tree]
        exact ht
    · simp only [hv, if_false]
      exact .some ⟨L, root, resume_sim h₁ _, ht⟩
  · have hs' : ¬ s.toNat % 4 = 0 := hs
    simp only [hs', hs, if_false]
    exact .none

lemma block_tree (m : Machine) (st : State) (s : Addr) (p : PcbIx) (a : Nuc) :
    (a.block m st s p).tree = a.tree := by
  unfold Nuc.block
  rw [dispatch_tree]
  rfl

lemma passeren_sim (h : Rep k a) (hp : ∀ p, a.currentProcess = some p → a.Homeless p) :
    Option.Rel Rep (passeren m s k) (a.passeren m s) := by
  obtain ⟨L, root, h, ht⟩ := h
  unfold passeren Nuc.passeren Kernel.load
  by_cases hs : Aligned s
  · have hs' : s.toNat % 4 = 0 := hs
    have h₁ := h.store s (a.mem s - 1)
    have hmem : (a.store s (a.mem s - 1)).mem s = a.mem s - 1 := by simp [Nuc.store]
    simp only [hs', hs, if_true, Option.bind_eq_bind, Option.bind_some, h.mem, hmem]
    by_cases hv : a.mem s - 1 < 0
    · simp only [hv, if_true]
      rw [h₁.currentProcess]
      cases hc : (a.store s (a.mem s - 1)).currentProcess with
      | none =>
        have hnone : blockHelperFunction m .syscall s none (k.store s (a.mem s - 1)) = none := rfl
        rw [hnone]
        exact .none
      | some p =>
        obtain ⟨hf, hr, hb⟩ := hp p hc
        refine Held.rep root (blockHelperFunction_sim h₁ ⟨hf, hr, hb⟩ hs) ?_
        intro b hb
        obtain rfl := Option.some.inj hb
        rw [block_tree]
        exact ht
    · simp only [hv, if_false]
      exact .some ⟨L, root, resume_sim h₁ _, ht⟩
  · have hs' : ¬ s.toNat % 4 = 0 := hs
    simp only [hs', hs, if_false]
    exact .none

lemma waitForClock_sim (h : Rep k a) (hp : ∀ p, a.currentProcess = some p → a.Homeless p) :
    Option.Rel Rep (waitForClock m k) (a.waitForClock m) := by
  obtain ⟨L, root, h, ht⟩ := h
  have hsoft : k.softBlockCount = a.softBlockCount := by
    rw [h.data]
    rfl
  unfold waitForClock Nuc.waitForClock
  rw [hsoft]
  refine passeren_sim ⟨L, root, h.setSoftBlockCount _, ht⟩ fun p hc => ?_
  obtain ⟨hf, hr, hb⟩ := hp p hc
  exact ⟨hf, hr, hb⟩

/-- `TerminateProcess` on the running process. -/
lemma terminateProcess_sim (h : Rep k a) (hd : a.Doomed p) :
    Option.Rel Rep (terminateProcess m (some p) k) (some (a.terminate m p)) := by
  obtain ⟨k', hkill, L, root, h', ht⟩ := honeyIKilledTheKids_sim (m := m) h hd
  unfold terminateProcess Nuc.terminate
  simp only [hkill, Option.bind_eq_bind, Option.bind_some]
  refine Held.rep root (scheduler_sim h') ?_
  intro b hb
  obtain rfl := Option.some.inj hb
  rw [dispatch_tree]
  exact ht

lemma waitForIo_sim {lineNum deviceNum termRead : Word} (h : Rep k a)
    (hp : ∀ p, a.currentProcess = some p → a.Homeless p ∧
      (0 < a.mem (m.semAddr (ioIndex lineNum deviceNum termRead).toNat) → a.Doomed p)) :
    Option.Rel Rep (waitForIo m lineNum deviceNum termRead k)
      (a.waitForIo m lineNum deviceNum termRead) := by
  obtain ⟨L, root, h, ht⟩ := h
  unfold waitForIo Nuc.waitForIo Kernel.load
  dsimp only
  generalize hs : m.semAddr (ioIndex lineNum deviceNum termRead).toNat = s at *
  have hal : Aligned s := hs ▸ m.aligned_semAddr _
  have hs' : s.toNat % 4 = 0 := hal
  have h₁ := h.store s (a.mem s - 1)
  have hmem : (a.store s (a.mem s - 1)).mem s = a.mem s - 1 := by simp [Nuc.store]
  simp only [hs', if_true, Option.bind_eq_bind, Option.bind_some, h.mem, hmem]
  have hcur : k.currentProcess = a.currentProcess := h.currentProcess
  cases hc : (a.store s (a.mem s - 1)).currentProcess with
  | none =>
    have hc' : a.currentProcess = none := hc
    simp only [Kernel.store, hcur, hc', Option.bind_none]
    by_cases hv : a.mem s - 1 < 0
    · simp only [hv, if_true]
      exact .none
    · simp only [hv, if_false]
      exact .none
  | some p =>
    have hc' : (k.store s (a.mem s - 1)).currentProcess = some p := hcur.trans hc
    obtain ⟨⟨hf, hr, hb⟩, hdoom⟩ := hp p hc
    simp only [hc', Option.bind_some]
    by_cases hv : a.mem s - 1 < 0
    · simp only [hv, if_true]
      have hsoft : (k.store s (a.mem s - 1)).softBlockCount =
          (a.store s (a.mem s - 1)).softBlockCount := by
        rw [h₁.data]
        rfl
      rw [hsoft]
      have h₂ := (h₁.setSoftBlockCount ((a.store s (a.mem s - 1)).softBlockCount + 1)).setCurrent
        (some p)
      refine Held.rep root (blockHelperFunction_sim h₂ ⟨hf, hr, hb⟩ hal) ?_
      intro b hb
      obtain rfl := Option.some.inj hb
      rw [block_tree]
      exact ht
    · simp only [hv, if_false]
      obtain ⟨h₁', h₂', h₃', h₄', h₅', h₆'⟩ := hdoom (by omega)
      exact terminateProcess_sim ⟨L, root, h₁, ht⟩
        ⟨h₁', ⟨h₂'.free, h₂'.ready, h₂'.blocked⟩, h₃', h₄', h₅', h₆'⟩

lemma exceptionStateVec_sim {type : Word} {old new : Addr} (h : Rep k a)
    (hdoom : ∀ p, a.currentProcess = some p → (∀ ht : type.toNat < trapTypes,
      ¬ (a.oldAreas p ⟨_, ht⟩ = null ∧ a.newAreas p ⟨_, ht⟩ = null)) → a.Doomed p) :
    Option.Rel Rep (exceptionStateVec m type old new k) (a.exceptionStateVec m type old new) := by
  have hrep := h
  obtain ⟨L, root, h, ht⟩ := h
  obtain ⟨free, ready, blocked, tree, rfl, -⟩ := h.exists_view
  refine rel_bind rfl fun p hc => ?_
  split
  · rename_i htype
    refine rel_ite Iff.rfl (fun _ => ?_) fun hv => ?_
    · exact .some ⟨L, root, h.setData ⟨rfl, rfl, rfl⟩ rfl rfl rfl rfl, ht⟩
    · exact terminateProcess_sim hrep (hdoom p hc fun _ => hv)
  · exact .none

lemma getCpuTime_sim (h : Rep k a) : Option.Rel Rep (getCpuTime m k) (a.getCpuTime m) := by
  obtain ⟨L, root, h, ht⟩ := h
  obtain ⟨free, ready, blocked, tree, rfl, -⟩ := h.exists_view
  refine rel_bind rfl fun p hc => ?_
  exact .some ⟨L, root, h.setData ⟨rfl, rfl, rfl⟩ rfl rfl rfl rfl, ht⟩

lemma passUpOrDie_sim {area : OldArea} {type : Fin trapTypes} (h : Rep k a)
    (hdoom : ∀ p, a.currentProcess = some p → NoVector (a.oldAreas p) (a.newAreas p) type →
      a.Doomed p) :
    Option.Rel Rep (passUpOrDie m area type k) (a.passUpOrDie m area type) := by
  have hrep := h
  obtain ⟨L, root, h, ht⟩ := h
  obtain ⟨free, ready, blocked, tree, rfl, -⟩ := h.exists_view
  refine rel_bind rfl fun p hc => ?_
  refine rel_ite Iff.rfl (fun hv => ?_) fun _ => ?_
  · exact terminateProcess_sim hrep (hdoom p hc hv)
  · exact .some ⟨L, root, h.setData ⟨rfl, rfl, rfl⟩ rfl rfl rfl rfl, ht⟩

lemma createProcess_sim {newState : Addr} (h : Rep k a) (hi : a.Inv) :
    Option.Rel Rep (createProcess newState k) (a.createProcess newState) := by
  obtain ⟨L, root, h, ht⟩ := h
  cases hf : a.free with
  | nil =>
    unfold createProcess Nuc.createProcess
    simp only [h.allocPcb_nil hf, hf, Option.bind_eq_bind, Option.bind_some]
    obtain ⟨free, ready, blocked, tree, rfl, -⟩ := h.exists_view
    exact .some ⟨L, root, h.setData ⟨rfl, rfl, rfl⟩ rfl rfl rfl rfl, ht⟩
  | cons p rest =>
    obtain ⟨pcbListH, procs, halloc, hps, h₁, hhome⟩ := h.allocPcb_cons hf
    unfold createProcess Nuc.createProcess
    simp only [halloc, hf, Option.bind_eq_bind, Option.bind_some]
    refine rel_bind h.currentProcess fun c hc => ?_
    have hcm : c ∈ a.tree.nodes := (hi.shape.mem_iff c).mpr (hi.homeless hc).free
    have hpm : p ∉ a.tree.nodes := fun hp => (hi.shape.mem_iff p).mp hp (by simp [hf])
    have hforest := (ht.isolate hpm).insertFirst hi.shape.nodup hcm hpm
      (by simp [TreeLinks.isolate]) (by simp [TreeLinks.isolate]) (by simp [TreeLinks.isolate])
    obtain ⟨free, ready, blocked, tree, rfl, -⟩ := h.exists_view
    have h₂ : Held ((L.isolate p).insertFirst c p)
        { k with
          pcbListH
          procs := insertChild c p
            { procs with pS := update procs.pS p (k.states newState) } }
        { view k free ready blocked tree with
          free := rest
          tree := tree.insertChild c p
          pS := update k.procs.pS p (k.states newState)
          pSemAdd := update k.procs.pSemAdd p null
          pTotalTime := update k.procs.pTotalTime p 0
          oldAreas := update k.procs.oldAreas p fun _ => null
          newAreas := update k.procs.newAreas p fun _ => null } := by
      rw [insertChild_eq]
      refine ⟨h₁.lists.congr ⟨rfl, rfl, rfl⟩, ?_, ?_⟩
      · simpa [view, ProcTable.withTree, hps] using h₁.data
      · rw [tree_withTree, ← h₁.links]
        rfl
    obtain ⟨readyQ, procs', hins, h₃⟩ := h₂.insertReady ⟨hhome.free, hhome.ready, hhome.blocked⟩
    dsimp only at hins
    simp only [hins, Option.bind_some]
    refine .some ⟨_, root, ⟨h₃.lists, ?_, h₃.links⟩, hforest⟩
    simpa [view, Nuc.newChild, Nuc.setSyscallV0, Nuc.resume, Kernel.setSyscallV0, loadState]
      using h₃.data

lemma syscallSwitch_sim {st : State} (h : Rep k a) (hi : a.Inv)
    (hsafe : ∀ p, a.currentProcess = some p →
      DiesInService m a.mem (a.oldAreas p) (a.newAreas p) st → a.KillSafe p) :
    Option.Rel Rep (syscallSwitch m st.sA0 st.sA1 st.sA2 st.sA3 k) (a.service m st) := by
  have hhome : ∀ p, a.currentProcess = some p → a.Homeless p := fun p hc => hi.homeless hc
  have hcur : k.currentProcess = a.currentProcess := by
    obtain ⟨L, root, h, -⟩ := h
    exact h.currentProcess
  unfold DiesInService at hsafe
  unfold syscallSwitch Nuc.service
  refine rel_ite Iff.rfl (fun _ => createProcess_sim h hi) fun h1 => ?_
  simp only [if_neg h1] at hsafe
  refine rel_ite Iff.rfl (fun h2 => ?_) fun h2 => ?_
  · simp only [if_pos h2] at hsafe
    rw [hcur]
    cases hc : a.currentProcess with
    | none => exact .none
    | some p => exact terminateProcess_sim h (hi.doomed hc (hsafe p hc trivial))
  simp only [if_neg h2] at hsafe
  refine rel_ite Iff.rfl (fun _ => verhogen_sim h) fun h3 => ?_
  simp only [if_neg h3] at hsafe
  refine rel_ite Iff.rfl (fun _ => passeren_sim h hhome) fun h4 => ?_
  simp only [if_neg h4] at hsafe
  refine rel_ite Iff.rfl (fun h5 => ?_) fun h5 => ?_
  · simp only [if_pos h5] at hsafe
    exact exceptionStateVec_sim h fun p hc hv => hi.doomed hc (hsafe p hc hv)
  simp only [if_neg h5] at hsafe
  refine rel_ite Iff.rfl (fun _ => getCpuTime_sim h) fun h6 => ?_
  simp only [if_neg h6] at hsafe
  refine rel_ite Iff.rfl (fun _ => waitForClock_sim h hhome) fun h7 => ?_
  simp only [if_neg h7] at hsafe
  refine rel_ite Iff.rfl (fun h8 => ?_) fun h8 => ?_
  · simp only [if_pos h8] at hsafe
    exact waitForIo_sim h fun p hc => ⟨hhome p hc, fun hv => hi.doomed hc (hsafe p hc hv)⟩
  · simp only [if_neg h8] at hsafe
    exact passUpOrDie_sim h fun p hc hv => hi.doomed hc (hsafe p hc hv)

lemma syscallHandler_sim (h : Rep k a) (hi : a.Inv)
    (hsafe : ∀ p, a.currentProcess = some p →
      Dies m a.mem (a.oldAreas p) (a.newAreas p) (.syscall (a.oldArea .syscall)) →
      a.KillSafe p) :
    Option.Rel Rep (syscallHandler m k) (a.syscallHandler m) := by
  obtain ⟨L, root, h, ht⟩ := h
  have hi' : ∀ areas, Nuc.Inv { a with oldArea := areas } := fun _ =>
    ⟨hi.homes, hi.waits, hi.shape⟩
  unfold Dies at hsafe
  obtain ⟨free, ready, blocked, tree, rfl, -⟩ := h.exists_view
  dsimp only at hsafe
  unfold syscallHandler Nuc.syscallHandler
  refine rel_ite Iff.rfl (fun hu => ?_) fun hu => ?_
  · simp only [if_pos hu] at hsafe
    refine passUpOrDie_sim ⟨L, root, h.setData ⟨rfl, rfl, rfl⟩ rfl rfl rfl rfl, ht⟩ ?_
    intro p hc hv
    exact (hi' _).doomed hc (hsafe p hc hv)
  · simp only [if_neg hu] at hsafe
    refine syscallSwitch_sim ⟨L, root, h.setData ⟨rfl, rfl, rfl⟩ rfl rfl rfl rfl, ht⟩ (hi' _) ?_
    exact hsafe

/-! ### Interrupts -/

lemma pltInterruptHandler_sim (h : Rep k a) (hi : a.Inv) :
    Option.Rel Rep (pltInterruptHandler m k) (a.pltInterrupt m) := by
  obtain ⟨L, root, h, ht⟩ := h
  unfold pltInterruptHandler Nuc.pltInterrupt
  rw [h.currentProcess]
  cases hc : a.currentProcess with
  | none => exact .none
  | some p =>
    obtain ⟨k₁, hinc, h₁⟩ := incrementProcessTime_sim (m := m) h p
    have hcur : k₁.currentProcess = some p := h₁.currentProcess.trans hc
    obtain ⟨hf, hr, hb⟩ := hi.homeless hc
    obtain ⟨readyQ, procs, hins, h₂⟩ := h₁.insertReady ⟨hf, hr, hb⟩
    rw [← hcur] at hins
    simp only [hinc, Option.bind_eq_bind, Option.bind_some, hins]
    refine Held.rep root (scheduler_sim h₂) fun b hb => ?_
    obtain rfl := Option.some.inj hb
    rw [dispatch_tree]
    exact ht

/-- The state after `n` turns of the loop of `ITInterruptHandler`. -/
def Nuc.wakeN (s : Addr) (n : Nat) (a : Nuc) : Nuc := { a with
  ready := a.ready ++ (a.blocked s).take n
  blocked := update a.blocked s ((a.blocked s).drop n)
  softBlockCount := a.softBlockCount - n
  mem := update a.mem s (a.mem s + n) }

/-- The loop wakes one process for each unit the semaphore is below zero, and passes `NULL`
to `insertProcQ` when there are too few. -/
lemma itLoop_sim {n : Nat} (h : Held L k a) (hs : s ≠ null) (hn : a.mem s = -n) :
    (n ≤ (a.blocked s).length →
      ∃ k', itLoop s (n + 1) k = some k' ∧ Held L k' (a.wakeN s n)) ∧
    ((a.blocked s).length < n → itLoop s (n + 1) k = none) := by
  induction n generalizing k a with
  | zero =>
    have hk : ¬ k.mem s < 0 := by
      rw [h.mem, hn]
      simp
    refine ⟨fun _ => ⟨k, by simp [itLoop, hk], ?_⟩, by simp⟩
    simpa [Nuc.wakeN] using h
  | succ n ih =>
    have hk : k.mem s < 0 := by
      rw [h.mem, hn]
      omega
    have h₁ := h.store s (k.mem s + 1)
    obtain ⟨procs, asl, hrem, hnil, hcons⟩ := wake_sim h₁ hs
    cases hb : a.blocked s with
    | nil =>
      have hb' : (a.store s (k.mem s + 1)).blocked s = [] := hb
      refine ⟨by simp, fun _ => ?_⟩
      rw [itLoop, if_pos hk]
      simp only [hrem, hb', List.head?_nil, Option.bind_eq_bind, Option.bind_some]
      rfl
    | cons p rest =>
      have hb' : (a.store s (k.mem s + 1)).blocked s = p :: rest := hb
      obtain ⟨readyQ, procs', hins, h₂⟩ := hcons p rest hb'
      have hsoft : k.softBlockCount = a.softBlockCount := by
        rw [h.data]
        rfl
      have h₃ := h₂.setSoftBlockCount (k.softBlockCount - 1)
      have hmem : ((a.store s (k.mem s + 1)).wake s).mem s = -n := by
        unfold Nuc.wake
        rw [hb']
        simp [Nuc.store, h.mem, hn]
      have hblock : ((a.store s (k.mem s + 1)).wake s).blocked s = rest := by
        unfold Nuc.wake
        rw [hb']
        simp
      obtain ⟨hok, hfail⟩ := ih h₃ hmem
      have hstep : itLoop s (n + 1 + 1) k = itLoop s (n + 1)
          { k.store s (k.mem s + 1) with
            procs := procs', asl, readyQ, softBlockCount := k.softBlockCount - 1 } := by
        rw [itLoop, if_pos hk]
        dsimp only [Kernel.store] at hins
        simp only [hrem, hb', List.head?_cons, Option.bind_eq_bind, Option.bind_some]
        simp only [Kernel.store, hins, Option.bind_some]
      rw [hstep]
      refine ⟨fun hle => ?_, fun hlt => hfail ?_⟩
      · obtain ⟨k', hloop, h'⟩ := hok (by simpa [hblock] using hle)
        refine ⟨k', hloop, ?_⟩
        have hwake : (a.store s (k.mem s + 1)).wake s = { a.store s (k.mem s + 1) with
            blocked := update a.blocked s rest, ready := a.ready ++ [p] } := by
          unfold Nuc.wake
          rw [hb']
          rfl
        have hsucc : a.wakeN s (n + 1) = Nuc.wakeN s n
            { (a.store s (k.mem s + 1)).wake s with
              softBlockCount := k.softBlockCount - 1 } := by
          have hcount : a.softBlockCount - ((n : Int) + 1) = a.softBlockCount - 1 - n := by omega
          have hval : a.mem s + ((n : Int) + 1) = a.mem s + 1 + n := by omega
          rw [hwake]
          simp [Nuc.wakeN, Nuc.store, hb, hsoft, h.mem, hcount, hval]
        rw [hsucc]
        exact h'
      · rw [hblock]
        simpa using hlt

lemma itInterruptHandler_sim (h : Held L k a) :
    Option.Rel (Held L) (itInterruptHandler m k) (a.itInterrupt m) := by
  have hs := (m.aligned_semAddr itSemIndex).ne_null
  unfold itInterruptHandler Nuc.itInterrupt
  dsimp only
  generalize m.semAddr itSemIndex = s at *
  rw [h.mem]
  by_cases hneg : a.mem s < 0
  · obtain ⟨hok, hfail⟩ := itLoop_sim (n := (-a.mem s).toNat) h hs (by omega)
    by_cases hn : (-a.mem s).toNat ≤ (a.blocked s).length
    · obtain ⟨k', hloop, h'⟩ := hok hn
      rw [hloop, if_pos hn]
      have h'' := (h'.store s 0)
      refine .some ?_
      have hfinal := h''.setIntervalTimer (intervalTime * m.timescale)
      simpa [Nuc.wakeN, Nuc.store, ldit] using hfinal
    · rw [hfail (by omega), if_neg hn]
      exact .none
  · -- the loop is not entered
    have hzero : (-a.mem s).toNat = 0 := by omega
    have hk : ¬ k.mem s < 0 := by rwa [h.mem]
    have hfinal := (h.store s 0).setIntervalTimer (intervalTime * m.timescale)
    simp only [hzero, itLoop, hk, if_false, Nat.zero_le, if_true, Option.bind_eq_bind,
      Option.bind_some]
    refine .some ?_
    simpa [Nuc.store, ldit] using hfinal

lemma exitInterruptHandler_sim (h : Held L k a) :
    Option.Rel (Held L) (exitInterruptHandler m k) (some (a.exitInterrupt m)) := by
  unfold exitInterruptHandler Nuc.exitInterrupt
  rw [h.currentProcess]
  by_cases hc : a.currentProcess = none
  · rw [if_pos hc, if_pos hc]
    exact scheduler_sim h
  · rw [if_neg hc, if_neg hc]
    exact .some (resume_sim h _)

lemma unblockWaiter_sim (h : Held L k a) (hs : s ≠ null) (status : Word) :
    ∃ k', unblockWaiter s status k = some k' ∧ Held L k' (a.deliver s status) := by
  obtain ⟨procs, asl, hrem, h₁, hhome⟩ := h.removeBlocked hs
  unfold unblockWaiter Nuc.deliver
  simp only [hrem, Option.bind_eq_bind, Option.bind_some]
  cases hb : a.blocked s with
  | nil =>
    have hself : update a.blocked s (a.blocked s).tail = a.blocked := by
      rw [hb, List.tail_nil, ← hb, update_eq_self]
    rw [hself] at h₁
    exact ⟨_, rfl, h₁⟩
  | cons p rest =>
    have hsoft : k.softBlockCount = a.softBlockCount := by
      rw [h.data]
      rfl
    have hps : procs.pS = a.pS := h₁.pS
    have h₂ := (h₁.setPS (update procs.pS p ((procs.pS p).setV0 status))).setSoftBlockCount
      (k.softBlockCount - 1)
    obtain ⟨hf, hr, hb'⟩ := hhome p rest hb
    obtain ⟨readyQ, procs', hins, h₃⟩ := h₂.insertReady ⟨hf, hr, hb'⟩
    dsimp only at hins
    simp only [List.head?_cons, hins, Option.bind_some]
    refine ⟨_, rfl, ?_⟩
    rw [hb] at h₃
    rw [← hsoft, ← hps]
    exact h₃

lemma deviceInterruptHandler_sim (m : Machine) (line : Fin devIntNum)
    (devNum : Fin numDevicesPerType) (h : Held L k a) :
    ∃ k', deviceInterruptHandler m line devNum k = some k' ∧
      Held L k' (a.deviceInterrupt m line devNum) := by
  have hbus : ∀ {k : Kernel} {a : Nuc}, Held L k a → k.bus = a.bus := by
    intro k a h
    rw [h.data]
    rfl
  have hcommands : ∀ {k : Kernel} {a : Nuc}, Held L k a → k.commands = a.commands := by
    intro k a h
    rw [h.data]
    rfl
  unfold deviceInterruptHandler Nuc.deviceInterrupt deviceSem
  dsimp only
  rw [hbus h, h.mem]
  generalize hd : a.bus.devreg line devNum = d
  have hs := (m.aligned_semAddr (deviceIndex (line.val + initialDevLineNum) devNum.val
    (isReceive (line.val + initialDevLineNum) d))).ne_null
  generalize hsem : m.semAddr (deviceIndex (line.val + initialDevLineNum) devNum.val
    (isReceive (line.val + initialDevLineNum) d)) = s at *
  have h₁ := h.store s (a.mem s + 1)
  rw [h₁.mem]
  by_cases hv : (a.store s (a.mem s + 1)).mem s ≤ 0
  · rw [if_pos hv, if_pos hv]
    obtain ⟨k₂, hserve, h₂⟩ :=
      unblockWaiter_sim h₁ hs (returnedStatus (line.val + initialDevLineNum) d)
    have hd₁ : (k.store s (a.mem s + 1)).bus.devreg line devNum = d := by
      rw [hbus h₁]
      exact hd
    have hb : ((a.store s (a.mem s + 1)).deliver s
        (returnedStatus (line.val + initialDevLineNum) d)).bus = a.bus := by
      unfold Nuc.deliver
      split <;> rfl
    generalize (a.store s (a.mem s + 1)).deliver s
      (returnedStatus (line.val + initialDevLineNum) d) = b at *
    have hack : b.acknowledge line devNum = { b with
        bus := { b.bus with devreg := update b.bus.devreg line (update (b.bus.devreg line) devNum
          (acknowledge (line.val + initialDevLineNum) d)) }
        commands := b.commands ++ [ackCommand line devNum d] } := by
      unfold Nuc.acknowledge
      rw [hb, hd]
    rw [hack]
    refine ⟨_, ?_, h₂.setBus _ _⟩
    unfold serveDevice
    dsimp only
    rw [hd₁, hsem, hserve, ← hbus h₂, ← hcommands h₂]
    simp [hbus h₂, hb]
  · rw [if_neg hv, if_neg hv]
    exact ⟨_, rfl, h₁⟩

lemma itInterrupt_tree {b : Nuc} (h : a.itInterrupt m = some b) : b.tree = a.tree := by
  unfold Nuc.itInterrupt at h
  dsimp only at h
  split at h
  · obtain rfl := Option.some.inj h
    rfl
  · contradiction

lemma exitInterrupt_tree (m : Machine) (a : Nuc) : (a.exitInterrupt m).tree = a.tree := by
  unfold Nuc.exitInterrupt
  split
  · exact dispatch_tree m a
  · rfl

lemma deviceInterrupt_tree (m : Machine) (line : Fin devIntNum)
    (devNum : Fin numDevicesPerType) (a : Nuc) :
    (a.deviceInterrupt m line devNum).tree = a.tree := by
  unfold Nuc.deviceInterrupt Nuc.deliver
  dsimp only
  split
  · split <;> rfl
  · rfl

lemma interruptHandler_sim (h : Rep k a) (hi : a.Inv) :
    Option.Rel Rep (interruptHandler m k) (a.interruptHandler m) := by
  have hrep := h
  obtain ⟨L, root, h, ht⟩ := h
  unfold interruptHandler Nuc.interruptHandler
  rw [h.oldArea]
  refine rel_bind rfl fun lineNum _ => ?_
  refine rel_ite Iff.rfl (fun _ => pltInterruptHandler_sim hrep hi) fun _ => ?_
  by_cases hit : lineNum = itLine
  · simp only [if_pos hit]
    refine rel_bind_rel (itInterruptHandler_sim h) fun k' b hb hab => ?_
    refine Held.rep root (exitInterruptHandler_sim hb) fun c hc => ?_
    obtain rfl := Option.some.inj hc
    rw [exitInterrupt_tree, itInterrupt_tree hab]
    exact ht
  · simp only [if_neg hit]
    have hbus : k.bus = a.bus := by
      rw [h.data]
      rfl
    rw [hbus]
    cases hline : deviceLine lineNum with
    | none => exact .none
    | some line =>
      cases hdev : determineDevice (a.bus.interruptDev line) with
      | none =>
        simp only [Option.bind_eq_bind, Option.bind_some, hdev]
        exact .none
      | some devNum =>
        simp only [Option.bind_eq_bind, Option.bind_some, hdev]
        by_cases hlt : devNum < numDevicesPerType
        · obtain ⟨k', hserve, h'⟩ := deviceInterruptHandler_sim m line
            ⟨devNum, hlt⟩ h
          simp only [hlt, dif_pos, hserve, Option.bind_some]
          refine Held.rep root (exitInterruptHandler_sim h') fun c hc => ?_
          obtain rfl := Option.some.inj hc
          rw [exitInterrupt_tree, deviceInterrupt_tree]
          exact ht
        · simp only [hlt, dif_neg, not_false_eq_true]
          exact .none

/-- One step of the nucleus refines the step on lists. -/
theorem step_sim {e : Event} (h : Rep k a) (hi : a.Inv) (hsafe : a.Safe m e) :
    Option.Rel Rep (step m k e) (a.step m e) := by
  obtain ⟨L, root, h, ht⟩ := h
  obtain ⟨homes, waits, shape⟩ := hi
  obtain ⟨free, ready, blocked, tree, rfl, -⟩ := h.exists_view
  cases e with
  | syscall st =>
    refine syscallHandler_sim ⟨L, root, h.setData (.refl _) rfl rfl rfl rfl, ht⟩
      ⟨homes, waits, shape⟩ ?_
    dsimp only
    rw [update_self]
    exact hsafe
  | programTrap st =>
    refine passUpOrDie_sim ⟨L, root, h.setData (.refl _) rfl rfl rfl rfl, ht⟩ fun p hc hv => ?_
    exact Nuc.Inv.doomed ⟨homes, waits, shape⟩ hc (hsafe p hc hv)
  | tlbManagement st =>
    refine passUpOrDie_sim ⟨L, root, h.setData (.refl _) rfl rfl rfl rfl, ht⟩ fun p hc hv => ?_
    exact Nuc.Inv.doomed ⟨homes, waits, shape⟩ hc (hsafe p hc hv)
  | interrupt st =>
    exact interruptHandler_sim ⟨L, root, h.setData (.refl _) rfl rfl rfl rfl, ht⟩
      ⟨homes, waits, shape⟩
  | device bus => exact .some ⟨L, root, h.setData (.refl _) rfl rfl rfl rfl, ht⟩
  | writeInt s v => exact .some ⟨L, root, h.setData (.refl _) rfl rfl rfl rfl, ht⟩
  | writeState s st => exact .some ⟨L, root, h.setData (.refl _) rfl rfl rfl rfl, ht⟩

end Kaya
