import Kaya.Nucleus.Kin
import Kaya.Refine.Rep

/-!
# Termination

`HoneyIKilledTheKids` takes the tree below a process apart while it walks it. With every
process below in the place its `p_semAdd` names, it frees them in postorder.
-/

namespace Kaya

open Function Linked

section Kill

variable {m : Machine} {L : TreeLinks PcbIx} {k : Kernel} {a : Nuc} {p : PcbIx}

lemma Held.finish (h : Held L k a) (hp : a.Homeless p) :
    ∃ pcbListH procs, freePcb k.pcbListH (some p) k.procs = some (pcbListH, procs) ∧
      Held L { k with pcbListH, procs, processCount := k.processCount - 1 }
        { a with free := a.free ++ [p], processCount := a.processCount - 1 } := by
  obtain ⟨pcbListH, procs, hfree, hh⟩ := h.insertFree hp
  refine ⟨pcbListH, procs, hfree, ?_⟩
  obtain ⟨free, ready, blocked, tree, rfl, -⟩ := h.exists_view
  exact ⟨hh.lists, by simpa [view] using hh.data, hh.links⟩

lemma takeOut_sim (h : Held L k a) (hc : a.currentProcess ≠ some p) (hp : a.Placed p) :
    ∃ k', takeOut m p k = some k' ∧ Held L k' (a.takeOut m p) := by
  have hcur : ¬ some p = k.currentProcess := by
    rw [h.data] at hc
    exact fun he => hc he.symm
  have hsem : k.procs.pSemAdd = a.pSemAdd := by
    rw [h.data]
    rfl
  rcases hp with ⟨hr, hs⟩ | ⟨s, hs, hal, hb, hps⟩
  · obtain ⟨r, readyQ, procs, hout, hheld, hhome⟩ := h.outReady hr
    obtain ⟨pcbListH, procs', hfree, hh⟩ := hheld.finish hhome
    have htake : a.takeOut m p = { a with
        ready := a.ready.erase p
        processCount := a.processCount - 1
        free := a.free ++ [p] } := by
      simp [Nuc.takeOut, hs]
    rw [htake]
    refine ⟨_, ?_, hh⟩
    dsimp only at hfree
    simp [takeOut, hcur, hsem, hs, hout, hfree]
  · obtain ⟨r, procs, asl, hout, hheld, hhome⟩ := h.outBlocked hs hb
    by_cases hd : m.IsDeviceSem s
    · have hsoft := hheld.setSoftBlockCount (k.softBlockCount - 1)
      obtain ⟨pcbListH, procs', hfree, hh⟩ := hsoft.finish ⟨hhome.free, hhome.ready, hhome.blocked⟩
      have htake : a.takeOut m p = { a with
          blocked := update a.blocked s ((a.blocked s).erase p)
          softBlockCount := k.softBlockCount - 1
          processCount := a.processCount - 1
          free := a.free ++ [p] } := by
        have hcount : a.softBlockCount = k.softBlockCount := by
          rw [h.data]
          rfl
        simp [Nuc.takeOut, hps, hs, hd, hcount]
      rw [htake]
      refine ⟨_, ?_, hh⟩
      dsimp only at hfree
      unfold Machine.IsDeviceSem at hd
      simp [takeOut, hcur, hsem, hps, hs, hout, hfree, hd]
    · have hstore := hheld.store s (k.mem s + 1)
      obtain ⟨pcbListH, procs', hfree, hh⟩ :=
        hstore.finish ⟨hhome.free, hhome.ready, hhome.blocked⟩
      have htake : a.takeOut m p = { (a.store s (k.mem s + 1)) with
          blocked := update a.blocked s ((a.blocked s).erase p)
          processCount := a.processCount - 1
          free := a.free ++ [p] } := by
        have hmem : a.mem = k.mem := by
          rw [h.data]
          rfl
        simp [Nuc.takeOut, Nuc.store, hps, hs, hd, hmem]
      rw [htake]
      refine ⟨_, ?_, hh⟩
      unfold Kernel.store at hfree
      dsimp only at hfree
      unfold Machine.IsDeviceSem at hd
      unfold Aligned at hal
      simp [takeOut, hcur, hsem, hps, hs, hout, hfree, hd, Kernel.load, Kernel.store, hal]

lemma killKids_eq_loop (m : Machine) (kill : PcbIx → Kernel → Option Kernel) (fuel : Nat)
    (p : PcbIx) (k : Kernel) : killKids kill fuel p k = (killing m).loop kill fuel p k := by
  induction fuel generalizing k with
  | zero => rfl
  | succ n ih =>
    simp only [killKids, Walk.loop, killing]
    split
    · rfl
    · cases hr : removeChild p k.procs with
      | none => rfl
      | some r =>
        obtain ⟨child, procs⟩ := r
        cases child with
        | none => rfl
        | some c =>
          simp only [Option.bind_eq_bind, Option.bind_some, Option.pure_def]
          cases kill c { k with procs } with
          | none => rfl
          | some k => exact ih k

lemma honeyIKilledTheKids_eq_run (m : Machine) (depth : Nat) :
    honeyIKilledTheKids m depth = (killing m).run (maxProc + 1) depth := by
  induction depth with
  | zero => rfl
  | succ n ih =>
    funext p k
    rw [honeyIKilledTheKids, killKids_eq_loop m, ih]
    rfl

/-- A walk that terminates processes which do not run takes them out of their lists. -/
lemma killing_tracks (m : Machine) : (killing m).Tracks (fun L a k => Held L k a)
    (fun q a => a.Placed q ∧ a.currentProcess ≠ some q) (Nuc.takeOut m) := by
  constructor
  · intro L a k p h hc
    have hchild : k.procs.pChild p = none := by
      rw [← h.links] at hc
      exact hc
    simp [killing, emptyChild, hchild]
  · intro L a k p c f h hf hc
    have hchild : k.procs.pChild p = some c := by
      rw [← h.links] at hc
      exact hc
    rw [← h.links] at hf
    refine ⟨_, ?_, h.setTree a.tree⟩
    simp [killing, emptyChild, hchild, removeChild_eq hf hchild, h.links]
  · intro L a k c h hok
    exact takeOut_sim h hok.2 hok.1
  · intro a c d hok hcd
    exact ⟨hok.1.takeOut hcd, by rw [Nuc.takeOut_currentProcess]; exact hok.2⟩

lemma length_lt_bound {l : List PcbIx} (hl : l.Nodup) : l.length < maxProc + 1 := by
  have hle := hl.length_le_card
  simp only [Fintype.card_fin] at hle
  omega

/-- The children of `p`, whose trees form `f`, and all below them are freed in postorder. -/
lemma killKids_sim (m : Machine) {f : Forest PcbIx} {depth fuel : Nat} (h : Held L k a)
    (hf : IsForest L (some p) none (L.child p) f) (hnd : (p :: f.nodes).Nodup)
    (hdepth : f.height ≤ depth) (hfuel : f.roots.length < fuel)
    (hplace : ∀ q ∈ f.nodes, a.Placed q ∧ a.currentProcess ≠ some q) :
    ∃ k' L', killKids (honeyIKilledTheKids m depth) fuel p k = some k' ∧
      Held L' k' (f.postorder.foldl (Nuc.takeOut m) a) ∧ KidsGone p f L L' := by
  rw [killKids_eq_loop m, honeyIKilledTheKids_eq_run]
  exact (killing_tracks m).loop (fun _ => length_lt_bound) h hf hnd hdepth hfuel hplace

lemma outChild_sim {root : PcbPtr} (h : Held L k a)
    (hf : IsForest L none none root (a.tree.prune p)) (hp : p ∈ a.tree.nodes)
    (hnd : a.tree.nodes.Nodup) (hroots : a.tree.roots.length ≤ 1) :
    ∃ r procs, outChild p k.procs = some (r, procs) ∧
      Rep { k with procs } { a with tree := a.tree.erase p } := by
  have hpm := Forest.mem_prune hp
  have hnd' := hnd.sublist (Forest.prune_nodes_sublist p a.tree)
  cases hq : L.prnt p with
  | none =>
    have hroot := hf.mem_roots hpm hq
    have hnil : a.tree.erase p = .nil := by
      rw [Forest.roots_prune] at hroot
      cases htree : a.tree with
      | nil => rfl
      | cons b ks ss =>
        rw [htree] at hroot hroots
        cases ss with
        | nil =>
          obtain rfl : p = b := by simpa [Forest.roots] using hroot
          simp [Forest.erase]
        | cons c ks' ss' => simp [Forest.roots] at hroots
    refine ⟨none, k.procs, ?_, L, none, ?_, ?_⟩
    · rw [← h.links] at hq
      change k.procs.pPrnt p = none at hq
      simp [outChild, hq]
    · obtain ⟨free, ready, blocked, tree, rfl, hl⟩ := h.exists_view
      exact ⟨hl, rfl, h.links⟩
    · rw [hnil]
      rfl
  | some q =>
    have hf' := hf
    rw [← h.links] at hf' hq
    have hout := outChild_eq hf' hnd' hpm hq (by simp)
    rw [h.links] at hout
    have hu := hf.unlink hnd' hpm (by simp) (by simp)
    rw [Forest.erase_prune] at hu
    exact ⟨_, _, hout, L.unlink p, _, h.setTree _, hu⟩

lemma Held.takeOut_current {r : PcbPtr} {procs : ProcTable} (h : Held L { k with procs } a)
    (hhome : a.Homeless p) (hcur : k.currentProcess = some p)
    (hout : outChild p k.procs = some (r, procs)) :
    ∃ k', takeOut m p k = some k' ∧
      Held L k' { a with free := a.free ++ [p], processCount := a.processCount - 1 } := by
  obtain ⟨pcbListH, procs', hfree, hh⟩ := h.finish hhome
  refine ⟨_, ?_, hh⟩
  dsimp only at hfree
  simp [takeOut, hcur, hout, hfree]

/-- The running process is killed with all that is below it. -/
lemma honeyIKilledTheKids_sim (h : Rep k a) (hd : a.Doomed p) :
    ∃ k', honeyIKilledTheKids m (maxProc + 1) p k = some k' ∧ Rep k' (a.kill m p) := by
  obtain ⟨L, root, h, hf⟩ := h
  have hpk := Forest.not_mem_kids hd.nodup hd.mem
  have hkids := Forest.kids_nodup p hd.nodup
  have hheight := (Forest.height_le_length _).trans (Nat.le_of_lt_succ (length_lt_bound hkids))
  have hroots := length_lt_bound (hkids.sublist (Forest.roots_sublist_nodes _))
  obtain ⟨k₁, L₁, hkill, h₁, hgone⟩ := killKids_sim m h
    (hf.kids hd.mem) (List.nodup_cons.mpr ⟨hpk, hkids⟩) hheight hroots fun q hq =>
      ⟨hd.placed q hq, by
        rw [hd.current]
        exact fun he => hpk (Option.some.inj he ▸ hq)⟩
  have htree := Nuc.foldl_takeOut_tree (m := m) (a.tree.kids p).postorder a
  have hf₁ : IsForest L₁ none none root (a.tree.prune p) :=
    hf.prune hd.nodup hgone.1 fun x _ hx => hgone.2 x hx
  have hpost : p ∉ (a.tree.kids p).postorder := by
    rwa [(Forest.postorder_perm_nodes _).mem_iff]
  have hhome := hd.homeless.foldl_takeOut (m := m) hpost
  have hcur : ((a.tree.kids p).postorder.foldl (Nuc.takeOut m) a).currentProcess = some p := by
    rw [Nuc.foldl_takeOut_currentProcess]
    exact hd.current
  unfold Nuc.kill
  generalize (a.tree.kids p).postorder.foldl (Nuc.takeOut m) a = b at *
  obtain ⟨r, procs, hout, L₂, root₂, h₂, hf₂⟩ := outChild_sim h₁ (by rwa [htree])
    (by rw [htree]; exact hd.mem) (by rw [htree]; exact hd.nodup) (by rw [htree]; exact hd.roots)
  have hk : k₁.currentProcess = some p := by
    rw [← hcur, h₁.data]
    rfl
  obtain ⟨k', htake, h₃⟩ :=
    h₂.takeOut_current (m := m) ⟨hhome.free, hhome.ready, hhome.blocked⟩ hk hout
  refine ⟨k', ?_, L₂, root₂, h₃, hf₂⟩
  rw [honeyIKilledTheKids, hkill]
  exact htake

end Kill

end Kaya
