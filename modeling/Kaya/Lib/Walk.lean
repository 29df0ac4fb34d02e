import Kaya.Lib.Forest

/-!
# Walks that take a tree apart

A walk takes the first child off a node as long as there is one, walks that child in the same
way, and visits the node once it has no children left. Whatever its states are, what it does
to a tree in them and to all else follows from what one step of it does.
-/

namespace Linked

open Function

variable {α β σ τ : Type*}

/-- The steps of a walk. -/
structure Walk (σ α : Type*) where
  /-- takes the first child off a node that has one -/
  first : α → σ → Option (Option α × σ)
  visit : α → σ → Option σ

namespace Walk

/-- The loop over the children of `p`, with the walk of a child as a parameter. -/
def loop (W : Walk σ α) (go : α → σ → Option σ) : Nat → α → σ → Option σ
  | 0, _, _ => none
  | fuel + 1, p, s => (W.first p s).bind fun
    | (none, s) => some s
    | (some c, s) => (go c s).bind (loop W go fuel p)

/-- The walk of `p`, with a bound on the children of a node and one on the generations. -/
def run (W : Walk σ α) (bound : Nat) : Nat → α → σ → Option σ
  | 0, _, _ => none
  | depth + 1, p, s => (W.loop (run W bound depth) bound p s).bind (W.visit p)

/-! ### Two walks -/

/-- Every step of `W` is one of `V` on related states. -/
structure Simulates (W : Walk σ α) (V : Walk τ α) (R : σ → τ → Prop) : Prop where
  first : ∀ {p s t c s'}, R s t → W.first p s = some (c, s') →
    ∃ t', V.first p t = some (c, t') ∧ R s' t'
  visit : ∀ {p s t s'}, R s t → W.visit p s = some s' → ∃ t', V.visit p t = some t' ∧ R s' t'

section Simulates

variable {W : Walk σ α} {V : Walk τ α} {R : σ → τ → Prop} {p : α} {s s' : σ} {t : τ}
  {bound depth fuel : Nat}

lemma Simulates.loop (h : W.Simulates V R) {go : α → σ → Option σ} {go' : α → τ → Option τ}
    (hgo : ∀ c s t s', R s t → go c s = some s' → ∃ t', go' c t = some t' ∧ R s' t')
    (hR : R s t) (hs : W.loop go fuel p s = some s') :
    ∃ t', V.loop go' fuel p t = some t' ∧ R s' t' := by
  induction fuel generalizing s t with
  | zero => cases hs
  | succ n ih =>
    obtain ⟨⟨c, s₁⟩, hfirst, hs⟩ := Option.bind_eq_some_iff.mp hs
    obtain ⟨t₁, hfirst', hR₁⟩ := h.first hR hfirst
    simp only [Walk.loop, hfirst', Option.bind_some]
    cases c with
    | none =>
      obtain rfl := Option.some.inj hs
      exact ⟨t₁, rfl, hR₁⟩
    | some c =>
      obtain ⟨s₂, hgo₂, hs⟩ := Option.bind_eq_some_iff.mp hs
      obtain ⟨t₂, hgo₂', hR₂⟩ := hgo _ _ _ _ hR₁ hgo₂
      obtain ⟨t', ht', hR'⟩ := ih hR₂ hs
      exact ⟨t', by simp only [hgo₂', Option.bind_some, ht'], hR'⟩

theorem Simulates.run (h : W.Simulates V R) (hR : R s t)
    (hs : W.run bound depth p s = some s') : ∃ t', V.run bound depth p t = some t' ∧ R s' t' := by
  induction depth generalizing p s t s' with
  | zero => cases hs
  | succ n ih =>
    obtain ⟨s₁, hloop, hvisit⟩ := Option.bind_eq_some_iff.mp hs
    have hgo : ∀ c s t s', R s t → W.run bound n c s = some s' →
        ∃ t', V.run bound n c t = some t' ∧ R s' t' := fun c s t s' => ih
    obtain ⟨t₁, hloop', hR₁⟩ := h.loop hgo hR hloop
    obtain ⟨t', hvisit', hR'⟩ := h.visit hR₁ hvisit
    exact ⟨t', by simp only [Walk.run, hloop', Option.bind_some, hvisit'], hR'⟩

end Simulates

/-- The walk with a list of the nodes it has visited, the first one first. -/
def logged (W : Walk σ α) : Walk (σ × List α) α where
  first p x := (W.first p x.1).map fun r => (r.1, r.2, x.2)
  visit p x := (W.visit p x.1).map fun s => (s, x.2 ++ [p])

lemma exists_logged {W : Walk σ α} {p : α} {s s' : σ} {bound depth : Nat} (l : List α)
    (hs : W.run bound depth p s = some s') :
    ∃ l', W.logged.run bound depth p (s, l) = some (s', l') := by
  have hsim : W.Simulates W.logged fun s x => x.1 = s := by
    constructor
    · rintro p s ⟨_, l⟩ c s' rfl hs
      exact ⟨(s', l), by simp [logged, hs], rfl⟩
    · rintro p s ⟨_, l⟩ s' rfl hs
      exact ⟨(s', l ++ [p]), by simp [logged, hs], rfl⟩
  obtain ⟨⟨_, l'⟩, hl, rfl⟩ := hsim.run (t := (s, l)) rfl hs
  exact ⟨l', hl⟩

end Walk

/-! ### Walks of a forest -/

/-- What taking apart the trees of `f`, the children of `p`, may change in the links. -/
def KidsGone (p : α) (f : Forest α) (L L' : TreeLinks α) : Prop :=
  L'.child p = none ∧ ∀ x ∉ f.nodes, L'.prnt x = L.prnt x ∧
    (x ≠ p → L'.child x = L.child x) ∧ L'.sibPrev x = L.sibPrev x ∧ L'.sibNext x = L.sibNext x

variable [DecidableEq α]

/-- Unlinking the first child `c` of `p` only touches `p` and the next sibling. -/
lemma unlink_first {L : TreeLinks α} {p c : α} {ks ss : Forest α}
    (h : IsForest L (some p) none (some c) (.cons c ks ss))
    (hnd : (p :: (Forest.cons c ks ss).nodes).Nodup) (hc : L.child p = some c) :
    IsForest (L.unlink c) (some p) none ((L.unlink c).child p) ss ∧
      IsForest (L.unlink c) (some c) none ((L.unlink c).child c) ks ∧
      ∀ x, x ≠ c → x ∉ ss.nodes → (L.unlink c).prnt x = L.prnt x ∧
        (x ≠ p → (L.unlink c).child x = L.child x) ∧
        (L.unlink c).sibPrev x = L.sibPrev x ∧ (L.unlink c).sibNext x = L.sibNext x := by
  obtain ⟨hpn, hnd⟩ := List.nodup_cons.mp hnd
  have hprnt : L.prnt c = some p := h.prnt_first
  have hprev : L.sibPrev c = none := h.sibPrev_first
  have hu := h.unlink hnd (p := c) (by simp [Forest.nodes])
    (fun q hq => Option.some.inj hq ▸ hpn) (by simp)
  simp only [if_true, Forest.erase] at hu
  have hchild : (L.unlink c).child p = L.sibNext c := by
    simp [TreeLinks.unlink, hprnt, hc]
  have hss : ∀ x, x ∉ ss.nodes → L.sibNext c ≠ some x := by
    intro x hx he
    have hs := h.2.2.2.2
    rw [he] at hs
    exact hx hs.first_mem
  have hpc : p ≠ c := fun he => hpn (by simp [Forest.nodes, he])
  have hcc : (L.unlink c).child c = L.child c :=
    TreeLinks.unlink_child_of_ne (by simpa [hprnt] using hpc)
  simp only [Forest.nodes, List.nodup_cons, List.nodup_append, List.mem_cons,
    List.mem_append, not_or] at hnd hpn
  refine ⟨by rw [hchild]; exact hu, ?_, ?_⟩
  · rw [hcc]
    refine h.2.2.2.1.congr fun x hx => TreeLinks.unlink_agreeAt ?_ ?_ ?_
    · rw [hprnt]
      intro he
      exact hpn.2.1 (Option.some.inj he ▸ hx)
    · exact hss x fun hxs => hnd.2.2.2 x hx x hxs rfl
    · simp [hprev]
  · intro x hxc hx
    refine ⟨rfl, fun hxp => TreeLinks.unlink_child_of_ne ?_,
      TreeLinks.unlink_sibPrev_of_ne (hss x hx), TreeLinks.unlink_sibNext_of_ne (by simp [hprev])⟩
    rw [hprnt]
    exact fun he => hxp (Option.some.inj he).symm

namespace Walk

/-- The steps of a walk on states with the links of a tree and the value `b` of all else. The
first child is unlinked; a visit is possible if `ok`, has the effect `eff` on `b` and leaves
the links alone. -/
structure Tracks (W : Walk σ α) (At : TreeLinks α → β → σ → Prop) (ok : α → β → Prop)
    (eff : β → α → β) : Prop where
  leaf : ∀ {L b s p}, At L b s → L.child p = none → W.first p s = some (none, s)
  first : ∀ {L b s p c f}, At L b s → IsForest L (some p) none (L.child p) f →
    L.child p = some c → ∃ s', W.first p s = some (some c, s') ∧ At (L.unlink c) b s'
  visit : ∀ {L b s c}, At L b s → ok c b → ∃ s', W.visit c s = some s' ∧ At L (eff b c) s'
  keep : ∀ {b c d}, ok c b → c ≠ d → ok c (eff b d)

section Tracks

variable {W : Walk σ α} {At : TreeLinks α → β → σ → Prop} {ok : α → β → Prop} {eff : β → α → β}
  {L : TreeLinks α} {b : β} {s : σ} {p : α} {bound depth fuel : Nat}

lemma Tracks.keep_all (h : W.Tracks At ok eff) {l : List α} (hok : ok p b) (hp : p ∉ l) :
    ok p (l.foldl eff b) := by
  induction l generalizing b with
  | nil => exact hok
  | cons c l ih =>
    simp only [List.mem_cons, not_or] at hp
    exact ih (h.keep hok hp.1) hp.2

/-- The children of `p`, whose trees form `f`, and all below them are visited in postorder. -/
theorem Tracks.loop (h : W.Tracks At ok eff) (hbound : ∀ l : List α, l.Nodup → l.length < bound)
    {f : Forest α} (hs : At L b s) (hf : IsForest L (some p) none (L.child p) f)
    (hnd : (p :: f.nodes).Nodup) (hdepth : f.height ≤ depth) (hfuel : f.roots.length < fuel)
    (hok : ∀ q ∈ f.nodes, ok q b) :
    ∃ s' L', W.loop (W.run bound depth) fuel p s = some s' ∧ At L' (f.postorder.foldl eff b) s' ∧
      KidsGone p f L L' := by
  induction f generalizing depth fuel L s b p with
  | nil =>
    obtain ⟨n, rfl⟩ := Nat.exists_eq_add_one_of_ne_zero (Nat.ne_of_gt hfuel)
    refine ⟨s, L, by simp [Walk.loop, h.leaf hs hf], hs, hf, ?_⟩
    exact fun x _ => ⟨rfl, fun _ => rfl, rfl, rfl⟩
  | cons c ks ss ihk ihs =>
    obtain ⟨n, rfl⟩ := Nat.exists_eq_add_one_of_ne_zero (Nat.ne_of_gt (Nat.zero_lt_of_lt hfuel))
    have hd : depth ≠ 0 := by
      simp only [Forest.height] at hdepth
      omega
    obtain ⟨d, rfl⟩ := Nat.exists_eq_add_one_of_ne_zero hd
    simp only [Forest.height, max_le_iff, Forest.roots, List.length_cons] at hdepth hfuel
    have hc : L.child p = some c := hf.1
    obtain ⟨s₁, hfirst, hs₁⟩ := h.first hs hf hc
    rw [hc] at hf
    obtain ⟨hss, hks, hkeep⟩ := unlink_first hf hnd hc
    simp only [Forest.nodes, List.nodup_cons, List.nodup_append, List.mem_cons,
      List.mem_append, not_or] at hnd hok
    obtain ⟨⟨hpc, hpk, hps⟩, ⟨hck, hcs⟩, hndk, hnds, hdis⟩ := hnd
    have hpost : ∀ q, q ∈ ks.postorder ↔ q ∈ ks.nodes := fun q =>
      (Forest.postorder_perm_nodes ks).mem_iff
    obtain ⟨s₂, L₂, hloop₂, hs₂, hgone₂⟩ := ihk hs₁ hks (List.nodup_cons.mpr ⟨hck, hndk⟩)
      (Nat.le_of_succ_le_succ hdepth.1)
      (hbound _ (hndk.sublist (Forest.roots_sublist_nodes ks)))
      fun q hq => hok q (.inr (.inl hq))
    obtain ⟨s₃, hvisit, hs₃⟩ := h.visit hs₂ (h.keep_all (hok c (.inl rfl)) (by rwa [hpost]))
    have hlinks : ∀ x, x ∉ ks.nodes → x ≠ c → L₂.prnt x = (L.unlink c).prnt x ∧
        L₂.child x = (L.unlink c).child x ∧ L₂.sibPrev x = (L.unlink c).sibPrev x ∧
        L₂.sibNext x = (L.unlink c).sibNext x := by
      intro x hx hxc
      obtain ⟨hp, hch, hv, hn⟩ := hgone₂.2 x hx
      exact ⟨hp, hch hxc, hv, hn⟩
    have hss₂ : IsForest L₂ (some p) none (L₂.child p) ss := by
      rw [(hlinks p hpk hpc).2.1]
      refine hss.congr fun x hx => hlinks x (fun hxk => hdis x hxk x hx rfl) ?_
      exact fun he => hcs (he ▸ hx)
    obtain ⟨s₄, L₄, hloop₄, hs₄, hgone₄⟩ := @ihs L₂ _ s₃ p _ n hs₃ hss₂
      (List.nodup_cons.mpr ⟨hps, hnds⟩) hdepth.2 (by omega) fun q hq => by
        have hqk : q ∉ ks.postorder := fun hqk => hdis q ((hpost q).mp hqk) q hq rfl
        have hqne : q ≠ c := fun he => hcs (he ▸ hq)
        exact h.keep (h.keep_all (hok q (.inr (.inr hq))) hqk) hqne
    refine ⟨s₄, L₄, ?_, ?_, hgone₄.1, ?_⟩
    · have hrun : W.run bound (d + 1) c s₁ = some s₃ := by
        simp only [Walk.run, hloop₂, Option.bind_some, hvisit]
      simp only [Walk.loop, hfirst, Option.bind_some, hrun]
      exact hloop₄
    · simpa [Forest.postorder] using hs₄
    · intro x hx
      simp only [Forest.nodes, List.mem_cons, List.mem_append, not_or] at hx
      obtain ⟨hp₄, hch₄, hv₄, hn₄⟩ := hgone₄.2 x hx.2.2
      obtain ⟨hp₂, hch₂, hv₂, hn₂⟩ := hlinks x hx.2.1 hx.1
      obtain ⟨hp₁, hch₁, hv₁, hn₁⟩ := hkeep x hx.1 hx.2.2
      exact ⟨hp₄.trans (hp₂.trans hp₁), fun hxp => (hch₄ hxp).trans (hch₂.trans (hch₁ hxp)),
        hv₄.trans (hv₂.trans hv₁), hn₄.trans (hn₂.trans hn₁)⟩

end Tracks

end Walk

end Linked
