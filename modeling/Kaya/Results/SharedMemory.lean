import Kaya.Results.FlatMemory

/-!
# The shared segment

All processes see one memory in the shared segment, as long as its pages stay where they are: a
page that is brought in is what has been on the disk from the start for the process that brings
it in, and from then on every process finds there the last store of any process.
-/

namespace Kaya.Support

open Function Linked

variable {n : Nat}

/-- The pages of the shared segment. -/
abbrev Shared := Fin maxKuseg → Block

/-- The block that a process reads a shared page from. -/
def sharedBlockOf (p : Fin n) (i : Fin maxKuseg) : Location := ⟨i, 1, p⟩

namespace Shared

/-- What a transition makes of the shared pages: a handler brings in a page from the block that
`d` has for its process, or a process stores a word. -/
def after (b : Board n) (d : Location → Block) (m : Shared) : Sys n × Event n × Sys n → Shared
  | (s, e, s') => fun i =>
    match e with
    | .run q _ =>
      if s.place (.shared i) = none ∧ s'.place (.shared i) ≠ none then d (sharedBlockOf q i)
      else m i
    | .access q _ va (.store v) =>
      match s.translate b q (Sys.accessHi q va) true with
      | .ok _ =>
        if (UPage.shared i : UPage n).number = va.toNat / 4096 then update (m i) (wordOf va) v
        else m i
      | .error _ => m i
    | _ => m i

/-- The shared pages after the transitions `h`. -/
def ofRun (b : Board n) (s₀ : Sys n) (h : List (Sys n × Event n × Sys n)) : Shared :=
  h.foldl (after b s₀.disk.blocks) fun _ _ => 0

end Shared

namespace Sys

variable {b : Board n} {s s' : Sys n} {e : Event n} {p q : Fin n} {f : Fin poolSize}
  {u : UPage n} {i : Fin maxKuseg} {m : Shared} {m₀ : Flat n} {d : Location → Block}
  {input : Option Word} {c : Control}

/-- The shared pages that are in memory are `m`, and what they are read from is `d`. -/
structure Shares (b : Board n) (d : Location → Block) (m : Shared) (s : Sys n) : Prop where
  blocks : ∀ l : Location, l.head = 1 → s.disk.blocks l = d l
  resident : ∀ {i a}, s.place (.shared i) = some a → s.ram a = m i
  loaded : ∀ {q f i}, s.Loaded q f (.shared i) → s.ram (b.getFrameAddr f) = d (sharedBlockOf q i)

lemma shared_after_of_place (hns : ¬ s.Stores b e) (hplace : s'.place = s.place) :
    m.after b d (s, e, s') = m := by
  funext i
  unfold Shared.after
  dsimp only
  split
  · rw [hplace, if_neg fun hand => hand.2 hand.1]
  · rename_i q st va v
    split
    · rename_i a ha
      exact absurd ⟨q, st, va, v, a, rfl, ha⟩ hns
    · rfl
  · rfl

lemma Shares.calm (h : s.Shares b d m) (hns : ¬ s.Stores b e) (hcalm : Calm s s') :
    s'.Shares b d (m.after b d (s, e, s')) := by
  rw [shared_after_of_place hns hcalm.place]
  refine ⟨fun l hl => ?_, fun ha => ?_, fun hl => ?_⟩
  · rw [hcalm.blocks]
    exact h.blocks l hl
  · rw [hcalm.place] at ha
    rw [hcalm.ram]
    exact h.resident ha
  · have hfills := hl.fills
    obtain ⟨old, back, hpage, hq⟩ := hl
    rw [hcalm.control _ (.inr hfills), hcalm.busy] at hq
    rw [hcalm.ram]
    exact h.loaded ⟨old, back, hpage, hq⟩

lemma faultPage_shared {old : State} (h : faultPage p old = some (.shared i)) :
    segmentOf old.sAsid = kuseg3 ∧ pageOf old.sAsid = i := by
  unfold faultPage at h
  split_ifs at h with h3 h2
  · obtain ⟨j, hj, he⟩ := Option.map_eq_some_iff.mp h
    obtain rfl := UPage.shared.inj he
    unfold entryOf at hj
    split_ifs at hj
    exact ⟨h3, congrArg Fin.val (Option.some.inj hj)⟩
  · obtain ⟨j, -, hj⟩ := Option.map_eq_some_iff.mp h
    cases hj

lemma eq_shared_of_number (h : u.number = (UPage.shared i : UPage n).number) : u = .shared i := by
  have hi : (UPage.shared i : UPage n).number = 0xC0000 + i := rfl
  cases u with
  | priv q j =>
    have hj := number_priv q j
    omega
  | shared j =>
    have hj : (UPage.shared j : UPage n).number = 0xC0000 + j := rfl
    have hij : j = i := Fin.ext (by omega)
    rw [hij]

lemma Shares.store {st : State} {va : Addr} {v frame : Word} (h : s.Shares b d m) (hp : s.Paged b)
    (hf : s.translate b p (accessHi p va) true = .ok frame)
    (hcontrol : s'.control = s.control) (hpte : s'.pte = s.pte)
    (hram : s'.ram = update s.ram frame (update (s.ram frame) (wordOf va) v))
    (hdisk : s'.disk = s.disk) :
    s'.Shares b d (m.after b d (s, .access p st va (.store v), s')) := by
  obtain ⟨u, hu, hmatches⟩ := translate_ok hp.tables.cached hf
  obtain ⟨hnumber, hown⟩ := number_of_matches b.procCnt_le (hp.tables.built u) hmatches
  obtain ⟨g, hg, hgu, rfl⟩ := (hp.pool.mirrors u frame).mp hu
  have hplace : s'.place = s.place := by
    unfold place
    rw [hpte]
  have hafter : ∀ i, m.after b d (s, .access p st va (.store v), s') i =
      if (UPage.shared i : UPage n).number = va.toNat / 4096 then update (m i) (wordOf va) v
      else m i := by
    intro i
    unfold Shared.after
    dsimp only
    rw [hf]
  have hbusy : ∀ f, Busy s.phase f → s'.ram (b.getFrameAddr f) = s.ram (b.getFrameAddr f) := by
    intro f hf
    rw [hram]
    refine update_of_ne (fun he => hg ?_) _ _
    rw [← Board.getFrameAddr_inj he]
    exact hf
  refine ⟨fun l hl => ?_, fun {i a} ha => ?_, fun {q f i} hl => ?_⟩
  · rw [hdisk]
    exact h.blocks l hl
  · rw [hplace] at ha
    rw [hafter, hram]
    by_cases hui : u = .shared i
    · subst hui
      obtain rfl := Option.some.inj (hu.symm.trans ha)
      rw [if_pos hnumber, update_self, h.resident ha]
    · have hne : (UPage.shared i : UPage n).number ≠ va.toNat / 4096 := by
        intro hnum
        apply hui
        exact eq_shared_of_number (hnumber.trans hnum.symm)
      rw [if_neg hne]
      obtain ⟨f, hf, hfu, rfl⟩ := (hp.pool.mirrors _ a).mp ha
      rw [update_of_ne, h.resident ha]
      intro he
      rw [Board.getFrameAddr_inj he, hgu] at hfu
      exact hui (Option.some.inj hfu)
  · obtain ⟨old, back, hpage, hcl⟩ := hl
    rw [hcontrol, hdisk] at hcl
    have hl' : s.Loaded q f (.shared i) := ⟨old, back, hpage, hcl⟩
    obtain ⟨old', -, hphase⟩ := hl'.phase
    rw [hbusy f ⟨q, old', hphase⟩]
    exact h.loaded hl'

lemma Shares.boot {old : State} {back : Back} {victim : SwapEntry} (h : s.Shares b d m)
    (hcontrol : s'.control = update s.control p (.tlb old back (.boot f victim .seek)))
    (hplace : s'.place = update s.place u none) (hram : s'.ram = s.ram)
    (hdisk : s'.disk = s.disk) :
    s'.Shares b d (m.after b d (s, .run p input, s')) := by
  have hgone : ∀ v a, s'.place v = some a → s.place v = some a := by
    intro v a ha
    rw [hplace] at ha
    by_cases hv : v = u
    · rw [hv, update_self] at ha
      cases ha
    · rwa [update_of_ne hv] at ha
  have hafter : m.after b d (s, .run p input, s') = m := by
    funext i
    unfold Shared.after
    dsimp only
    refine if_neg fun hand => hand.2 ?_
    cases hi : s'.place (.shared i) with
    | none => rfl
    | some a => exact absurd (hgone _ a hi) (by simp [hand.1])
  rw [hafter]
  refine ⟨fun l hl => ?_, fun ha => ?_, fun {q g i} hl => ?_⟩
  · rw [hdisk]
    exact h.blocks l hl
  · rw [hram]
    exact h.resident (hgone _ _ ha)
  · rw [hram]
    apply h.loaded
    obtain ⟨old', back', hpage, hq⟩ := hl
    rw [hcontrol, hdisk] at hq
    by_cases hqp : q = p
    · rw [hqp, update_self] at hq
      rcases hq with hq | ⟨hq, -⟩ <;> cases hq
    · rw [update_of_ne hqp] at hq
      exact ⟨old', back', hpage, hq⟩

lemma Shares.same (h : s.Shares b d m) (hns : ¬ s.Stores b e) (hplace : s'.place = s.place)
    (hram : s'.ram = s.ram) (hblocks : ∀ l : Location, l.head = 1 → s'.disk.blocks l =
      s.disk.blocks l) (hloaded : ∀ q f u, s'.Loaded q f u → s.Loaded q f u) :
    s'.Shares b d (m.after b d (s, e, s')) := by
  rw [shared_after_of_place hns hplace]
  refine ⟨fun l hl => (hblocks l hl).trans (h.blocks l hl), fun ha => ?_, fun hl => ?_⟩
  · rw [hplace] at ha
    rw [hram]
    exact h.resident ha
  · rw [hram]
    exact h.loaded (hloaded _ _ _ hl)

lemma Shares.install {old : State} {back : Back} (h : s.Shares b d m) (hp : s.Paged b)
    (hc : s.control p = .tlb old back (.install f)) (hfree : ¬ c.Fills)
    (hcontrol : s'.control = update s.control p c)
    (hsame : ∀ v, faultPage p old ≠ some v → s'.place v = s.place v)
    (hnew : ∀ u, faultPage p old = some u → s'.place u = some (b.getFrameAddr f))
    (hram : s'.ram = s.ram) (hdisk : s'.disk = s.disk) :
    s'.Shares b d (m.after b d (s, .run p input, s')) := by
  have hphase : s.phase p = .filling old f := phase_of_control hc
  refine ⟨fun l hl => ?_, fun {i a} ha => ?_, fun {q g i} hl => ?_⟩
  · rw [hdisk]
    exact h.blocks l hl
  · rw [hram]
    unfold Shared.after
    dsimp only
    by_cases hpage : faultPage p old = some (.shared i)
    · have hnone : s.place (.shared i) = none := by
        apply hp.pool.misses p
        rw [hphase]
        exact hpage
      rw [if_pos ⟨hnone, by simp [ha]⟩]
      obtain rfl := Option.some.inj ((hnew _ hpage).symm.trans ha)
      exact h.loaded ⟨old, back, hpage, .inl hc⟩
    · have heq := hsame _ hpage
      rw [if_neg fun hand => hand.2 (heq.trans hand.1)]
      exact h.resident (heq.symm.trans ha)
  · have hfills := hl.fills
    by_cases hqp : q = p
    · rw [hqp, hcontrol, update_self] at hfills
      exact absurd hfills hfree
    · rw [hcontrol, update_of_ne hqp] at hfills
      exact absurd (eq_of_fills hp hphase hfills) hqp

section disk

variable {disk : Disk} {ram : Ram} {command : Word} {job : Job}

lemma loaded_of_complete (hd : s.DiskSafe b) {stage : IoStage} (hio : s.ios b p = some (job, stage))
    (hw : p ∉ (s.sema4 diskMutex).waiters)
    (hp : ∀ old back f, s.control p ≠ .tlb old back (.load f .release)) (q : Fin n)
    (f : Fin poolSize) (u : UPage n) (hl : ({ s with disk, ram } : Sys n).Loaded q f u) :
    s.Loaded q f u := by
  obtain ⟨old, back, hpage, hq | ⟨hq, -⟩⟩ := hl
  · exact ⟨old, back, hpage, .inl hq⟩
  · obtain rfl := eq_of_release hd hio hw hq ⟨_, rfl⟩
    exact absurd hq (hp old back f)

lemma location_loadJob_shared {d : Disk} {old : State} {addr : Word} (hn : n ≤ 63)
    (h : faultPage p old = some (.shared i))
    (harm : d.arm = cylinderOf (loadJob addr (asidOf (entryHi p)) (segmentOf old.sAsid)
      (pageOf old.sAsid)).seek) :
    d.location (loadJob addr (asidOf (entryHi p)) (segmentOf old.sAsid)
      (pageOf old.sAsid)).command = sharedBlockOf p i := by
  obtain ⟨hseg, hpage⟩ := faultPage_shared h
  have hp := p.isLt
  have hi : i.val < 32 := i.isLt
  have hne : kuseg3 ≠ kuseg2 := by decide
  unfold loadJob at harm ⊢
  dsimp only at harm ⊢
  rw [hpage] at harm
  rw [hseg, asidOf_entryHi hn, Disk.location_eq (by decide) (by omega) (by omega) harm, if_neg hne]
  have hmin : min i.val 31 = i := by omega
  rw [hmin]
  rfl

lemma head_tapeJob (disk : Disk) (hn : n ≤ 63) (p : Fin n) (k : Nat) :
    (disk.location (tapeJob (asidOf (entryHi p)) k).command).head = 0 := by
  have hp := p.isLt
  change headOf (blockCommand writeBlk (asidOf (entryHi p)) kuseg2) = 0
  rw [asidOf_entryHi hn, headOf_blockCommand (by decide) (by omega) (by omega), if_pos rfl]

lemma head_bootJob (disk : Disk) (hn : n ≤ 63) {victim : SwapEntry} (addr : Word)
    (h : victim.page n = some u) : (disk.location (bootJob addr victim).command).head = 0 := by
  cases u with
  | priv q i =>
    obtain ⟨hseg, hasid, -⟩ := page_priv h
    have hq := q.isLt
    have hne : kuseg2 ≠ kuseg3 := by decide
    unfold bootJob Disk.location
    dsimp only
    rw [hseg, if_neg hne, hasid, headOf_blockCommand (by decide) (by omega) (by omega), if_pos rfl]
  | shared i =>
    unfold bootJob Disk.location
    dsimp only
    rw [page_shared h, if_pos rfl]
    decide

lemma Shares.diskLoad {old : State} {back : Back} (h : s.Shares b d m) (hp : s.Paged b)
    (hc : s.control p = .tlb old back (.load f .release)) (hblocks : disk.blocks = s.disk.blocks)
    (hram : ∀ a, a ≠ b.getFrameAddr f → ram a = s.ram a)
    (hnew : ∀ i, faultPage p old = some (.shared i) →
      ram (b.getFrameAddr f) = s.disk.blocks (sharedBlockOf p i)) :
    ({ s with disk, ram } : Sys n).Shares b d (m.after b d (s, .disk, { s with disk, ram })) := by
  have hphase : s.phase p = .filling old f := phase_of_control hc
  have hafter : m.after b d (s, .disk, { s with disk, ram }) = m := rfl
  rw [hafter]
  refine ⟨fun l hl => ?_, fun {i a} ha => ?_, fun {q g i} hl => ?_⟩
  · rw [← h.blocks l hl]
    exact congrFun hblocks l
  · have hplace : s.place (.shared i) = some a := ha
    obtain ⟨g, hg, -, rfl⟩ := (hp.pool.mirrors _ a).mp hplace
    refine (hram _ fun he => hg ⟨p, old, ?_⟩).trans (h.resident hplace)
    rw [Board.getFrameAddr_inj he, hphase]
  · have hfills : (s.control q).Fills := hl.fills
    obtain rfl := eq_of_fills hp hphase hfills
    obtain ⟨old', back', hpage, hq | ⟨hq, -⟩⟩ := hl
    · cases hc.symm.trans hq
    · cases hc.symm.trans hq
      exact (hnew i hpage).trans (h.blocks _ rfl)

/-- The disk has done what it was working on. -/
lemma Shares.complete (h : s.Shares b d m) (hs : s.Shows b m₀) (hd : s.DiskSafe b) (hp : s.Paged b)
    (hcomplete : s.disk.complete s.ram = some (disk, ram)) :
    ({ s with disk, ram } : Sys n).Shares b d (m.after b d (s, .disk, { s with disk, ram })) := by
  have hn := b.procCnt_le
  cases hbusy : s.disk.busy with
  | none =>
    unfold Disk.complete at hcomplete
    rw [hbusy] at hcomplete
    cases hcomplete
  | some command =>
    have hkept : ∀ {l : Location} {x : Block}, l.head = 0 → ∀ l' : Location, l'.head = 1 →
        update s.disk.blocks l x l' = s.disk.blocks l' := by
      intro l x hl l' hl'
      refine update_of_ne (fun he => ?_) _ _
      rw [he, hl] at hl'
      cases hl'
    obtain ⟨p, job, ⟨hio, rfl⟩ | ⟨hio, rfl, harm, hdata⟩, hw⟩ := hd.exists_owner hbusy
    · obtain ⟨rfl, rfl⟩ := Disk.complete_seek hbusy (hd.sound p job _ hio).seek hcomplete
      refine h.same not_stores_disk rfl rfl (fun _ _ => rfl)
        (loaded_of_complete hd hio hw fun old back f hc => ?_)
      rw [ios, hc] at hio
      cases hio
    · have hjob : (s.control p).io b p = some (job, .release) := hio
      cases hc : s.control p with
      | readTape k stage =>
        rw [hc] at hjob
        cases stage with
        | io stage =>
          obtain ⟨rfl, rfl⟩ := Prod.mk.inj (Option.some.inj hjob)
          obtain ⟨rfl, rfl⟩ :=
            Disk.complete_write hbusy (opOf_add_shift _ _ _ (by decide)) hcomplete
          exact h.same not_stores_disk rfl rfl (hkept (head_tapeJob s.disk hn p k))
            (loaded_of_complete hd hio hw fun _ _ _ hc' => by cases hc.symm.trans hc')
        | _ => cases hjob
      | tlb old back ts =>
        rw [hc] at hjob
        cases ts with
        | boot f victim stage =>
          obtain ⟨rfl, rfl⟩ := Prod.mk.inj (Option.some.inj hjob)
          obtain ⟨rfl, rfl⟩ :=
            Disk.complete_write hbusy (opOf_add_shift _ _ _ (by decide)) hcomplete
          obtain ⟨hvictim, u, hu, -⟩ := hs.booting hc
          have hpage : victim.page n = some u := by
            rw [hvictim]
            exact hu
          exact h.same not_stores_disk rfl rfl (hkept (head_bootJob s.disk hn _ hpage))
            (loaded_of_complete hd hio hw fun _ _ _ hc' => by cases hc.symm.trans hc')
        | load f stage =>
          obtain ⟨rfl, rfl⟩ := Prod.mk.inj (Option.some.inj hjob)
          obtain ⟨rfl, rfl⟩ := Disk.complete_read hbusy (opOf_add_shift _ _ _ (by decide)) hcomplete
          rw [hdata]
          refine h.diskLoad hp hc rfl (fun a ha => update_of_ne ha _ _) fun i hpage => ?_
          rw [location_loadJob_shared hn hpage harm]
          exact update_self _ _ _
        | _ => cases hjob
      | _ =>
        rw [hc] at hjob
        cases hjob

end disk

lemma loaded_of_goto (hcontrol : s'.control = update s.control p c)
    (hc : ∀ old back f, c ≠ .tlb old back (.install f) ∧
      (c = .tlb old back (.load f .release) → s'.disk.busy ≠ none))
    (hbusy : s'.disk.busy = none → s.disk.busy = none) (q : Fin n) (f : Fin poolSize) (u : UPage n)
    (hl : s'.Loaded q f u) : s.Loaded q f u := by
  obtain ⟨old, back, hpage, hq⟩ := hl
  rw [hcontrol] at hq
  by_cases hqp : q = p
  · rw [hqp, update_self] at hq
    rcases hq with hq | ⟨hq, hnone⟩
    · exact absurd hq (hc old back f).1
    · exact absurd hnone ((hc old back f).2 hq)
  · rw [update_of_ne hqp] at hq
    exact ⟨old, back, hpage, hq.imp id fun hand => ⟨hand.1, hbusy hand.2⟩⟩

/-- Every step takes the shared pages along. -/
theorem Moves.shares (hm : s.Moves b e s') (hd : s.DiskSafe b) (hp : s.Paged b)
    (hs : s.Shows b m₀) (h : s.Shares b d m) : s'.Shares b d (m.after b d (s, e, s')) := by
  cases hm with
  | @look e tlb he htlb =>
    refine h.calm ?_ ⟨fun _ _ => rfl, fun _ ht => ht, rfl, rfl, rfl, rfl, rfl⟩
    rintro ⟨q, st, va, v, a, rfl, -⟩
    exact he
  | @store p st va v frame hc hf =>
    obtain ⟨tlb, hrefill, -⟩ := s.refill_eq p (accessHi p va)
    rw [hrefill]
    exact h.store hp hf rfl rfl rfl rfl
  | @fault e p st va cause back write hc hseg hf hfree =>
    obtain ⟨tlb, hrefill, -⟩ := s.refill_eq p (accessHi p va)
    rw [hrefill]
    have hout : ¬ (s.control p).Fills := by
      intro hfills
      obtain ⟨old, f, hphase⟩ := phase_of_fills hfills
      rw [hc.phase_eq] at hphase
      cases hphase
    refine h.calm ?_ (.goto rfl hout (by exact not_false) False.elim rfl rfl rfl rfl rfl rfl)
    rintro ⟨q, st', va', v, a, rfl, ha⟩
    obtain ⟨rfl, -, rfl, rfl, -⟩ := hc
    cases ha.symm.trans hf
  | @aside e p c masterSema4 he hholds hio hio' hns hctl htape hservice hfree =>
    have hout : ¬ (s.control p).Fills := by
      intro hfills
      obtain ⟨old, f, hphase⟩ := phase_of_fills hfills
      apply hns
      rw [Control.inSwap_iff]
      change (s.phase p).Inside
      rw [hphase]
      trivial
    have hc : ¬ c.Fills := by
      cases c with
      | tlb old back stage => exact absurd rfl (hctl old back stage)
      | _ => exact not_false
    refine h.calm ?_ (.goto rfl hout hc htape rfl rfl rfl rfl rfl rfl)
    rintro ⟨q, st', va', v, a, rfl, -⟩
    exact he
  | @die p input hblocked hc =>
    have hout : ¬ (s.control p).Fills := by
      rcases hc with ⟨pr, stage, hc, -⟩ | ⟨old, pr, stage, hc, -⟩ | ⟨old, back, hc, -⟩ <;>
        rw [hc] <;> exact not_false
    exact h.calm not_stores_run
      (.goto rfl hout (by exact not_false) False.elim rfl rfl rfl rfl rfl rfl)
  | printStart hc hblocked | printEnd htlb hc hblocked | printNext htlb hc hblocked
  | enter hc hblocked hcode | found hc hblocked hseg hlo hvalid | booted hc hblocked
  | take hc hblocked hmissing hframe hvacant =>
    exact h.calm not_stores_run (.goto hc not_false (by exact not_false)
      False.elim rfl rfl rfl rfl rfl rfl)
  | tapeStart hc hblocked | tapeEnd hc hbusy hblocked =>
    exact h.calm not_stores_run (.goto hc not_false (by exact not_false)
      (by exact id) rfl rfl rfl rfl rfl rfl)
  | @boot p input old back frame u hc hblocked hmissing hframe hocc hpage =>
    have hvalid : (s.pte u).frame ≠ none := by
      have hplace := hp.place_of_record hc hblocked hpage
      intro hnone
      cases hplace.symm.trans hnone
    refine h.boot (u := u) (by simp [goto, Sys.passeren]; rfl) ?_ (by simp [goto, Sys.passeren])
      (by simp [goto, Sys.passeren])
    exact (place_setPte _ u _).trans (by rw [Pte.frame_flipValid hvalid]; rfl)
  | @seek p input job control hc hstages hblocked =>
    refine h.same not_stores_run rfl rfl (fun _ _ => rfl) (loaded_of_goto rfl ?_ ?_)
    · intro old back f
      cases hstages <;> simp
    · intro hnone
      cases hnone
  | @transfer p input job control hc hstages hbusy hblocked =>
    refine h.same not_stores_run rfl rfl (fun _ _ => rfl) (loaded_of_goto rfl ?_ ?_)
    · intro old back f
      cases hstages <;> simp [goto, Disk.give]
    · intro hnone
      cases hnone
  | @bootEnd p input old back frame victim hc hbusy hblocked =>
    exact h.same not_stores_run rfl rfl (fun _ _ => rfl)
      (loaded_of_goto rfl (by simp) (by exact id))
  | @loadEnd p input old back frame hc hbusy hblocked =>
    refine h.same not_stores_run rfl rfl (fun _ _ => rfl) fun q f u hl => ?_
    obtain ⟨old', back', hpage, hq⟩ := hl
    by_cases hqp : q = p
    · subst hqp
      have hself : ((s.verhogen diskMutex).goto q (.tlb old back (.install frame))).control q =
          .tlb old back (.install frame) := goto_control_self _ _ _
      rw [hself] at hq
      rcases hq with hq | ⟨hq, -⟩
      · cases hq
        exact ⟨old, back, hpage, .inr ⟨hc, hbusy⟩⟩
      · cases hq
    · rw [goto_control_of_ne _ _ _ hqp] at hq
      exact ⟨old', back', hpage, hq⟩
  | @install p input old back frame u hc hblocked hpage =>
    have haligned := b.getFrameAddr_aligned frame
    have hplace := place_setPte ({ s with
      frameSwapPool := update s.frameSwapPool frame (faultRecord p old) } : Sys n) u
        ((s.pte u).place (b.getFrameAddr frame))
    refine h.install (c := .tlb old back .leave) hp hc not_false (by simp [goto, Sys.verhogen])
      (fun v hv => ?_) (fun v hv => ?_) (by simp [goto, Sys.verhogen])
      (by simp [goto, Sys.verhogen])
    · have hvu : v ≠ u := fun he => hv (he ▸ hpage)
      exact (congrFun hplace v).trans (update_of_ne hvu _ _)
    · obtain rfl := Option.some.inj (hpage.symm.trans hv)
      refine (congrFun hplace u).trans ?_
      rw [update_self, Pte.frame_place haligned]
  | @installOther p input old back frame hc hblocked hseg =>
    have hnone : faultPage p old = none := by
      unfold faultPage
      rw [if_neg hseg.1, if_neg hseg.2]
    exact h.install hp hc (by exact not_false) rfl (fun _ _ => rfl)
      (fun v hv => by cases hnone.symm.trans hv) rfl rfl
  | @installTrap p input old back frame hc hblocked hseg hpage =>
    exact h.install hp hc (by exact not_false) rfl (fun _ _ => rfl)
      (fun v hv => by cases hpage.symm.trans hv) rfl rfl
  | disk hcomplete => exact h.complete hs hd hp hcomplete

lemma fresh_shares (h0 : s.Fresh) : s.Shares b s.disk.blocks (Shared.ofRun b s []) := by
  refine ⟨fun _ _ => rfl, fun {i a} ha => ?_, fun {q f i} hl => ?_⟩
  · have hpte : s.pte (.shared i) = initialPte (.shared i : UPage n) := congrFun h0.kuseg3PT i
    rw [place, hpte, frame_initialPte] at ha
    cases ha
  · have hfills := hl.fills
    rw [h0.control] at hfills
    exact hfills.elim

lemma Shares.run {s₀ : Sys n} {h : List (Sys n × Event n × Sys n)} (h0 : s₀.Fresh)
    (hr : Run (Sys.step b) Agrees s₀ h s) :
    s.Shares b s₀.disk.blocks (Shared.ofRun b s₀ h) := by
  induction hr with
  | nil => exact fresh_shares h0
  | snoc hr _ hs ih =>
    have hstep := (step_moves hs).shares (DiskSafe.run h0 hr) (Paged.run h0 hr) (Shows.run h0 hr) ih
    unfold Shared.ofRun at hstep ⊢
    rwa [List.foldl_append]

end Sys

/-- As long as the re-checks of shared pages find what the page table says, every process finds in
a shared page the last store of any process since the page was brought in, and what has been on
the disk from the start where there has been none. -/
theorem shared_memory_is_one {b : Board n} {s₀ s : Sys n} {h : List (Sys n × Event n × Sys n)}
    (h0 : s₀.Fresh) (hr : Run (Sys.step b) Sys.Agrees s₀ h s) {p : Fin n} {va : Addr}
    {frame : Word} (hseg : segmentOf va = kuseg3) (hpage : pageOf va < maxKuseg)
    (hread : s.translate b p (Sys.accessHi p va) false = .ok frame) :
    s.ram frame (wordOf va) = Shared.ofRun b s₀ h ⟨pageOf va, hpage⟩ (wordOf va) := by
  have hpaged := Sys.Paged.run h0 hr
  obtain ⟨u, hu, hmatches⟩ := Sys.translate_ok hpaged.tables.cached hread
  obtain ⟨hnumber, -⟩ := number_of_matches b.procCnt_le (hpaged.tables.built u) hmatches
  have hshared : u.number = (UPage.shared ⟨pageOf va, hpage⟩ : UPage n).number := by
    have h3 : va.toNat / 2 ^ 30 = 3 := (segmentOf_eq va).symm.trans hseg
    have hval : (UPage.shared ⟨pageOf va, hpage⟩ : UPage n).number = 0xC0000 + pageOf va := rfl
    have hfield := pageOf_eq va
    have hlt : pageOf va < 32 := hpage
    omega
  rw [Sys.eq_shared_of_number hshared] at hu
  rw [(Sys.Shares.run h0 hr).resident hu]

/-- The first process brings in a shared page and stores a word, and the second one finds it. -/
theorem shared_memory_is_one_store : ∃ h s,
    Run (Sys.step twoProcesses) Sys.Agrees (Sys.blank 2) h s ∧
      s.translate twoProcesses 1 (Sys.accessHi (1 : Fin 2) 0xC0000004) false = .ok 0x200F8000 ∧
        s.ram 0x200F8000 1 = 7 ∧
          Shared.ofRun twoProcesses (Sys.blank 2) h ⟨0, by decide⟩ 1 = 7 := by
  obtain ⟨h, s, hr, hq⟩ := exists_run (Sys.step twoProcesses) Sys.Agrees (Sys.blank 2)
    (faulting 0 0xC0000000 ++ loading 0 ++
      [.run 0 none, .access 0 ⟨0, 0, 0, 0, fun _ => 0⟩ 0xC0000004 (.store 7)])
    (fun _ s => s.translate twoProcesses 1 (Sys.accessHi (1 : Fin 2) 0xC0000004) false =
      .ok 0x200F8000 ∧ s.ram 0x200F8000 1 = 7) (by decide +kernel)
  obtain ⟨hread, hram⟩ := of_decide_eq_true hq
  have hone := shared_memory_is_one Sys.fresh_blank hr (by decide) (by decide) hread
  exact ⟨h, s, hr, hread, hram, hone.symm.trans hram⟩

end Kaya.Support
