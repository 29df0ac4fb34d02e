import Kaya.Support.Flat

/-!
# The contents of the private pages

A page that is in its page table is in its frame, a page that is being evicted is in the frame
until it has been written out, and every other page is on the disk. No step changes any contents
but a store.
-/

namespace Kaya.Support

open Function Linked

variable {n : Nat} {b : Board n} {p q : Fin n} {i j : Fin maxKuseg} {u : UPage n}

/-- The control of a process on which it depends where the contents of a page are. -/
def Control.Fills : Control → Prop
  | .tlb _ _ (.boot _ _ _) | .tlb _ _ (.load _ .release) | .tlb _ _ (.install _) => True
  | _ => False

namespace Sys

variable {s s' : Sys n} {e : Event n} {f : Fin poolSize} {m : Flat n} {c : Control}

/-- The page has been evicted from the frame by `q` and is not on the disk yet. -/
def Saving (s : Sys n) (q : Fin n) (f : Fin poolSize) (u : UPage n) : Prop :=
  ∃ old back victim io, s.control q = .tlb old back (.boot f victim io) ∧
    victim.page n = some u ∧ ¬ (io = .release ∧ s.disk.busy = none)

/-- The page has been read into the frame by `q` and is not in its page table yet. -/
def Loaded (s : Sys n) (q : Fin n) (f : Fin poolSize) (u : UPage n) : Prop :=
  ∃ old back, faultPage q old = some u ∧ (s.control q = .tlb old back (.install f) ∨
    s.control q = .tlb old back (.load f .release) ∧ s.disk.busy = none)

/-- The contents of the private pages are the arrays `m`. -/
structure Shows (b : Board n) (m : Flat n) (s : Sys n) : Prop where
  booting : ∀ {q old back f victim io}, s.control q = .tlb old back (.boot f victim io) →
    victim = s.frameSwapPool f ∧ ∃ u, s.resident f = some u ∧ s.place u = none
  tape : ∀ {p}, (s.control p).InTape → ∀ f i, s.resident f ≠ some (.priv p i)
  resident : ∀ {p i a}, s.place (.priv p i) = some a → s.ram a = m p i
  saving : ∀ {q f p i}, s.Saving q f (.priv p i) → s.ram (b.getFrameAddr f) = m p i
  stored : ∀ {p i}, s.place (.priv p i) = none → (∀ q f, ¬ s.Saving q f (.priv p i)) →
    s.disk.blocks (blockOf p i) = m p i
  loaded : ∀ {q f i}, s.Loaded q f (.priv q i) → s.ram (b.getFrameAddr f) = m q i

lemma Shows.resident_of_saving (h : s.Shows b m) (hs : s.Saving q f u) :
    s.resident f = some u ∧ s.place u = none := by
  obtain ⟨old, back, victim, io, hc, hpage, -⟩ := hs
  obtain ⟨rfl, v, hv, hplace⟩ := h.booting hc
  have huv : u = v := Option.some.inj (hpage.symm.trans hv)
  exact ⟨hpage, huv ▸ hplace⟩

lemma Shows.tape_eq (h : s.Shows b m) (hp : s.Paged b) (ht : (s.control p).InTape) :
    s.disk.blocks (blockOf p i) = m p i := by
  apply h.stored
  · cases hplace : s.place (.priv p i) with
    | none => rfl
    | some a =>
      obtain ⟨f, -, hf, -⟩ := (hp.pool.mirrors _ a).mp hplace
      exact absurd hf (h.tape ht f i)
  · intro q f hs
    exact h.tape ht f i (h.resident_of_saving hs).1

lemma Shows.same (h : s.Shows b m)
    (hboot : ∀ {q old back f victim io}, s'.control q = .tlb old back (.boot f victim io) →
      ∃ io', s.control q = .tlb old back (.boot f victim io'))
    (htape : ∀ q, (s'.control q).InTape → (s.control q).InTape)
    (hpool : s'.frameSwapPool = s.frameSwapPool) (hplace : s'.place = s.place)
    (hram : s'.ram = s.ram) (hblocks : s'.disk.blocks = s.disk.blocks)
    (hsaving : ∀ q f u, s'.Saving q f u ↔ s.Saving q f u)
    (hloaded : ∀ q f u, s'.Loaded q f u → s.Loaded q f u) : s'.Shows b m := by
  have hresident : s'.resident = s.resident := by
    unfold Sys.resident
    rw [hpool]
  refine ⟨fun hc => ?_, fun ht => ?_, fun ha => ?_, fun hs => ?_, fun ha hs => ?_, fun hl => ?_⟩
  · obtain ⟨io', hc⟩ := hboot hc
    rw [hpool, hresident, hplace]
    exact h.booting hc
  · rw [hresident]
    exact h.tape (htape _ ht)
  · rw [hplace] at ha
    rw [hram]
    exact h.resident ha
  · rw [hram]
    exact h.saving ((hsaving _ _ _).mp hs)
  · rw [hplace] at ha
    rw [hblocks]
    exact h.stored ha fun q f hsq => hs q f ((hsaving q f _).mpr hsq)
  · rw [hram]
    exact h.loaded (hloaded _ _ _ hl)

/-- The event stores a word. -/
def Stores (b : Board n) (s : Sys n) (e : Event n) : Prop :=
  ∃ q st va v a, e = .access q st va (.store v) ∧ s.translate b q (accessHi q va) true = .ok a

lemma after_of_not_stores (hns : ¬ s.Stores b e) (p : Fin n) (i : Fin maxKuseg) :
    m.after b (s, e, s') p i =
      if (s'.control p).InTape then s'.disk.blocks (blockOf p i) else m p i := by
  unfold Flat.after
  dsimp only
  split_ifs with ht
  · rfl
  · split
    · rename_i q st va v
      split
      · rename_i a ha
        exact absurd ⟨q, st, va, v, a, rfl, ha⟩ hns
      · rfl
    · rfl

lemma Shows.after_eq (h : s.Shows b m) (hp : s.Paged b) (hns : ¬ s.Stores b e)
    (htape : ∀ q, (s'.control q).InTape → (s.control q).InTape)
    (hblocks : s'.disk.blocks = s.disk.blocks) : m.after b (s, e, s') = m := by
  funext p i
  rw [after_of_not_stores hns]
  split_ifs with ht
  · rw [hblocks]
    exact h.tape_eq hp (htape p ht)
  · rfl

lemma saving_congr (hc : ∀ q, (s.control q).Fills ∨ (s'.control q).Fills →
      s'.control q = s.control q) (hbusy : s'.disk.busy = s.disk.busy) (q : Fin n)
    (f : Fin poolSize) (u : UPage n) : s'.Saving q f u ↔ s.Saving q f u := by
  unfold Saving
  rw [hbusy]
  constructor
  · rintro ⟨old, back, victim, io, hq, hpage, hio⟩
    have hsame := hc q (.inr (by rw [hq]; trivial))
    exact ⟨old, back, victim, io, hsame ▸ hq, hpage, hio⟩
  · rintro ⟨old, back, victim, io, hq, hpage, hio⟩
    have hsame := hc q (.inl (by rw [hq]; trivial))
    exact ⟨old, back, victim, io, hsame.trans hq, hpage, hio⟩

/-- What a step does that has nothing to do with the contents of pages. -/
structure Calm (s s' : Sys n) : Prop where
  control : ∀ q, (s.control q).Fills ∨ (s'.control q).Fills → s'.control q = s.control q
  tape : ∀ q, (s'.control q).InTape → (s.control q).InTape
  pool : s'.frameSwapPool = s.frameSwapPool
  place : s'.place = s.place
  ram : s'.ram = s.ram
  busy : s'.disk.busy = s.disk.busy
  blocks : s'.disk.blocks = s.disk.blocks

lemma Shows.calm (h : s.Shows b m) (hp : s.Paged b) (hns : ¬ s.Stores b e) (hcalm : Calm s s') :
    s'.Shows b (m.after b (s, e, s')) := by
  rw [h.after_eq hp hns hcalm.tape hcalm.blocks]
  refine h.same (fun {q old back f victim io} hq => ⟨io, ?_⟩) hcalm.tape hcalm.pool hcalm.place
    hcalm.ram hcalm.blocks (saving_congr hcalm.control hcalm.busy) fun q f u hl => ?_
  · exact (hcalm.control q (.inr (by rw [hq]; trivial))).symm.trans hq
  · obtain ⟨old, back, hpage, hq⟩ := hl
    have hfills : (s'.control q).Fills := by
      rcases hq with hq | ⟨hq, -⟩ <;> rw [hq] <;> trivial
    rw [hcalm.control q (.inr hfills), hcalm.busy] at hq
    exact ⟨old, back, hpage, hq⟩

lemma control_goto (s : Sys n) {c : Control} (hp : ¬ (s.control p).Fills) (hc : ¬ c.Fills)
    (q : Fin n)
    (h : (s.control q).Fills ∨ ((s.goto p c).control q).Fills) :
    (s.goto p c).control q = s.control q := by
  by_cases hq : q = p
  · subst hq
    rw [goto_control_self] at h
    exact (h.elim hp hc).elim
  · exact goto_control_of_ne s p c hq

lemma inTape_goto (s : Sys n) {c : Control} (hc : c.InTape → (s.control p).InTape) (q : Fin n)
    (h : ((s.goto p c).control q).InTape) : (s.control q).InTape := by
  by_cases hq : q = p
  · subst hq
    rw [goto_control_self] at h
    exact hc h
  · rwa [goto_control_of_ne s p c hq] at h

lemma Calm.goto {c₀ c : Control} (hc₀ : s.control p = c₀) (hp : ¬ c₀.Fills) (hc : ¬ c.Fills)
    (htape : c.InTape → c₀.InTape) (hcontrol : s'.control = (s.goto p c).control)
    (hpool : s'.frameSwapPool = s.frameSwapPool) (hpte : s'.pte = s.pte) (hram : s'.ram = s.ram)
    (hbusy : s'.disk.busy = s.disk.busy) (hblocks : s'.disk.blocks = s.disk.blocks) :
    Calm s s' := by
  subst hc₀
  refine ⟨fun q h => ?_, fun q h => ?_, hpool, ?_, hram, hbusy, hblocks⟩
  · rw [hcontrol] at h ⊢
    exact control_goto s hp hc q h
  · rw [hcontrol] at h
    exact inTape_goto s htape q h
  · unfold Sys.place
    rw [hpte]

lemma phase_of_fills (h : (s.control q).Fills) : ∃ old f, s.phase q = .filling old f := by
  unfold phase
  cases hc : s.control q with
  | tlb old back stage =>
    rw [hc] at h
    cases stage with
    | boot f victim io => exact ⟨old, f, rfl⟩
    | load f io => exact ⟨old, f, rfl⟩
    | install f => exact ⟨old, f, rfl⟩
    | enter => exact h.elim
    | check => exact h.elim
    | booted f => exact h.elim
    | leave => exact h.elim
  | _ =>
    rw [hc] at h
    exact h.elim

lemma Saving.fills (h : s.Saving q f u) : (s.control q).Fills := by
  obtain ⟨old, back, victim, io, hc, -⟩ := h
  rw [hc]
  trivial

lemma Loaded.fills (h : s.Loaded q f u) : (s.control q).Fills := by
  obtain ⟨old, back, -, hc | ⟨hc, -⟩⟩ := h <;> rw [hc] <;> trivial

lemma Saving.busy (h : s.Saving q f u) : Busy s.phase f := by
  obtain ⟨old, back, victim, io, hc, -⟩ := h
  exact ⟨q, old, phase_of_control hc⟩

lemma Loaded.phase (h : s.Loaded q f u) :
    ∃ old, faultPage q old = some u ∧ s.phase q = .filling old f := by
  obtain ⟨old, back, hpage, hc | ⟨hc, -⟩⟩ := h
  · exact ⟨old, hpage, phase_of_control hc⟩
  · exact ⟨old, hpage, phase_of_control hc⟩

lemma eq_of_number {v : UPage n} (h : (UPage.priv p i).number = v.number)
    (hv : ∀ q j, v = .priv q j → q = p) : v = .priv p i := by
  have hi := number_priv p i
  cases v with
  | priv q j =>
    obtain rfl := hv q j rfl
    have hj := number_priv q j
    have hij : j = i := Fin.ext (by omega)
    rw [hij]
  | shared j =>
    have hj : (UPage.shared j : UPage n).number = 0xC0000 + j := rfl
    omega

lemma Shows.store {st : State} {va : Addr} {v frame : Word} (h : s.Shows b m) (hp : s.Paged b)
    (hc : s.InUser p) (hf : s.translate b p (accessHi p va) true = .ok frame)
    (hcontrol : s'.control = s.control) (hpool : s'.frameSwapPool = s.frameSwapPool)
    (hpte : s'.pte = s.pte)
    (hram : s'.ram = update s.ram frame (update (s.ram frame) (wordOf va) v))
    (hdisk : s'.disk = s.disk) :
    s'.Shows b (m.after b (s, .access p st va (.store v), s')) := by
  obtain ⟨u, hu, hmatches⟩ := translate_ok hp.tables.cached hf
  obtain ⟨hnumber, hown⟩ := number_of_matches b.procCnt_le (hp.tables.built u) hmatches
  obtain ⟨g, hg, hgu, rfl⟩ := (hp.pool.mirrors u frame).mp hu
  have hplace : s'.place = s.place := by
    unfold place
    rw [hpte]
  have hresident : s'.resident = s.resident := by
    unfold Sys.resident
    rw [hpool]
  have hsaving : ∀ q f u, s'.Saving q f u ↔ s.Saving q f u :=
    saving_congr (fun q _ => by rw [hcontrol]) (by rw [hdisk])
  have hafter : m.after b (s, .access p st va (.store v), s') = m.store p va v := by
    funext q i
    unfold Flat.after
    dsimp only
    rw [hf, hcontrol, hdisk]
    split_ifs with ht
    · have hqp : q ≠ p := by
        rintro rfl
        obtain ⟨st', hst⟩ := hc
        rw [hst] at ht
        exact ht
      unfold Flat.store
      rw [if_neg fun hand => hqp hand.1]
      exact h.tape_eq hp ht
    · rfl
  have hother : ∀ q i, u ≠ .priv q i → m.store p va v q i = m q i := by
    intro q i hne
    unfold Flat.store
    refine if_neg fun hand => hne ?_
    obtain ⟨rfl, hnum⟩ := hand
    exact eq_of_number (hnum.trans hnumber.symm) hown
  have hbusy : ∀ f, Busy s.phase f → s'.ram (b.getFrameAddr f) = s.ram (b.getFrameAddr f) := by
    intro f hf
    rw [hram]
    refine update_of_ne (fun he => hg ?_) _ _
    rw [← Board.getFrameAddr_inj he]
    exact hf
  rw [hafter]
  refine ⟨fun hc => ?_, fun ht => ?_, fun {q i a} ha => ?_, fun {q f p' i} hs => ?_,
    fun {q i} ha hs => ?_, fun {q f i} hl => ?_⟩
  · rw [hcontrol] at hc
    rw [hpool, hresident, hplace]
    exact h.booting hc
  · rw [hcontrol] at ht
    rw [hresident]
    exact h.tape ht
  · rw [hplace] at ha
    by_cases hui : u = .priv q i
    · subst hui
      obtain rfl := Option.some.inj (hu.symm.trans ha)
      obtain rfl := hown q i rfl
      rw [hram, update_self, h.resident ha]
      unfold Flat.store
      rw [if_pos ⟨rfl, hnumber⟩]
    · rw [hother q i hui, hram]
      obtain ⟨f, hf, hfu, rfl⟩ := (hp.pool.mirrors _ a).mp ha
      rw [update_of_ne, h.resident ha]
      intro he
      have hfg := Board.getFrameAddr_inj he
      rw [hfg, hgu] at hfu
      exact hui (Option.some.inj hfu)
  · have hs' := (hsaving q f _).mp hs
    rw [hbusy f hs'.busy, h.saving hs', hother p' i fun he => ?_]
    have hnone := (h.resident_of_saving hs').2
    rw [← he, hu] at hnone
    cases hnone
  · rw [hplace] at ha
    rw [hdisk, h.stored ha fun q' f hs' => hs q' f ((hsaving q' f _).mpr hs'),
      hother q i fun he => ?_]
    rw [← he, hu] at ha
    cases ha
  · obtain ⟨old, back, hpage, hcl⟩ := hl
    rw [hcontrol, hdisk] at hcl
    have hl' : s.Loaded q f (.priv q i) := ⟨old, back, hpage, hcl⟩
    obtain ⟨old', hpage', hphase⟩ := hl'.phase
    rw [hbusy f ⟨q, old', hphase⟩, h.loaded hl', hother q i fun he => ?_]
    have hnone : s.place (.priv q i) = none := by
      apply hp.pool.misses q
      rw [hphase]
      exact hpage'
    rw [← he, hu] at hnone
    cases hnone

lemma not_fills_of_waiting {old : State} (hp : s.Paged b) (hc : s.phase p = .waiting old)
    (hw : ¬ s.Blocked p) (q : Fin n) : ¬ (s.control q).Fills := by
  intro hq
  obtain ⟨old', f, hf⟩ := phase_of_fills hq
  exact hp.pool.not_busy hc (not_waiting_swap hw) ⟨q, old', hf⟩

lemma eq_of_fills {old : State} (hp : s.Paged b) (hc : s.phase p = .filling old f)
    (hq : (s.control q).Fills) : q = p := by
  obtain ⟨old', g, hg⟩ := phase_of_fills hq
  exact hp.pool.eq_of_filling hg hc

/-- The page in a frame is evicted. -/
lemma Shows.boot {old : State} {back : Back} (h : s.Shows b m) (hp : s.Paged b)
    (hc : s.control p = .tlb old back .check) (hblocked : ¬ s.Blocked p)
    (hu : s.resident f = some u)
    (hcontrol : s'.control =
      update s.control p (.tlb old back (.boot f (s.frameSwapPool f) .seek)))
    (hpool : s'.frameSwapPool = s.frameSwapPool) (hplace : s'.place = update s.place u none)
    (hram : s'.ram = s.ram) (hdisk : s'.disk = s.disk) : s'.Shows b m := by
  have hphase : s.phase p = .waiting old := phase_of_control hc
  have hnone := not_fills_of_waiting hp hphase hblocked
  have hself : s'.control p = .tlb old back (.boot f (s.frameSwapPool f) .seek) := by
    rw [hcontrol, update_self]
  have honly : ∀ q, (s'.control q).Fills → q = p := by
    intro q hq
    by_contra hqp
    rw [hcontrol, update_of_ne hqp] at hq
    exact hnone q hq
  have hresident : s'.resident = s.resident := by
    unfold Sys.resident
    rw [hpool]
  have hfree : ¬ Busy s.phase f := hp.pool.not_busy hphase (not_waiting_swap hblocked)
  have hsaves : s'.Saving p f u := ⟨old, back, _, .seek, hself, hu, by simp⟩
  refine ⟨fun {q old' back' g victim io} hq => ?_, fun {q} ht => ?_, fun {q i a} ha => ?_,
    fun {q g p' i} hs => ?_, fun {q i} ha hs => ?_, fun {q g i} hl => ?_⟩
  · obtain rfl := honly q (by rw [hq]; trivial)
    rw [hself] at hq
    cases hq
    rw [hpool, hresident, hplace]
    exact ⟨rfl, u, hu, update_self _ _ _⟩
  · rw [hresident]
    have hqp : q ≠ p := by
      rintro rfl
      rw [hself] at ht
      exact ht
    rw [hcontrol, update_of_ne hqp] at ht
    exact h.tape ht
  · rw [hplace] at ha
    by_cases hqu : UPage.priv q i = u
    · rw [hqu, update_self] at ha
      cases ha
    · rw [update_of_ne hqu] at ha
      rw [hram]
      exact h.resident ha
  · obtain rfl := honly q hs.fills
    obtain ⟨old', back', victim, io, hq, hpage, -⟩ := hs
    rw [hself] at hq
    cases hq
    obtain rfl := Option.some.inj (hu.symm.trans hpage)
    rw [hram]
    exact h.resident (hp.pool.mirrors.place_eq hfree hu)
  · have hqu : UPage.priv q i ≠ u := by
      rintro rfl
      exact hs p f hsaves
    rw [hplace, update_of_ne hqu] at ha
    rw [hdisk]
    exact h.stored ha fun q' g hs' => hnone q' hs'.fills
  · obtain rfl := honly q hl.fills
    obtain ⟨old', back', -, hq | ⟨hq, -⟩⟩ := hl <;> rw [hself] at hq <;> cases hq

lemma Shows.install {old : State} {back : Back} {r : SwapEntry} {place' : UPage n → Option Word}
    (h : s.Shows b m) (hp : s.Paged b) (hc : s.control p = .tlb old back (.install f))
    (hr : r.page n = faultPage p old) (hfills : ¬ c.Fills) (htape : ¬ c.InTape)
    (hcontrol : s'.control = update s.control p c)
    (hpool : s'.frameSwapPool = update s.frameSwapPool f r) (hplace : s'.place = place')
    (hsame : ∀ v, faultPage p old ≠ some v → place' v = s.place v)
    (hnew : ∀ u, faultPage p old = some u → place' u = some (b.getFrameAddr f))
    (hram : s'.ram = s.ram) (hdisk : s'.disk = s.disk) : s'.Shows b m := by
  have hphase : s.phase p = .filling old f := phase_of_control hc
  have hout : ∀ q, ¬ (s'.control q).Fills := by
    intro q hq
    by_cases hqp : q = p
    · rw [hqp, hcontrol, update_self] at hq
      exact hfills hq
    · rw [hcontrol, update_of_ne hqp] at hq
      exact hqp (eq_of_fills hp hphase hq)
  have hresident : s'.resident = update s.resident f (faultPage p old) := by
    rw [← hr, ← resident_record]
    unfold Sys.resident
    rw [hpool]
  refine ⟨fun {q old' back' g victim io} hq => ?_, fun {q} ht g i => ?_, fun {q i a} ha => ?_,
    fun {q g p' i} hs => (hout q hs.fills).elim, fun {q i} ha hs => ?_,
    fun {q g i} hl => (hout q hl.fills).elim⟩
  · exact (hout q (by rw [hq]; trivial)).elim
  · have hqp : q ≠ p := by
      rintro rfl
      rw [hcontrol, update_self] at ht
      exact htape ht
    rw [hcontrol, update_of_ne hqp] at ht
    rw [hresident]
    by_cases hg : g = f
    · rw [hg, update_self]
      exact fun he => hqp (faultPage_priv he).1
    · rw [update_of_ne hg]
      exact h.tape ht g i
  · rw [hplace] at ha
    rw [hram]
    by_cases hpage : faultPage p old = some (.priv q i)
    · rw [hnew _ hpage] at ha
      obtain rfl := Option.some.inj ha
      obtain ⟨rfl, -⟩ := faultPage_priv hpage
      exact h.loaded ⟨old, back, hpage, .inl hc⟩
    · rw [hsame _ hpage] at ha
      exact h.resident ha
  · rw [hplace] at ha
    by_cases hpage : faultPage p old = some (.priv q i)
    · rw [hnew _ hpage] at ha
      cases ha
    · rw [hsame _ hpage] at ha
      rw [hdisk]
      refine h.stored ha fun q' g hs' => ?_
      obtain rfl := eq_of_fills hp hphase hs'.fills
      obtain ⟨old', back', victim, io, hq, -⟩ := hs'
      rw [hc] at hq
      cases hq

lemma eq_of_release {job : Job} {stage : IoStage} (hd : s.DiskSafe b)
    (hp : s.ios b p = some (job, stage)) (hw : p ∉ (s.sema4 diskMutex).waiters) {old : State}
    {back : Back} {ts : TlbStage} (hq : s.control q = .tlb old back ts)
    (ht : ∃ job', ts.io b q old = some (job', .release)) : q = p := by
  obtain ⟨job', hjob'⟩ := ht
  have hio : s.ios b q = some (job', .release) := by
    rw [ios, hq]
    exact hjob'
  exact hd.eq_of_not_waiting (by simp [hio]) (hd.not_mem_waiters hio (by simp)) (by simp [hp])
    hw

lemma Shows.give {job : Job} {stage stage' : IoStage} {control : IoStage → Control}
    (h : s.Shows b m) (hd : s.DiskSafe b) (hc : s.control p = control stage)
    (hstages : Stages b p job control) (hblocked : ¬ s.Blocked p) (hne : stage ≠ .release)
    (hcontrol : s'.control = update s.control p (control stage'))
    (hpool : s'.frameSwapPool = s.frameSwapPool) (hpte : s'.pte = s.pte) (hram : s'.ram = s.ram)
    (hbusy : s'.disk.busy ≠ none) (hblocks : s'.disk.blocks = s.disk.blocks) : s'.Shows b m := by
  have hio : s.ios b p = some (job, stage) := by rw [ios, hc, hstages.io_eq]
  have hself : s'.control p = control stage' := by rw [hcontrol, update_self]
  have hother : ∀ {q}, q ≠ p → s'.control q = s.control q := fun hq => by
    rw [hcontrol, update_of_ne hq]
  have hplace : s'.place = s.place := by
    unfold place
    rw [hpte]
  refine h.same (fun {q old back f victim io} hq => ?_) (fun q ht => ?_) hpool hplace hram hblocks
    (fun q f u => ?_) fun q f u hl => ?_
  · by_cases hqp : q = p
    · subst hqp
      rw [hself] at hq
      cases hstages with
      | tape i => cases hq
      | boot old' back' f' victim' =>
        cases hq
        exact ⟨stage, hc⟩
      | load old' back' f' => cases hq
    · exact ⟨io, hother hqp ▸ hq⟩
  · by_cases hqp : q = p
    · subst hqp
      rw [hself] at ht
      rw [hc]
      cases hstages with
      | tape i => trivial
      | boot old' back' f' victim' => exact ht.elim
      | load old' back' f' => exact ht.elim
    · rwa [hother hqp] at ht
  · unfold Saving
    by_cases hqp : q = p
    · subst hqp
      rw [hself, hc]
      cases hstages with
      | tape i => simp
      | boot old' back' f' victim' =>
        constructor
        · rintro ⟨old, back, victim, io, hq, hpage, -⟩
          cases hq
          exact ⟨old', back', victim', stage, rfl, hpage, fun hand => hne hand.1⟩
        · rintro ⟨old, back, victim, io, hq, hpage, -⟩
          cases hq
          exact ⟨old', back', victim', stage', rfl, hpage, fun hand => hbusy hand.2⟩
      | load old' back' f' => simp
    · rw [hother hqp]
      refine exists_congr fun old => exists_congr fun back => exists_congr fun victim =>
        exists_congr fun io => and_congr_right fun hq => and_congr_right fun _ => ?_
      refine iff_of_true (fun hand => hbusy hand.2) ?_
      rintro ⟨rfl, -⟩
      exact hqp (eq_of_release hd hio (not_waiting_disk hblocked) hq ⟨_, rfl⟩)
  · obtain ⟨old, back, hpage, hq | ⟨hq, hn⟩⟩ := hl
    · by_cases hqp : q = p
      · subst hqp
        rw [hself] at hq
        cases hstages <;> cases hq
      · exact ⟨old, back, hpage, .inl (hother hqp ▸ hq)⟩
    · exact absurd hn hbusy

lemma Shows.finish {old : State} {back : Back} {ts : TlbStage} (h : s.Shows b m)
    (hc : s.control p = .tlb old back ts)
    (hts : (∃ f victim, ts = .boot f victim .release ∧ c = .tlb old back (.booted f)) ∨
      ∃ f, ts = .load f .release ∧ c = .tlb old back (.install f))
    (hbusy : s.disk.busy = none) (hcontrol : s'.control = update s.control p c)
    (hpool : s'.frameSwapPool = s.frameSwapPool) (hpte : s'.pte = s.pte) (hram : s'.ram = s.ram)
    (hdisk : s'.disk = s.disk) : s'.Shows b m := by
  have hself : s'.control p = c := by rw [hcontrol, update_self]
  have hother : ∀ {q}, q ≠ p → s'.control q = s.control q := fun hq => by
    rw [hcontrol, update_of_ne hq]
  have hplace : s'.place = s.place := by
    unfold place
    rw [hpte]
  refine h.same (fun {q old' back' f' victim' io} hq => ?_) (fun q ht => ?_) hpool hplace hram
    (by rw [hdisk]) (fun q f' u => ?_) fun q f' u hl => ?_
  · by_cases hqp : q = p
    · subst hqp
      rw [hself] at hq
      rcases hts with ⟨f, victim, rfl, rfl⟩ | ⟨f, rfl, rfl⟩ <;> cases hq
    · exact ⟨io, hother hqp ▸ hq⟩
  · by_cases hqp : q = p
    · subst hqp
      rw [hself] at ht
      rcases hts with ⟨f, victim, rfl, rfl⟩ | ⟨f, rfl, rfl⟩ <;> exact ht.elim
    · rwa [hother hqp] at ht
  · unfold Saving
    rw [hdisk]
    by_cases hqp : q = p
    · subst hqp
      rw [hself, hc]
      rcases hts with ⟨f, victim, rfl, rfl⟩ | ⟨f, rfl, rfl⟩
      · simp [hbusy]
      · simp
    · rw [hother hqp]
  · obtain ⟨old', back', hpage, hq⟩ := hl
    rw [hdisk] at hq
    by_cases hqp : q = p
    · subst hqp
      rw [hself] at hq
      rcases hts with ⟨f, victim, rfl, rfl⟩ | ⟨f, rfl, rfl⟩
      · rcases hq with hq | ⟨hq, -⟩ <;> cases hq
      · rcases hq with hq | ⟨hq, -⟩
        · cases hq
          exact ⟨old, back, hpage, .inr ⟨hc, hbusy⟩⟩
        · cases hq
    · rw [hother hqp] at hq
      exact ⟨old', back', hpage, hq⟩

lemma not_inTape_of_place {a : Word} (h : s.Shows b m) (hp : s.Paged b)
    (ha : s.place (.priv p i) = some a) : ¬ (s.control p).InTape := by
  intro ht
  obtain ⟨f, -, hf, -⟩ := (hp.pool.mirrors _ a).mp ha
  exact h.tape ht f i hf

lemma not_inTape_of_saving (h : s.Shows b m) (hs : s.Saving q f (.priv p i)) :
    ¬ (s.control p).InTape := fun ht => h.tape ht f i (h.resident_of_saving hs).1

lemma not_stores_disk : ¬ s.Stores b .disk := by
  rintro ⟨q, st, va, v, a, he, -⟩
  cases he

section disk

variable {disk : Disk} {ram : Ram} {command : Word} {job : Job}

lemma saving_of_working (hbusy : s.disk.busy = some command)
    (hs : ({ s with disk, ram } : Sys n).Saving q f u) : s.Saving q f u := by
  obtain ⟨old, back, victim, io, hq, hpage, -⟩ := hs
  refine ⟨old, back, victim, io, hq, hpage, fun hand => ?_⟩
  rw [hbusy] at hand
  cases hand.2

lemma saving_of_ne (hd : s.DiskSafe b) {stage : IoStage} (hp : s.ios b p = some (job, stage))
    (hw : p ∉ (s.sema4 diskMutex).waiters) (hqp : q ≠ p) (hs : s.Saving q f u) :
    ({ s with disk, ram } : Sys n).Saving q f u := by
  obtain ⟨old, back, victim, io, hq, hpage, -⟩ := hs
  refine ⟨old, back, victim, io, hq, hpage, ?_⟩
  rintro ⟨rfl, -⟩
  exact hqp (eq_of_release hd hp hw hq ⟨_, rfl⟩)

lemma Shows.diskSeek (h : s.Shows b m) (hd : s.DiskSafe b) (hp : s.Paged b)
    (hbusy : s.disk.busy = some command) (hio : s.ios b p = some (job, .transfer))
    (hw : p ∉ (s.sema4 diskMutex).waiters) (hblocks : disk.blocks = s.disk.blocks) :
    ({ s with disk } : Sys n).Shows b (m.after b (s, .disk, { s with disk })) := by
  have hafter : m.after b (s, .disk, { s with disk }) = m :=
    h.after_eq hp not_stores_disk (fun _ ht => ht) hblocks
  rw [hafter]
  have hnone : ∀ {q old back ts}, s.control q = .tlb old back ts →
      ¬ ∃ job', ts.io b q old = some (job', .release) := by
    intro q old back ts hq hrelease
    obtain rfl := eq_of_release hd hio hw hq hrelease
    obtain ⟨job', hjob'⟩ := hrelease
    rw [ios, hq] at hio
    cases hio.symm.trans hjob'
  refine h.same (fun hq => ⟨_, hq⟩) (fun _ ht => ht) rfl rfl rfl hblocks (fun q f u => ?_)
    fun q f u hl => ?_
  · refine ⟨saving_of_working hbusy, fun hs => ?_⟩
    obtain ⟨old, back, victim, io, hq, hpage, -⟩ := hs
    refine ⟨old, back, victim, io, hq, hpage, ?_⟩
    rintro ⟨rfl, -⟩
    exact hnone hq ⟨_, rfl⟩
  · obtain ⟨old, back, hpage, hq | ⟨hq, -⟩⟩ := hl
    · exact ⟨old, back, hpage, .inl hq⟩
    · exact (hnone hq ⟨_, rfl⟩).elim

lemma Shows.diskTape (h : s.Shows b m) (hd : s.DiskSafe b) (hp : s.Paged b)
    (hbusy : s.disk.busy = some command) (hio : s.ios b p = some (job, .release))
    (hw : p ∉ (s.sema4 diskMutex).waiters) (ht : (s.control p).InTape)
    (hblocks : ∀ q i, q ≠ p → disk.blocks (blockOf q i) = s.disk.blocks (blockOf q i)) :
    ({ s with disk } : Sys n).Shows b (m.after b (s, .disk, { s with disk })) := by
  have hafter : ∀ q i, m.after b (s, .disk, { s with disk }) q i =
      if (s.control q).InTape then disk.blocks (blockOf q i) else m q i :=
    after_of_not_stores not_stores_disk
  have hout : ∀ {q : Fin n} {i : Fin maxKuseg}, ¬ (s.control q).InTape →
      m.after b (s, .disk, { s with disk }) q i = m q i := fun hq => (hafter _ _).trans (if_neg hq)
  have hne : ∀ {q old back ts}, s.control q = .tlb old back ts → q ≠ p := by
    rintro q old back ts hq rfl
    rw [hq] at ht
    exact ht
  refine ⟨h.booting, h.tape, fun ha => ?_, fun hs => ?_, fun {q i} ha hs => ?_,
    fun {q f i} hl => ?_⟩
  · rw [hout (not_inTape_of_place h hp ha)]
    exact h.resident ha
  · have hs' := saving_of_working hbusy hs
    rw [hout (not_inTape_of_saving h hs')]
    exact h.saving hs'
  · by_cases hq : (s.control q).InTape
    · exact ((hafter q i).trans (if_pos hq)).symm
    · have hqp : q ≠ p := fun he => hq (he ▸ ht)
      rw [hout hq]
      refine (hblocks q i hqp).trans (h.stored ha fun q' f hs' => hs q' f ?_)
      obtain ⟨old, back, victim, io, hq', hpage, hne'⟩ := hs'
      exact saving_of_ne hd hio hw (hne hq') ⟨old, back, victim, io, hq', hpage, hne'⟩
  · obtain ⟨old, back, hpage, hq | ⟨hq, -⟩⟩ := hl
    · have htlb : ¬ (s.control q).InTape := by
        change s.control q = _ at hq
        rw [hq]
        exact not_false
      rw [hout htlb]
      exact h.loaded ⟨old, back, hpage, .inl hq⟩
    · exact (hne hq (eq_of_release hd hio hw hq ⟨_, rfl⟩)).elim

lemma Shows.diskBoot {old : State} {back : Back} {victim : SwapEntry} (h : s.Shows b m)
    (hd : s.DiskSafe b) (hp : s.Paged b) (hbusy : s.disk.busy = some command)
    (hio : s.ios b p = some (job, .release)) (hw : p ∉ (s.sema4 diskMutex).waiters)
    (hc : s.control p = .tlb old back (.boot f victim .release))
    (hblocks : ∀ q i, disk.blocks (blockOf q i) =
      if victim.page n = some (.priv q i) then s.ram (b.getFrameAddr f)
      else s.disk.blocks (blockOf q i)) :
    ({ s with disk } : Sys n).Shows b (m.after b (s, .disk, { s with disk })) := by
  have hsaves : ∀ {q i}, victim.page n = some (.priv q i) → s.Saving p f (.priv q i) := by
    intro q i hpage
    refine ⟨old, back, victim, .release, hc, hpage, fun hand => ?_⟩
    rw [hbusy] at hand
    cases hand.2
  have hafter : m.after b (s, .disk, { s with disk }) = m := by
    funext q i
    rw [after_of_not_stores not_stores_disk]
    split_ifs with ht
    · refine (hblocks q i).trans ?_
      rw [if_neg fun hpage => not_inTape_of_saving h (hsaves hpage) ht]
      exact h.tape_eq hp ht
    · rfl
  rw [hafter]
  refine ⟨h.booting, h.tape, h.resident, fun hs => h.saving (saving_of_working hbusy hs),
    fun {q i} ha hs => ?_, fun {q g i} hl => ?_⟩
  · refine (hblocks q i).trans ?_
    split_ifs with hpage
    · exact h.saving (hsaves hpage)
    · refine h.stored ha fun q' g hs' => ?_
      by_cases hqp : q' = p
      · subst hqp
        obtain ⟨old', back', victim', io, hq, hpage', -⟩ := hs'
        rw [hc] at hq
        cases hq
        exact hpage hpage'
      · exact hs q' g (saving_of_ne hd hio hw hqp hs')
  · obtain ⟨old', back', hpage, hq | ⟨hq, -⟩⟩ := hl
    · exact h.loaded ⟨old', back', hpage, .inl hq⟩
    · obtain rfl := eq_of_release hd hio hw hq ⟨_, rfl⟩
      cases hc.symm.trans hq

lemma Shows.diskLoad {old : State} {back : Back} (h : s.Shows b m) (hp : s.Paged b)
    (hc : s.control p = .tlb old back (.load f .release)) (hblocks : disk.blocks = s.disk.blocks)
    (hram : ∀ a, a ≠ b.getFrameAddr f → ram a = s.ram a)
    (hnew : ∀ i, faultPage p old = some (.priv p i) →
      ram (b.getFrameAddr f) = s.disk.blocks (blockOf p i)) :
    ({ s with disk, ram } : Sys n).Shows b (m.after b (s, .disk, { s with disk, ram })) := by
  have hphase : s.phase p = .filling old f := phase_of_control hc
  have hnone : ∀ {q g u}, ¬ s.Saving q g u := by
    intro q g u hs
    obtain rfl := eq_of_fills hp hphase hs.fills
    obtain ⟨old', back', victim, io, hq, -⟩ := hs
    cases hc.symm.trans hq
  have hnone' : ∀ {q g u}, ¬ ({ s with disk, ram } : Sys n).Saving q g u := by
    intro q g u hs
    have hfills : (s.control q).Fills := hs.fills
    obtain rfl := eq_of_fills hp hphase hfills
    obtain ⟨old', back', victim, io, hq, -⟩ := hs
    cases hc.symm.trans hq
  have hafter : m.after b (s, .disk, { s with disk, ram }) = m :=
    h.after_eq hp not_stores_disk (fun _ ht => ht) hblocks
  rw [hafter]
  refine ⟨h.booting, h.tape, fun {q i a} ha => ?_, fun hs => (hnone' hs).elim, fun {q i} ha _ => ?_,
    fun {q g i} hl => ?_⟩
  · have hplace : s.place (.priv q i) = some a := ha
    obtain ⟨g, hg, -, rfl⟩ := (hp.pool.mirrors _ a).mp hplace
    refine (hram _ fun he => hg ⟨p, old, ?_⟩).trans (h.resident hplace)
    rw [Board.getFrameAddr_inj he, hphase]
  · have hplace : s.place (.priv q i) = none := ha
    exact (congrFun hblocks (blockOf q i)).trans (h.stored hplace fun _ _ => hnone)
  · have hfills : (s.control q).Fills := hl.fills
    obtain rfl := eq_of_fills hp hphase hfills
    obtain ⟨old', back', hpage, hq | ⟨hq, -⟩⟩ := hl
    · cases hc.symm.trans hq
    · cases hc.symm.trans hq
      refine (hnew i hpage).trans (h.stored (hp.pool.misses q _ ?_) fun _ _ => hnone)
      rw [hphase]
      exact hpage

/-- The disk has done what it was working on. -/
lemma Shows.complete (h : s.Shows b m) (hd : s.DiskSafe b) (hp : s.Paged b)
    (hcomplete : s.disk.complete s.ram = some (disk, ram)) :
    ({ s with disk, ram } : Sys n).Shows b (m.after b (s, .disk, { s with disk, ram })) := by
  have hn := b.procCnt_le
  cases hbusy : s.disk.busy with
  | none =>
    unfold Disk.complete at hcomplete
    rw [hbusy] at hcomplete
    cases hcomplete
  | some command =>
    obtain ⟨p, job, ⟨hio, rfl⟩ | ⟨hio, rfl, harm, hdata⟩, hw⟩ := hd.exists_owner hbusy
    · obtain ⟨rfl, rfl⟩ := Disk.complete_seek hbusy (hd.sound p job _ hio).seek hcomplete
      exact h.diskSeek hd hp hbusy hio hw rfl
    · have hjob : (s.control p).io b p = some (job, .release) := hio
      cases hc : s.control p with
      | readTape k stage =>
        rw [hc] at hjob
        cases stage with
        | io stage =>
          obtain ⟨rfl, rfl⟩ := Prod.mk.inj (Option.some.inj hjob)
          obtain ⟨rfl, rfl⟩ :=
            Disk.complete_write hbusy (opOf_add_shift _ _ _ (by decide)) hcomplete
          refine h.diskTape hd hp hbusy hio hw (by rw [hc]; trivial) fun q i hqp => ?_
          exact update_of_ne (location_tapeJob hn hqp harm).symm _ _
        | _ => cases hjob
      | tlb old back ts =>
        rw [hc] at hjob
        cases ts with
        | boot f victim stage =>
          obtain ⟨rfl, rfl⟩ := Prod.mk.inj (Option.some.inj hjob)
          obtain ⟨rfl, rfl⟩ :=
            Disk.complete_write hbusy (opOf_add_shift _ _ _ (by decide)) hcomplete
          refine h.diskBoot hd hp hbusy hio hw hc fun q i => ?_
          obtain ⟨hvictim, u, hu, -⟩ := h.booting hc
          have hpage : victim.page n = some u := by rw [hvictim]; exact hu
          change update s.disk.blocks _ _ _ = _
          rw [hdata]
          cases u with
          | priv q' i' =>
            rw [location_bootJob hn hpage harm, hpage]
            by_cases he : q' = q ∧ i' = i
            · obtain ⟨rfl, rfl⟩ := he
              rw [update_self, if_pos rfl]
              rfl
            · rw [update_of_ne (blockOf_ne he).symm, if_neg]
              intro hsome
              exact he (UPage.priv.inj (Option.some.inj hsome))
          | shared i' =>
            rw [update_of_ne (location_bootJob_shared hn hpage q).symm, hpage, if_neg (by simp)]
        | load f stage =>
          obtain ⟨rfl, rfl⟩ := Prod.mk.inj (Option.some.inj hjob)
          obtain ⟨rfl, rfl⟩ := Disk.complete_read hbusy (opOf_add_shift _ _ _ (by decide)) hcomplete
          rw [hdata]
          refine h.diskLoad hp hc rfl (fun a ha => update_of_ne ha _ _) fun i hpage => ?_
          rw [location_loadJob hn hpage harm]
          exact update_self _ _ _
        | _ => cases hjob
      | _ =>
        rw [hc] at hjob
        cases hjob

end disk

lemma not_stores_run {input : Option Word} : ¬ s.Stores b (.run p input) := by
  rintro ⟨q, st, va, v, a, he, -⟩
  cases he

/-- Every step takes the arrays along. -/
theorem Moves.shows (hm : s.Moves b e s') (hd : s.DiskSafe b) (hp : s.Paged b)
    (h : s.Shows b m) : s'.Shows b (m.after b (s, e, s')) := by
  have hrun : ∀ {q : Fin n} {input : Option Word} {t : Sys n} {c : Control},
      t.control = update s.control q c → (c.InTape → (s.control q).InTape) →
      t.disk.blocks = s.disk.blocks → t.Shows b m →
        t.Shows b (m.after b (s, .run q input, t)) := by
    intro q input t c hcontrol htape hblocks ht
    rw [h.after_eq hp not_stores_run (fun q' hq' => ?_) hblocks]
    · exact ht
    · rw [hcontrol] at hq'
      exact inTape_goto s htape q' hq'
  cases hm with
  | @look e tlb he htlb =>
    refine h.calm hp ?_ ⟨fun _ _ => rfl, fun _ ht => ht, rfl, rfl, rfl, rfl, rfl⟩
    rintro ⟨q, st, va, v, a, rfl, -⟩
    exact he
  | @store p st va v frame hc hf =>
    obtain ⟨tlb, hrefill, -⟩ := s.refill_eq p (accessHi p va)
    rw [hrefill]
    exact h.store hp hc hf rfl rfl rfl rfl rfl
  | @fault e p st va cause back write hc hseg hf hfree =>
    obtain ⟨tlb, hrefill, -⟩ := s.refill_eq p (accessHi p va)
    rw [hrefill]
    have hout : ¬ (s.control p).Fills := by
      intro hfills
      obtain ⟨old, f, hphase⟩ := phase_of_fills hfills
      rw [hc.phase_eq] at hphase
      cases hphase
    refine h.calm hp ?_ (.goto rfl hout (by exact not_false) False.elim rfl rfl rfl rfl rfl rfl)
    rintro ⟨q, st', va', v, a, rfl, ha⟩
    obtain ⟨rfl, -, rfl, rfl, -⟩ := hc
    cases ha.symm.trans hf
  | @aside e p c masterSema4 he hholds hio hio' hns hctl htape hservice hfree =>
    have hout : ¬ (s.control p).Fills := by
      intro hfills
      obtain ⟨old, f, hphase⟩ := phase_of_fills hfills
      apply hns
      rw [Control.inSwap_iff]
      change (s.phase p).Inside
      rw [hphase]
      trivial
    have hc : ¬ c.Fills := by
      cases c with
      | tlb old back stage => exact absurd rfl (hctl old back stage)
      | _ => exact not_false
    refine h.calm hp ?_ (.goto rfl hout hc htape rfl rfl rfl rfl rfl rfl)
    rintro ⟨q, st', va', v, a, rfl, -⟩
    exact he
  | @die p input hblocked hc =>
    have hout : ¬ (s.control p).Fills := by
      rcases hc with ⟨pr, stage, hc, -⟩ | ⟨old, pr, stage, hc, -⟩ | ⟨old, back, hc, -⟩ <;>
        rw [hc] <;> exact not_false
    exact h.calm hp not_stores_run
      (.goto rfl hout (by exact not_false) False.elim rfl rfl rfl rfl rfl rfl)
  | printStart hc hblocked | printEnd htlb hc hblocked | printNext htlb hc hblocked
  | enter hc hblocked hcode | found hc hblocked hseg hlo hvalid | booted hc hblocked
  | take hc hblocked hmissing hframe hvacant =>
    exact h.calm hp not_stores_run (.goto hc not_false (by exact not_false)
      False.elim rfl rfl rfl rfl rfl rfl)
  | tapeStart hc hblocked | tapeEnd hc hbusy hblocked =>
    exact h.calm hp not_stores_run (.goto hc not_false (by exact not_false)
      (by exact id) rfl rfl rfl rfl rfl rfl)
  | @boot p input old back frame u hc hblocked hmissing hframe hocc hpage =>
    have hvalid : (s.pte u).frame ≠ none := by
      have hplace := hp.place_of_record hc hblocked hpage
      intro hnone
      cases hplace.symm.trans hnone
    refine hrun (by simp [goto, Sys.passeren]; rfl) False.elim (by simp [goto, Sys.passeren])
      (h.boot hp hc hblocked hpage (by simp [goto, Sys.passeren]) (by simp [goto, Sys.passeren]) ?_
        (by simp [goto, Sys.passeren]) (by simp [goto, Sys.passeren]))
    exact (place_setPte _ u _).trans (by rw [Pte.frame_flipValid hvalid]; rfl)
  | @seek p input job control hc hstages hblocked =>
    have htape : (control .transfer).InTape → (s.control p).InTape := by
      rw [hc]
      cases hstages <;> exact id
    exact hrun rfl htape rfl (h.give hd hc hstages hblocked (by simp) rfl rfl rfl rfl
      (by simp [goto, Disk.give]) rfl)
  | @transfer p input job control hc hstages hbusy hblocked =>
    have htape : (control .release).InTape → (s.control p).InTape := by
      rw [hc]
      cases hstages <;> exact id
    exact hrun rfl htape rfl (h.give hd hc hstages hblocked (by simp) rfl rfl rfl rfl
      (by simp [goto, Disk.give]) rfl)
  | @bootEnd p input old back frame victim hc hbusy hblocked =>
    exact hrun rfl False.elim rfl
      (h.finish hc (.inl ⟨frame, victim, rfl, rfl⟩) hbusy rfl rfl rfl rfl
      rfl)
  | @loadEnd p input old back frame hc hbusy hblocked =>
    exact hrun rfl False.elim rfl (h.finish hc (.inr ⟨frame, rfl, rfl⟩) hbusy rfl rfl rfl rfl rfl)
  | @install p input old back frame u hc hblocked hpage =>
    have haligned := b.getFrameAddr_aligned frame
    refine hrun (by simp [goto, Sys.verhogen]; rfl) False.elim (by simp [goto, Sys.verhogen])
      (h.install (c := .tlb old back .leave) hp hc (page_faultRecord b.procCnt_le p old)
        not_false not_false (by simp [goto, Sys.verhogen])
        (by simp [goto, Sys.verhogen]) ((place_setPte _ u _).trans rfl) (fun v hv => ?_)
        (fun v hv => ?_) (by simp [goto, Sys.verhogen]) (by simp [goto, Sys.verhogen]))
    · have hvu : v ≠ u := fun he => hv (he ▸ hpage)
      exact update_of_ne hvu _ _
    · obtain rfl := Option.some.inj (hpage.symm.trans hv)
      rw [update_self, Pte.frame_place haligned]
  | @installOther p input old back frame hc hblocked hseg =>
    have hnone : faultPage p old = none := by
      unfold faultPage
      rw [if_neg hseg.1, if_neg hseg.2]
    exact hrun rfl False.elim rfl (h.install hp hc (page_faultRecord b.procCnt_le p old)
      (by exact not_false) (by exact not_false) rfl rfl rfl (fun _ _ => rfl)
      (fun v hv => by cases hnone.symm.trans hv) rfl rfl)
  | @installTrap p input old back frame hc hblocked hseg hpage =>
    exact hrun rfl False.elim rfl (h.install hp hc (page_faultRecord b.procCnt_le p old)
      (by exact not_false) (by exact not_false) rfl rfl rfl (fun _ _ => rfl)
      (fun v hv => by cases hpage.symm.trans hv) rfl rfl)
  | disk hcomplete => exact h.complete hd hp hcomplete

end Sys

end Kaya.Support
