import Kaya.Support.DiskLock
import Kaya.Support.Pool

/-!
# Flat memory

What the pager is for: every process has one array of words for its private pages. The frames,
the page tables, the swap pool and the disk together show that array at any time.
-/

namespace Kaya.Support

open Function Linked

variable {n : Nat} {b : Board n} {p q : Fin n} {i j : Fin maxKuseg} {u : UPage n}

/-- The private pages of the processes. -/
abbrev Flat (n : Nat) := Fin n → Fin maxKuseg → Block

/-- The block of the disk that a private page has. -/
def blockOf (p : Fin n) (i : Fin maxKuseg) : Location := ⟨i, 0, p⟩

namespace Flat

/-- A process stores a word. -/
def store (m : Flat n) (p : Fin n) (va : Addr) (v : Word) : Flat n := fun q i =>
  if q = p ∧ (UPage.priv q i).number = va.toNat / 4096 then update (m q i) (wordOf va) v
  else m q i

/-- What a transition does to the arrays. As long as a process reads its tape, its array is what
is on the disk; from then on only its own stores change it. -/
def after (b : Board n) (m : Flat n) : Sys n × Event n × Sys n → Flat n
  | (s, e, s') => fun p i =>
    if (s'.control p).InTape then s'.disk.blocks (blockOf p i)
    else
      match e with
      | .access q _ va (.store v) =>
        match s.translate b q (Sys.accessHi q va) true with
        | .ok _ => m.store q va v p i
        | .error _ => m p i
      | _ => m p i

/-- The arrays after the transitions `h`. -/
def ofRun (b : Board n) (s₀ : Sys n) (h : List (Sys n × Event n × Sys n)) : Flat n :=
  h.foldl (after b) fun p i => s₀.disk.blocks (blockOf p i)

end Flat

/-! ### Blocks -/

lemma blockOf_ne (h : ¬ (p = q ∧ i = j)) : blockOf p i ≠ blockOf q j := by
  intro he
  apply h
  exact ⟨Fin.ext (congrArg Location.sector he), Fin.ext (congrArg Location.cylinder he)⟩

lemma page_priv {r : SwapEntry} (h : r.page n = some (.priv q i)) :
    r.segNum = kuseg2 ∧ r.ASID = ((q.val + 1 : Nat) : Int) ∧ r.pageNum = i := by
  unfold SwapEntry.page at h
  split_ifs at h with h3 h2
  · obtain ⟨_, -, h⟩ := Option.bind_eq_some_iff.mp h
    obtain ⟨j, -, h⟩ := Option.bind_eq_some_iff.mp h
    cases h
  · obtain ⟨q', hq, h⟩ := Option.bind_eq_some_iff.mp h
    obtain ⟨j, hj, h⟩ := Option.bind_eq_some_iff.mp h
    obtain ⟨rfl, rfl⟩ := UPage.priv.inj (Option.some.inj h)
    unfold procOf at hq
    unfold entryOf at hj
    split_ifs at hq hj with hasid hpage
    have hqval := congrArg Fin.val (Option.some.inj hq)
    have hjval := congrArg Fin.val (Option.some.inj hj)
    dsimp only at hqval hjval
    exact ⟨h2, by omega, hjval⟩

lemma page_shared {r : SwapEntry} (h : r.page n = some (.shared i)) : r.segNum = kuseg3 := by
  unfold SwapEntry.page at h
  split_ifs at h with h3 h2
  · exact h3
  · obtain ⟨_, -, h⟩ := Option.bind_eq_some_iff.mp h
    obtain ⟨j, -, h⟩ := Option.bind_eq_some_iff.mp h
    cases h

lemma faultPage_priv {old : State} (h : faultPage p old = some (.priv q i)) :
    q = p ∧ segmentOf old.sAsid = kuseg2 ∧ pageOf old.sAsid = i := by
  unfold faultPage at h
  split_ifs at h with h3 h2
  · obtain ⟨j, -, hj⟩ := Option.map_eq_some_iff.mp h
    cases hj
  · obtain ⟨j, hj, he⟩ := Option.map_eq_some_iff.mp h
    obtain ⟨rfl, rfl⟩ := UPage.priv.inj he
    unfold entryOf at hj
    split_ifs at hj
    exact ⟨rfl, h2, congrArg Fin.val (Option.some.inj hj)⟩

namespace Disk

variable {d d' : Disk} {ram ram' : Ram} {command op : Word} {page procNum segment : Nat}

lemma complete_seek (hbusy : d.busy = some command) (hop : opOf command = seekCyl)
    (h : d.complete ram = some (d', ram')) :
    ram' = ram ∧ d' = { d with busy := none, arm := cylinderOf command } := by
  unfold complete at h
  rw [hbusy] at h
  dsimp only at h
  rw [if_pos hop] at h
  obtain ⟨rfl, rfl⟩ := Prod.mk.inj (Option.some.inj h)
  exact ⟨rfl, rfl⟩

lemma complete_read (hbusy : d.busy = some command) (hop : opOf command = readBlk)
    (h : d.complete ram = some (d', ram')) :
    ram' = update ram d.data0 (d.blocks (d.location command)) ∧ d' = { d with busy := none } := by
  unfold complete at h
  rw [hbusy] at h
  dsimp only at h
  rw [hop, if_neg (by decide), if_pos rfl] at h
  obtain ⟨rfl, rfl⟩ := Prod.mk.inj (Option.some.inj h)
  exact ⟨rfl, rfl⟩

lemma complete_write (hbusy : d.busy = some command) (hop : opOf command = writeBlk)
    (h : d.complete ram = some (d', ram')) :
    ram' = ram ∧ d' = { d with
      busy := none
      blocks := update d.blocks (d.location command) (ram d.data0) } := by
  unfold complete at h
  rw [hbusy] at h
  dsimp only at h
  rw [hop, if_neg (by decide), if_neg (by decide), if_pos rfl] at h
  obtain ⟨rfl, rfl⟩ := Prod.mk.inj (Option.some.inj h)
  exact ⟨rfl, rfl⟩

lemma location_eq (hop : op.toNat < 256) (h1 : 1 ≤ procNum) (h2 : procNum ≤ 63)
    (harm : d.arm = cylinderOf (seekCommand page)) :
    d.location (blockCommand op procNum segment) =
      ⟨min page 31, if segment = kuseg2 then 0 else 1, procNum - 1⟩ := by
  unfold location
  rw [harm, cylinderOf_seekCommand, headOf_blockCommand hop h1 h2,
    sectorOf_blockCommand hop h1 h2]

end Disk

lemma location_bootJob {d : Disk} {victim : SwapEntry} {addr : Word} (hn : n ≤ 63)
    (h : victim.page n = some (.priv q i)) (harm : d.arm = cylinderOf (bootJob addr victim).seek) :
    d.location (bootJob addr victim).command = blockOf q i := by
  obtain ⟨hseg, hasid, hpage⟩ := page_priv h
  have hq := q.isLt
  have hi : i.val < 32 := i.isLt
  have hne : kuseg2 ≠ kuseg3 := by decide
  unfold bootJob at harm ⊢
  dsimp only at harm ⊢
  rw [hpage] at harm
  rw [hseg, if_neg hne, hasid, Disk.location_eq (by decide) (by omega) (by omega) harm, if_pos rfl]
  have hmin : min i.val 31 = i := by omega
  rw [hmin]
  rfl

lemma location_bootJob_shared {d : Disk} {victim : SwapEntry} {addr : Word} (hn : n ≤ 63)
    (h : victim.page n = some (.shared i : UPage n)) (q : Fin n) :
    d.location (bootJob addr victim).command ≠ blockOf q j := by
  have hq := q.isLt
  intro he
  have hsector := congrArg Location.sector he
  unfold bootJob Disk.location at hsector
  dsimp only at hsector
  rw [page_shared h, if_pos rfl] at hsector
  have h255 : sectorOf (blockCommand writeBlk 0 kuseg3) = 255 := by decide
  rw [h255] at hsector
  change 255 = q.val at hsector
  omega

lemma location_loadJob {d : Disk} {old : State} {addr : Word} (hn : n ≤ 63)
    (h : faultPage p old = some (.priv p i))
    (harm : d.arm = cylinderOf (loadJob addr (asidOf (entryHi p)) (segmentOf old.sAsid)
      (pageOf old.sAsid)).seek) :
    d.location (loadJob addr (asidOf (entryHi p)) (segmentOf old.sAsid)
      (pageOf old.sAsid)).command = blockOf p i := by
  obtain ⟨-, hseg, hpage⟩ := faultPage_priv h
  have hp := p.isLt
  have hi : i.val < 32 := i.isLt
  unfold loadJob at harm ⊢
  dsimp only at harm ⊢
  rw [hpage] at harm
  rw [hseg, asidOf_entryHi hn, Disk.location_eq (by decide) (by omega) (by omega) harm, if_pos rfl]
  have hmin : min i.val 31 = i := by omega
  rw [hmin]
  rfl

lemma location_tapeJob {d : Disk} {k : Nat} (hn : n ≤ 63) (hne : q ≠ p)
    (harm : d.arm = cylinderOf (tapeJob (asidOf (entryHi p)) k).seek) :
    d.location (tapeJob (asidOf (entryHi p)) k).command ≠ blockOf q j := by
  have hp := p.isLt
  intro he
  have hsector := congrArg Location.sector he
  unfold tapeJob at harm hsector
  dsimp only at harm hsector
  rw [asidOf_entryHi hn, Disk.location_eq (by decide) (by omega) (by omega) harm] at hsector
  exact hne (Fin.ext hsector.symm)

end Kaya.Support
