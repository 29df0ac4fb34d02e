import Kaya.Abstract.Clock

/-!
# The soft-block count

`softBlockCount` is the number of processes that wait on an element of `semaphoreArray`. All
entries in the books keep this, save for the death of a process that waits for the clock and
for accesses with SYS3 and SYS4.
-/

namespace Kaya

open Function Linked

namespace Books

variable {m : Machine} {b b' : Books} {p q : PcbIx} {i : Nat} {s : Addr}

/-- The processes that wait on an element of `semaphoreArray`. -/
def softBlocked (m : Machine) (b : Books) : Finset PcbIx := b.waitersBelow m semCount

def SoftRight (m : Machine) (b : Books) : Prop := b.softBlockCount = (b.softBlocked m).card

lemma softBlocked_congr (h : ∀ i < semCount, b'.blocked (m.semAddr i) = b.blocked (m.semAddr i)) :
    b'.softBlocked m = b.softBlocked m := by
  ext q
  unfold softBlocked
  rw [mem_waitersBelow, mem_waitersBelow]
  constructor
  · rintro ⟨i, hi, hq⟩
    exact ⟨i, hi, h i hi ▸ hq⟩
  · rintro ⟨i, hi, hq⟩
    exact ⟨i, hi, (h i hi).symm ▸ hq⟩

lemma mem_softBlocked_setSem (hi : i < semCount) (x : Semaphore PcbIx) :
    q ∈ (b.setSem (m.semAddr i) x).softBlocked m ↔
      q ∈ x.waiters ∨ ∃ j < semCount, j ≠ i ∧ q ∈ b.blocked (m.semAddr j) := by
  have hne : ∀ {j}, j < semCount → j ≠ i → m.semAddr j ≠ m.semAddr i := fun hj hji he =>
    hji (m.semAddr_inj hj hi he)
  unfold softBlocked
  rw [mem_waitersBelow]
  constructor
  · rintro ⟨j, hj, hq⟩
    by_cases hji : j = i
    · subst hji
      left
      simpa [setSem] using hq
    · right
      exact ⟨j, hj, hji, by simpa [setSem, hne hj hji] using hq⟩
  · rintro (hq | ⟨j, hj, hji, hq⟩)
    · exact ⟨i, hi, by simpa [setSem] using hq⟩
    · exact ⟨j, hj, by simpa [setSem, hne hj hji] using hq⟩

lemma softBlocked_append (hi : i < semCount) {x : Semaphore PcbIx}
    (hx : x.waiters = b.blocked (m.semAddr i) ++ [p]) :
    (b.setSem (m.semAddr i) x).softBlocked m = insert p (b.softBlocked m) := by
  ext q
  rw [mem_softBlocked_setSem hi, hx, Finset.mem_insert]
  unfold softBlocked
  rw [mem_waitersBelow, List.mem_append, List.mem_singleton]
  constructor
  · rintro ((hq | hq) | ⟨j, hj, -, hq⟩)
    · exact .inr ⟨i, hi, hq⟩
    · exact .inl hq
    · exact .inr ⟨j, hj, hq⟩
  · rintro (hq | ⟨j, hj, hq⟩)
    · exact .inl (.inr hq)
    · by_cases hji : j = i
      · exact .inl (.inl (hji ▸ hq))
      · exact .inr ⟨j, hj, hji, hq⟩

/-- No process waits twice. -/
structure Orderly (b : Books) : Prop where
  nodup : ∀ s, (b.blocked s).Nodup
  disjoint : ∀ {s t}, s ≠ t → (b.blocked s).Disjoint (b.blocked t)

lemma card_softBlocked_drop (ho : b.Orderly) (hi : i < semCount) {n : Nat}
    {x : Semaphore PcbIx} (hx : x.waiters = (b.blocked (m.semAddr i)).drop n)
    (hn : n ≤ (b.blocked (m.semAddr i)).length) :
    ((b.setSem (m.semAddr i) x).softBlocked m).card + n = (b.softBlocked m).card := by
  have hsplit := List.take_append_drop n (b.blocked (m.semAddr i))
  have hnd := ho.nodup (m.semAddr i)
  rw [← hsplit, List.nodup_append] at hnd
  obtain ⟨htake, hdrop, hdis⟩ := hnd
  have hset : (b.setSem (m.semAddr i) x).softBlocked m =
      b.softBlocked m \ ((b.blocked (m.semAddr i)).take n).toFinset := by
    ext q
    rw [mem_softBlocked_setSem hi, hx, Finset.mem_sdiff, List.mem_toFinset]
    unfold softBlocked
    rw [mem_waitersBelow]
    constructor
    · rintro (hq | ⟨j, hj, hji, hq⟩)
      · exact ⟨⟨i, hi, List.mem_of_mem_drop hq⟩, fun ht => hdis q ht q hq rfl⟩
      · refine ⟨⟨j, hj, hq⟩, fun ht => ?_⟩
        have hne : m.semAddr j ≠ m.semAddr i := fun he => hji (m.semAddr_inj hj hi he)
        exact ho.disjoint hne hq (List.mem_of_mem_take ht)
    · rintro ⟨⟨j, hj, hq⟩, ht⟩
      by_cases hji : j = i
      · subst hji
        rw [← hsplit, List.mem_append] at hq
        exact .inl (hq.resolve_left ht)
      · exact .inr ⟨j, hj, hji, hq⟩
  have hsub : ((b.blocked (m.semAddr i)).take n).toFinset ⊆ b.softBlocked m := by
    intro q hq
    unfold softBlocked
    rw [mem_waitersBelow]
    exact ⟨i, hi, List.mem_of_mem_take (List.mem_toFinset.mp hq)⟩
  have hcard : ((b.blocked (m.semAddr i)).take n).toFinset.card = n := by
    rw [List.toFinset_card_of_nodup htake, List.length_take]
    omega
  rw [hset, Finset.card_sdiff_of_subset hsub, hcard]
  have hle := Finset.card_le_card hsub
  omega

lemma SoftRight.kill {dead : List PcbIx} (h : b.SoftRight m)
    (hclock : ∀ q ∈ dead, q ∉ b.blocked m.clock) : (b.kill m dead).SoftRight m := by
  have hset : (b.kill m dead).softBlocked m = (b.softBlocked m).filter (· ∉ dead) := by
    ext q
    unfold softBlocked
    rw [Finset.mem_filter, mem_waitersBelow, mem_waitersBelow]
    simp only [Books.kill, Semaphore.withdraw, List.mem_filter, decide_eq_true_eq]
    constructor
    · rintro ⟨i, hi, hq, hd⟩
      exact ⟨⟨i, hi, hq⟩, hd⟩
    · rintro ⟨⟨i, hi, hq⟩, hd⟩
      exact ⟨i, hi, hq, hd⟩
  have hdead : (b.softBlocked m).filter (· ∈ dead) =
      (b.waitersBelow m (semCount - 1)).filter (· ∈ dead) := by
    ext q
    unfold softBlocked
    rw [Finset.mem_filter, Finset.mem_filter, mem_waitersBelow, mem_waitersBelow]
    constructor
    · rintro ⟨⟨i, hi, hq⟩, hd⟩
      refine ⟨⟨i, ?_, hq⟩, hd⟩
      by_contra hlt
      obtain rfl : i = itSemIndex := by
        unfold semCount at hi hlt
        unfold itSemIndex
        omega
      exact hclock q hd hq
    · rintro ⟨⟨i, hi, hq⟩, hd⟩
      exact ⟨⟨i, by omega, hq⟩, hd⟩
  have hcard := Finset.card_filter_add_card_filter_not (s := b.softBlocked m) (· ∈ dead)
  unfold SoftRight at h ⊢
  rw [hset]
  change b.softBlockCount - _ = _
  rw [← hdead]
  omega

lemma SoftRight.outside (h : b.SoftRight m) (hs : ¬ m.InSemaphoreArray s)
    (x : Semaphore PcbIx) : (b.setSem s x).SoftRight m := by
  unfold SoftRight
  rw [softBlocked_congr (b := b)]
  · exact h
  · intro i hi
    have hne : m.semAddr i ≠ s := fun he => hs ⟨i, hi, he.symm⟩
    simp [setSem, hne]

lemma SoftRight.wait (h : b.SoftRight m) (hi : i < semCount)
    (hp : ∀ j < semCount, p ∉ b.blocked (m.semAddr j)) {x : Semaphore PcbIx}
    (hx : x.waiters = b.blocked (m.semAddr i) ++ [p]) :
    SoftRight m { b.setSem (m.semAddr i) x with softBlockCount := b.softBlockCount + 1 } := by
  have hnot : p ∉ b.softBlocked m := by
    unfold softBlocked
    rw [mem_waitersBelow]
    rintro ⟨j, hj, hq⟩
    exact hp j hj hq
  have hset : softBlocked m
      { b.setSem (m.semAddr i) x with softBlockCount := b.softBlockCount + 1 } =
      insert p (b.softBlocked m) := softBlocked_append hi hx
  unfold SoftRight at h ⊢
  rw [hset, Finset.card_insert_of_notMem hnot, h]
  rfl

lemma SoftRight.wake (h : b.SoftRight m) (ho : b.Orderly) (hi : i < semCount) {n : Nat}
    {x : Semaphore PcbIx} (hx : x.waiters = (b.blocked (m.semAddr i)).drop n)
    (hn : n ≤ (b.blocked (m.semAddr i)).length) :
    SoftRight m { b.setSem (m.semAddr i) x with softBlockCount := b.softBlockCount - n } := by
  have hcard := card_softBlocked_drop ho hi hx hn
  unfold SoftRight at h ⊢
  change b.softBlockCount - n = ((b.setSem (m.semAddr i) x).softBlocked m).card
  omega

lemma SoftRight.deviceDone (h : b.SoftRight m) (ho : b.Orderly) (hi : i < semCount) :
    (b.deviceDone (m.semAddr i)).SoftRight m := by
  unfold Books.deviceDone Books.verhogen Semaphore.verhogen
  cases hb : b.blocked (m.semAddr i) with
  | nil =>
    have hw := h.wake (n := 0) ho hi (x := ⟨b.mem (m.semAddr i) + 1, []⟩) (by simp [hb]) (by simp)
    simpa [setSem, sem, hb] using hw
  | cons q rest =>
    by_cases hv : b.mem (m.semAddr i) + 1 ≤ 0
    · have hw := h.wake (n := 1) ho hi (x := ⟨b.mem (m.semAddr i) + 1, rest⟩) (by simp [hb])
        (by simp [hb])
      simpa [setSem, sem, hb, hv] using hw
    · have hw := h.wake (n := 0) ho hi (x := ⟨b.mem (m.semAddr i) + 1, q :: rest⟩) (by simp [hb])
        (by simp)
      simpa [setSem, sem, hb, hv] using hw

lemma SoftRight.tick (h : b.SoftRight m) (ho : b.Orderly) (hc : (b.sem m.clock).Counts) :
    (b.tick m).SoftRight m := by
  have hval : b.mem m.clock = -(b.blocked m.clock).length := hc
  have hlt : itSemIndex < semCount := by decide
  have hw := h.wake (n := (-b.mem m.clock).toNat) ho hlt
    (x := ⟨0, (b.blocked m.clock).drop (-b.mem m.clock).toNat⟩) rfl (by
      change _ ≤ (b.blocked m.clock).length
      omega)
  exact hw

lemma SoftRight.waitForClock (h : b.SoftRight m)
    (hp : ∀ j < semCount, p ∉ b.blocked (m.semAddr j)) (hc : (b.sem m.clock).Counts) :
    (b.waitForClock m p).SoftRight m := by
  have hlt : itSemIndex < semCount := by decide
  exact h.wait hlt hp (x := (b.sem m.clock).passeren p) (hc.waiters_passeren p)

lemma SoftRight.waitForIo (h : b.SoftRight m) (hi : i < semCount)
    (hp : ∀ j < semCount, p ∉ b.blocked (m.semAddr j)) :
    (b.waitForIo (m.semAddr i) p).SoftRight m := by
  unfold Books.waitForIo Books.passeren Semaphore.passeren
  by_cases hv : b.mem (m.semAddr i) - 1 < 0
  · have hw := h.wait hi hp
      (x := ⟨b.mem (m.semAddr i) - 1, b.blocked (m.semAddr i) ++ [p]⟩) rfl
    simpa [setSem, sem, hv] using hw
  · have hblocked : ∀ j < semCount, (b.setSem (m.semAddr i)
        ⟨b.mem (m.semAddr i) - 1, b.blocked (m.semAddr i)⟩).blocked (m.semAddr j) =
        b.blocked (m.semAddr j) := by
      intro j _
      simp [setSem]
    have hw : (b.setSem (m.semAddr i) ⟨b.mem (m.semAddr i) - 1,
        b.blocked (m.semAddr i)⟩).SoftRight m := by
      unfold SoftRight
      rw [softBlocked_congr hblocked]
      exact h
    simpa [setSem, sem, hv] using hw

end Books

namespace Nuc

variable {m : Machine} {a a' : Nuc} {e : Event} {p : PcbIx}

lemma Inv.orderly (h : a.Inv) : a.books.Orderly where
  nodup s := by
    obtain ⟨home, hp⟩ := h.homes
    exact hp.nodup (.blocked s)
  disjoint := by
    intro s t hst
    obtain ⟨home, hp⟩ := h.homes
    have hne : Home.blocked s ≠ Home.blocked t := fun he => hst (Home.blocked.inj he)
    exact hp.disjoint hne

lemma callEntries_blocked {st : State} (hcall : IsCall st)
    (hd : Dies m a.mem (a.oldAreas p) (a.newAreas p) (.syscall st)) :
    (a.books.postAll m (callEntries m st p)).blocked = a.blocked := by
  unfold callEntries
  split_ifs with h1 h3 h4 h7 h8
  · exact absurd hd (not_dies_of_call hcall (.inl h1))
  · exact absurd hd (not_dies_of_call hcall (.inr (.inl h3)))
  · exact absurd hd (not_dies_of_call hcall (.inr (.inr (.inl h4))))
  · exact absurd hd (not_dies_of_call hcall (.inr (.inr (.inr (.inr h7)))))
  · have hpos : 0 < a.mem (ioSem m st) := by
      rw [Dies, if_neg hcall] at hd
      unfold DiesInService at hd
      rw [h8, if_neg (by decide), if_neg (by decide), if_neg (by decide), if_neg (by decide),
        if_neg (by decide), if_neg (by decide), if_neg (by decide), if_pos rfl] at hd
      exact hd
    change update a.blocked (ioSem m st)
      (if a.mem (ioSem m st) - 1 < 0 then a.blocked (ioSem m st) ++ [p]
        else a.blocked (ioSem m st)) = a.blocked
    rw [if_neg (by omega), update_eq_self]
  · rfl

lemma softRight_call {st : State} (hcall : IsCall st) (hc : a.currentProcess = some p)
    (hi : a.Inv) (hcount : (a.clockSem m).Counts)
    (hout : ∀ s, m.InSemaphoreArray s →
      ¬ IsVerhogen s (.syscall st) ∧ ¬ IsPasseren s (.syscall st))
    (hin : NamesDevice m (.syscall st)) (h : a.books.SoftRight m) :
    (a.books.postAll m (callEntries m st p)).SoftRight m := by
  have hp : ∀ j < semCount, p ∉ a.books.blocked (m.semAddr j) := fun j _ =>
    (hi.homeless hc).blocked _
  unfold callEntries
  split_ifs with h1 h3 h4 h7 h8
  · exact h
  · exact h.outside (fun hs => (hout _ hs).1 ⟨hcall, h3, rfl⟩) _
  · exact h.outside (fun hs => (hout _ hs).2 ⟨hcall, h4, rfl⟩) _
  · exact h.waitForClock hp hcount
  · obtain ⟨i, hlt, hs⟩ := hin hcall h8
    change (a.books.waitForIo (ioSem m st) p).SoftRight m
    rw [hs]
    exact h.waitForIo hlt hp
  · exact h

lemma softRight_line {lineNum : Nat} (hi : a.Inv) (hcount : (a.clockSem m).Counts)
    (h : a.books.SoftRight m) : (a.books.postAll m (a.lineEntries m lineNum)).SoftRight m := by
  unfold lineEntries
  split_ifs
  · exact h
  · exact h.tick hi.orderly hcount
  · split
    · exact h
    · split
      · exact h
      · split_ifs with hlt
        · apply h.deviceDone hi.orderly
          exact Nat.lt_of_lt_of_le (deviceIndex_lt _ _ _) (Nat.sub_le _ _)
        · exact h

/-- A step keeps the soft-block count, provided SYS3 and SYS4 leave `semaphoreArray` alone, SYS8
names one of its elements and nobody dies who waits for the clock. -/
theorem softRight_step (hg : a.Good) (hrun : FromProcess e → a.cpu.IsRunning)
    (hsafe : a.Safe m e) (hstep : a.step m e = some a') (hcount : (a.clockSem m).Counts)
    (hout : ∀ s, m.InSemaphoreArray s → ¬ IsVerhogen s e ∧ ¬ IsPasseren s e)
    (hin : NamesDevice m e) (hclock : ∀ q ∈ a.dead m e, q ∉ a.blocked m.clock)
    (h : a.books.SoftRight m) : a'.books.SoftRight m := by
  have hcur : FromProcess e → ∃ p, a.currentProcess = some p := fun he =>
    Option.ne_none_iff_exists'.mp (hg.onCpu.mp (hrun he))
  have hbooks := step_books hg hrun hsafe hstep
  unfold entries at hbooks
  cases e with
  | syscall st =>
    obtain ⟨p, hc⟩ := hcur trivial
    simp only [hc, processEntries] at hbooks
    rw [Books.postAll_append] at hbooks
    rw [dead_of_current hc] at hclock
    rw [hbooks]
    by_cases hcall : IsCall st
    · rw [if_pos hcall]
      apply (softRight_call hcall hc hg.inv hcount hout hin h).kill
      intro q hq
      unfold deaths at hclock hq
      split at hq
      · rename_i hd
        rw [callEntries_blocked hcall hd]
        rw [if_pos hd] at hclock
        exact hclock q hq
      · cases hq
    · rw [if_neg hcall]
      exact h.kill hclock
  | programTrap st =>
    obtain ⟨p, hc⟩ := hcur trivial
    simp only [hc, processEntries] at hbooks
    rw [dead_of_current hc] at hclock
    rw [hbooks]
    exact h.kill hclock
  | tlbManagement st =>
    obtain ⟨p, hc⟩ := hcur trivial
    simp only [hc, processEntries] at hbooks
    rw [dead_of_current hc] at hclock
    rw [hbooks]
    exact h.kill hclock
  | interrupt st =>
    rw [hbooks]
    dsimp only
    split
    · exact h
    · exact softRight_line hg.inv hcount h
  | device bus =>
    rw [hbooks]
    exact h
  | writeInt s v =>
    rw [hbooks]
    exact h
  | writeState s st =>
    rw [hbooks]
    exact h

end Nuc

end Kaya
