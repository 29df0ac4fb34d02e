import Kaya.Abstract.Step
import Kaya.Lib.Semaphore

/-!
# The books of the nucleus

The integers in memory, the processes blocked on them and `softBlockCount` are three records
of one thing. Each step of the nucleus makes a few entries in these books: a V, a P, a
tick of the clock, a completed device operation or the end of some processes.
-/

namespace Kaya

open Function Linked

section Addresses

variable {m : Machine} {i j : Nat} {s : Addr}

lemma Machine.toNat_semAddr (m : Machine) (hi : i < semCount) :
    (m.semAddr i).toNat = m.semaphoreArray.toNat + 4 * i := by
  have hf := m.fits
  unfold semCount at hi hf
  unfold Machine.semAddr
  rw [BitVec.toNat_add, BitVec.toNat_ofNat]
  omega

lemma Machine.semAddr_inj (m : Machine) (hi : i < semCount) (hj : j < semCount)
    (h : m.semAddr i = m.semAddr j) : i = j := by
  have ht := congrArg BitVec.toNat h
  rw [m.toNat_semAddr hi, m.toNat_semAddr hj] at ht
  omega

lemma Machine.isDeviceSem_iff (hs : Aligned s) :
    m.IsDeviceSem s ↔ ∃ i < semCount - 1, s = m.semAddr i := by
  have hm := m.aligned
  have h0 : (m.semAddr 0).toNat = _ := m.toNat_semAddr (by decide)
  have hl : (m.semAddr (semCount - 2)).toNat = _ := m.toNat_semAddr (by decide)
  unfold Aligned at hs
  unfold Machine.IsDeviceSem
  rw [BitVec.le_def, BitVec.le_def, h0, hl]
  constructor
  · intro h
    refine ⟨(s.toNat - m.semaphoreArray.toNat) / 4, ?_, ?_⟩
    · unfold semCount at h ⊢
      omega
    · apply BitVec.eq_of_toNat_eq
      rw [m.toNat_semAddr (by unfold semCount at h ⊢; omega)]
      omega
  · rintro ⟨i, hi, rfl⟩
    rw [m.toNat_semAddr (by omega)]
    unfold semCount at hi ⊢
    omega

lemma Machine.isDeviceSem_semAddr (hi : i < semCount - 1) : m.IsDeviceSem (m.semAddr i) :=
  (Machine.isDeviceSem_iff (m.aligned_semAddr i)).mpr ⟨i, hi, rfl⟩

lemma Machine.not_isDeviceSem_clock : ¬ m.IsDeviceSem (m.semAddr itSemIndex) := by
  rw [Machine.isDeviceSem_iff (m.aligned_semAddr _)]
  rintro ⟨i, hi, he⟩
  have hlt : i < semCount := by omega
  have hi' := m.semAddr_inj (by decide) hlt he
  subst hi'
  exact absurd hi (by decide)

lemma Machine.IsDeviceSem.inSemaphoreArray (h : m.IsDeviceSem s) (hs : Aligned s) :
    m.InSemaphoreArray s := by
  obtain ⟨i, hi, he⟩ := (Machine.isDeviceSem_iff hs).mp h
  exact ⟨i, by omega, he⟩

end Addresses

@[ext]
structure Books where
  mem : Addr → Int
  blocked : Addr → List PcbIx
  softBlockCount : Int
  free : List PcbIx

namespace Books

def sem (b : Books) (s : Addr) : Semaphore PcbIx := ⟨b.mem s, b.blocked s⟩

def setSem (b : Books) (s : Addr) (x : Semaphore PcbIx) : Books :=
  { b with mem := update b.mem s x.value, blocked := update b.blocked s x.waiters }

lemma sem_setSem (b : Books) (s : Addr) (x : Semaphore PcbIx) : (b.setSem s x).sem s = x := by
  simp [sem, setSem]

lemma sem_setSem_of_ne {s t : Addr} (b : Books) (x : Semaphore PcbIx) (h : t ≠ s) :
    (b.setSem s x).sem t = b.sem t := by
  simp [sem, setSem, h]

/-- The processes blocked on one of the first `n` elements of `semaphoreArray`. -/
def waitersBelow (m : Machine) (n : Nat) (b : Books) : Finset PcbIx :=
  Finset.univ.filter fun q => ∃ i < n, q ∈ b.blocked (m.semAddr i)

lemma mem_waitersBelow {m : Machine} {n : Nat} {b : Books} {q : PcbIx} :
    q ∈ b.waitersBelow m n ↔ ∃ i < n, q ∈ b.blocked (m.semAddr i) := by
  simp [waitersBelow]

def verhogen (s : Addr) (b : Books) : Books := b.setSem s (b.sem s).verhogen

def passeren (s : Addr) (p : PcbIx) (b : Books) : Books := b.setSem s ((b.sem s).passeren p)

def waitForClock (m : Machine) (p : PcbIx) (b : Books) : Books :=
  passeren (m.semAddr itSemIndex) p { b with softBlockCount := b.softBlockCount + 1 }

def waitForIo (s : Addr) (p : PcbIx) (b : Books) : Books :=
  let soft := if b.mem s - 1 < 0 then b.softBlockCount + 1 else b.softBlockCount
  passeren s p { b with softBlockCount := soft }

/-- The V of a completed operation takes its waiter off the count. -/
def deviceDone (s : Addr) (b : Books) : Books :=
  let soft :=
    if b.mem s + 1 ≤ 0 ∧ b.blocked s ≠ [] then b.softBlockCount - 1 else b.softBlockCount
  verhogen s { b with softBlockCount := soft }

def tick (m : Machine) (b : Books) : Books :=
  let s := m.semAddr itSemIndex
  let n := (-b.mem s).toNat
  { (b.setSem s ⟨0, (b.blocked s).drop n⟩) with softBlockCount := b.softBlockCount - n }

def create (b : Books) : Books := { b with free := b.free.tail }

/-- The processes of `dead` are gone. A device semaphore keeps its value, any other one is
raised by the number of those that have waited on it. -/
def kill (m : Machine) (dead : List PcbIx) (b : Books) : Books where
  mem s := if m.IsDeviceSem s then b.mem s else ((b.sem s).withdraw dead).value
  blocked s := ((b.sem s).withdraw dead).waiters
  softBlockCount :=
    b.softBlockCount - ((b.waitersBelow m (semCount - 1)).filter (· ∈ dead)).card
  free := b.free ++ dead

lemma kill_congr {m : Machine} {b : Books} {dead dead' : List PcbIx}
    (h : ∀ s, ∀ q ∈ b.blocked s, q ∈ dead ↔ q ∈ dead') :
    { b.kill m dead with free := b.free ++ dead' } = b.kill m dead' := by
  have hwith : ∀ s, (b.sem s).withdraw dead = (b.sem s).withdraw dead' := fun s =>
    Semaphore.withdraw_congr (h s)
  have hfilter : (b.waitersBelow m (semCount - 1)).filter (· ∈ dead) =
      (b.waitersBelow m (semCount - 1)).filter (· ∈ dead') := by
    apply Finset.filter_congr
    intro q hq
    obtain ⟨i, -, hi⟩ := mem_waitersBelow.mp hq
    exact h _ q hi
  unfold kill
  simp only [hwith, hfilter]

lemma kill_nil (m : Machine) (b : Books) : b.kill m [] = b := by
  unfold kill
  simp only [Semaphore.withdraw_nil, List.not_mem_nil, Finset.filter_false, Finset.card_empty,
    List.append_nil, Nat.cast_zero, sub_zero]
  apply Books.ext
  · funext s
    simp [sem]
  · rfl
  · rfl
  · rfl

end Books

/-- What a step of the nucleus enters in the books. -/
inductive Entry
  | create
  | verhogen (s : Addr)
  | passeren (s : Addr) (p : PcbIx)
  | waitForClock (p : PcbIx)
  | waitForIo (s : Addr) (p : PcbIx)
  | deviceDone (s : Addr)
  | tick
  | write (s : Addr) (v : Int)
  | kill (dead : List PcbIx)

def Entry.post (m : Machine) (b : Books) : Entry → Books
  | .create => b.create
  | .verhogen s => b.verhogen s
  | .passeren s p => b.passeren s p
  | .waitForClock p => b.waitForClock m p
  | .waitForIo s p => b.waitForIo s p
  | .deviceDone s => b.deviceDone s
  | .tick => b.tick m
  | .write s v => { b with mem := update b.mem s v }
  | .kill dead => b.kill m dead

def Books.postAll (m : Machine) (es : List Entry) (b : Books) : Books :=
  es.foldl (Entry.post m) b

lemma Books.postAll_append (m : Machine) (l₁ l₂ : List Entry) (b : Books) :
    b.postAll m (l₁ ++ l₂) = (b.postAll m l₁).postAll m l₂ := List.foldl_append

namespace Nuc

variable {a a' : Nuc} {p q : PcbIx} {s : Addr} {m : Machine}

def books (a : Nuc) : Books := ⟨a.mem, a.blocked, a.softBlockCount, a.free⟩

/-- The entries of a syscall of the running process `p`, save for its end. -/
def callEntries (m : Machine) (st : State) (p : PcbIx) : List Entry :=
  if st.sA0 = createProcessNum then [.create]
  else if st.sA0 = verhogenNum then [.verhogen st.sA1]
  else if st.sA0 = passerenNum then [.passeren st.sA1 p]
  else if st.sA0 = waitForClockNum then [.waitForClock p]
  else if st.sA0 = waitForIoNum then [.waitForIo (ioSem m st) p]
  else []

/-- The running process `p` and all below it. -/
def family (a : Nuc) (p : PcbIx) : List PcbIx := (a.tree.kids p).postorder ++ [p]

/-- The processes the event terminates when `p` is running. -/
def deaths (m : Machine) (a : Nuc) (e : Event) (p : PcbIx) : List PcbIx :=
  if Dies m a.mem (a.oldAreas p) (a.newAreas p) e then a.family p else []

/-- What the interrupt of the line with this number enters. -/
def lineEntries (m : Machine) (a : Nuc) (lineNum : Nat) : List Entry :=
  if lineNum = pltLine then []
  else if lineNum = itLine then [.tick]
  else
    match deviceLine lineNum with
    | none => []
    | some line =>
      match determineDevice (a.bus.interruptDev line) with
      | none => []
      | some devNum =>
        if h : devNum < numDevicesPerType then
          [.deviceDone (deviceSem m line ⟨devNum, h⟩ (a.bus.devreg line ⟨devNum, h⟩))]
        else []

/-- What the event enters when `p` is running. -/
def processEntries (m : Machine) (a : Nuc) (p : PcbIx) (e : Event) : List Entry :=
  (match e with
    | .syscall st => if IsCall st then callEntries m st p else []
    | _ => []) ++ [.kill (a.deaths m e p)]

def entries (m : Machine) (a : Nuc) : Event → List Entry
  | .interrupt st =>
    match determineLine st.sCause with
    | none => []
    | some lineNum => lineEntries m a lineNum
  | .device _ => []
  | .writeInt s v => [.write s v]
  | .writeState _ _ => []
  | e =>
    match a.currentProcess with
    | none => []
    | some p => processEntries m a p e

/-! ### What the operations enter -/

lemma dispatch_books : (a.dispatch m).books = a.books := by
  unfold dispatch
  split
  · split_ifs <;> rfl
  · rfl

lemma block_books (st : State) : (a.block m st s p).books =
    { a.books with blocked := update a.blocked s (a.blocked s ++ [p]) } := by
  unfold block
  dsimp only
  rw [dispatch_books]
  rfl

lemma verhogen_books (hs : a.verhogen s = some a') : a'.books = a.books.verhogen s := by
  unfold verhogen at hs
  split at hs
  · obtain rfl := Option.some.inj hs
    unfold Books.verhogen Semaphore.verhogen Books.setSem Books.sem
    by_cases hv : a.mem s + 1 ≤ 0
    · cases hb : a.blocked s with
      | nil => simp [store, wake, resume, books, hv, hb]
      | cons q rest => simp [store, wake, resume, books, hv, hb]
    · simp [store, resume, books, hv]
  · contradiction

lemma passeren_books (hc : a.currentProcess = some p) (hs : a.passeren m s = some a') :
    a'.books = a.books.passeren s p := by
  unfold passeren at hs
  split at hs
  · simp only [store, update_self, hc, Option.bind_eq_bind, Option.bind_some] at hs
    unfold Books.passeren Semaphore.passeren Books.setSem Books.sem
    split at hs
    · rename_i hv
      obtain rfl := Option.some.inj hs
      rw [block_books]
      simp [books, hv]
    · rename_i hv
      obtain rfl := Option.some.inj hs
      simp [resume, books, hv]
  · contradiction

lemma waitForClock_books (hc : a.currentProcess = some p) (hs : a.waitForClock m = some a') :
    a'.books = a.books.waitForClock m p := by
  unfold waitForClock at hs
  exact passeren_books (a := { a with softBlockCount := a.softBlockCount + 1 }) hc hs

lemma takeOut_mem (t : Addr) : (a.takeOut m q).mem t =
    if t = a.pSemAdd q ∧ t ≠ null ∧ ¬ m.IsDeviceSem t then a.mem t + 1 else a.mem t := by
  unfold takeOut store
  by_cases hs : a.pSemAdd q = null
  · simp +contextual [hs]
  · by_cases hd : m.IsDeviceSem (a.pSemAdd q)
    · simp +contextual [hs, hd]
    · by_cases ht : t = a.pSemAdd q
      · subst ht
        simp [hs, hd]
      · simp [hs, hd, ht]

lemma takeOut_softBlockCount : (a.takeOut m q).softBlockCount =
    if a.pSemAdd q ≠ null ∧ m.IsDeviceSem (a.pSemAdd q) then a.softBlockCount - 1
    else a.softBlockCount := by
  unfold takeOut store
  by_cases hs : a.pSemAdd q = null
  · simp [hs]
  · by_cases hd : m.IsDeviceSem (a.pSemAdd q) <;> simp [hs, hd]

lemma Placed.aligned (h : a.Placed q) (hne : a.pSemAdd q ≠ null) : Aligned (a.pSemAdd q) := by
  rcases h with ⟨-, hs⟩ | ⟨s, -, hal, -, rfl⟩
  · exact absurd hs hne
  · exact hal

lemma Placed.mem_blocked_iff (h : a.Placed q) (hp : ∃ home, IsPartition a.listAt home) (t : Addr) :
    q ∈ a.blocked t ↔ t = a.pSemAdd q ∧ t ≠ null := by
  obtain ⟨home, hp⟩ := hp
  rcases h with ⟨hr, hs⟩ | ⟨s, hs, -, hb, rfl⟩
  · have hnot : q ∉ a.listAt (.blocked t) := hp.not_mem (show q ∈ a.listAt .ready from hr) (by simp)
    constructor
    · exact fun ht => absurd ht hnot
    · rintro ⟨rfl, hne⟩
      exact absurd hs hne
  · constructor
    · intro ht
      by_contra hne
      have hts : t ≠ a.pSemAdd q := fun he => hne ⟨he, he ▸ hs⟩
      exact hp.not_mem (i := .blocked t) (j := .blocked (a.pSemAdd q)) ht (by simpa using hts) hb
    · rintro ⟨rfl, -⟩
      exact hb

lemma Placed.takeOut_blocked_eq (h : a.Placed q) (hp : ∃ home, IsPartition a.listAt home)
    (t : Addr) : (a.takeOut m q).blocked t = (a.blocked t).erase q := by
  have hmem := h.mem_blocked_iff hp t
  rw [takeOut_blocked]
  split
  · rename_i hs
    rw [List.erase_of_not_mem]
    rw [hmem]
    rintro ⟨rfl, hne⟩
    exact hne hs
  · by_cases ht : t = a.pSemAdd q
    · subst ht
      rw [update_self]
    · rw [update_of_ne ht, List.erase_of_not_mem]
      rw [hmem]
      exact fun he => ht he.1

lemma card_filter_mem_cons (w : Finset PcbIx) (q : PcbIx) (l : List PcbIx) :
    (w.filter (· ∈ q :: l)).card =
      ((w.erase q).filter (· ∈ l)).card + if q ∈ w then 1 else 0 := by
  by_cases hq : q ∈ w
  · have heq : w.filter (· ∈ q :: l) = insert q ((w.erase q).filter (· ∈ l)) := by
      ext x
      by_cases hx : x = q
      · simp [hx, hq]
      · simp [hx]
    rw [heq, Finset.card_insert_of_notMem (by simp), if_pos hq]
  · have heq : w.filter (· ∈ q :: l) = (w.erase q).filter (· ∈ l) := by
      ext x
      by_cases hx : x = q
      · simp [hx, hq]
      · simp [hx]
    rw [heq, if_neg hq, add_zero]

lemma Placed.takeOut_books (h : a.Placed q) (hp : ∃ home, IsPartition a.listAt home)
    (dead : List PcbIx) : (a.takeOut m q).books.kill m dead = a.books.kill m (q :: dead) := by
  have hmem := h.mem_blocked_iff hp
  have hblocked := h.takeOut_blocked_eq (m := m) hp
  have hnd : ∀ t, (a.blocked t).Nodup := by
    obtain ⟨home, hp⟩ := hp
    exact fun t => hp.nodup (.blocked t)
  have hnot : ∀ {t}, q ∉ a.blocked t → ∀ v : Int,
      Semaphore.withdraw (q :: dead) ⟨v, a.blocked t⟩ =
        Semaphore.withdraw dead ⟨v, a.blocked t⟩ := by
    intro t ht v
    apply Semaphore.withdraw_congr
    intro x hx
    have hxq : x ≠ q := fun he => ht (he ▸ hx)
    simp [hxq]
  apply Books.ext
  · funext t
    unfold Books.kill Books.sem books
    dsimp only
    split
    · rename_i hd
      simp [takeOut_mem, hd]
    · rename_i hd
      rw [hblocked, takeOut_mem]
      by_cases ht : q ∈ a.blocked t
      · obtain ⟨hs, hne⟩ := (hmem t).mp ht
        rw [if_pos ⟨hs, hne, hd⟩, ← Semaphore.withdraw_cons ht (hnd t)]
      · rw [if_neg fun he => ht ((hmem t).mpr ⟨he.1, he.2.1⟩), List.erase_of_not_mem ht,
          hnot ht]
  · funext t
    unfold Books.kill Books.sem books
    dsimp only
    rw [hblocked]
    by_cases ht : q ∈ a.blocked t
    · have hw : (Semaphore.withdraw dead ⟨0 + 1, (a.blocked t).erase q⟩).waiters =
          (Semaphore.withdraw (q :: dead) ⟨0, a.blocked t⟩).waiters :=
        congrArg Semaphore.waiters (Semaphore.withdraw_cons (s := ⟨0, a.blocked t⟩) ht (hnd t))
      exact hw
    · have hw : (Semaphore.withdraw (q :: dead) ⟨0, a.blocked t⟩).waiters =
          (Semaphore.withdraw dead ⟨0, a.blocked t⟩).waiters :=
        congrArg Semaphore.waiters (hnot ht 0)
      rw [List.erase_of_not_mem ht]
      exact hw.symm
  · have hbelow : (a.takeOut m q).books.waitersBelow m (semCount - 1) =
        (a.books.waitersBelow m (semCount - 1)).erase q := by
      ext x
      simp only [Books.mem_waitersBelow, Finset.mem_erase, books, hblocked, (hnd _).mem_erase_iff]
      tauto
    have hq : q ∈ a.books.waitersBelow m (semCount - 1) ↔
        a.pSemAdd q ≠ null ∧ m.IsDeviceSem (a.pSemAdd q) := by
      rw [Books.mem_waitersBelow]
      constructor
      · rintro ⟨i, hi, hb⟩
        obtain ⟨hs, hne⟩ := (hmem _).mp hb
        rw [← hs]
        exact ⟨hne, Machine.isDeviceSem_semAddr hi⟩
      · rintro ⟨hne, hd⟩
        have hb : q ∈ a.blocked (a.pSemAdd q) := (hmem _).mpr ⟨rfl, hne⟩
        obtain ⟨i, hi, hs⟩ := (Machine.isDeviceSem_iff (h.aligned hne)).mp hd
        exact ⟨i, hi, hs ▸ hb⟩
    unfold Books.kill
    dsimp only
    rw [hbelow, card_filter_mem_cons]
    change (a.takeOut m q).softBlockCount - _ = a.softBlockCount - _
    rw [takeOut_softBlockCount]
    by_cases hw : q ∈ a.books.waitersBelow m (semCount - 1)
    · rw [if_pos (hq.mp hw), if_pos hw]
      omega
    · rw [if_neg fun he => hw (hq.mpr he), if_neg hw]
      omega
  · simp [Books.kill, books]

/-- A whole list of processes is taken out. -/
lemma foldl_takeOut_books {l : List PcbIx} (hp : ∃ home, IsPartition a.listAt home)
    (hnd : l.Nodup) (hl : ∀ q ∈ l, a.Placed q) :
    (l.foldl (Nuc.takeOut m) a).books = a.books.kill m l := by
  induction l generalizing a with
  | nil => simp [Books.kill, Books.sem, Semaphore.withdraw]
  | cons q l ih =>
    obtain ⟨hq, hnd⟩ := List.nodup_cons.mp hnd
    have hplaced := hl q (by simp)
    have hp' : ∃ home, IsPartition (a.takeOut m q).listAt home := by
      obtain ⟨home, hp⟩ := hp
      exact ⟨_, hplaced.partition hp⟩
    rw [List.foldl_cons, ih hp' hnd, hplaced.takeOut_books hp]
    intro x hx
    exact (hl x (by simp [hx])).takeOut fun he => hq (he ▸ hx)

lemma Inv.terminate_books (h : a.Inv) (hc : a.currentProcess = some p) (hsafe : a.KillSafe p) :
    (a.terminate m p).books = a.books.kill m (a.family p) := by
  have hd := h.doomed hc hsafe
  have hperm := Forest.postorder_perm_nodes (a.tree.kids p)
  have hnd : (a.tree.kids p).postorder.Nodup :=
    hperm.nodup_iff.mpr (Forest.kids_nodup p hd.nodup)
  have hfold := foldl_takeOut_books (m := m) h.homes hnd fun q hq =>
    hd.placed q (hperm.mem_iff.mp hq)
  have hfamily : ∀ s, ∀ q ∈ a.books.blocked s,
      q ∈ (a.tree.kids p).postorder ↔ q ∈ a.family p := by
    intro s q hq
    have hqp : q ≠ p := fun he => hd.homeless.blocked s (he ▸ hq)
    simp [family, hqp]
  have hfree : a.free ++ a.family p =
      ((a.tree.kids p).postorder.foldl (Nuc.takeOut m) a).free ++ [p] := by
    rw [(foldl_takeOut_spec (m := m) h.homes h.waits hnd fun q hq =>
      hd.placed q (hperm.mem_iff.mp hq)).2.2.1, family, List.append_assoc]
  rw [← Books.kill_congr hfamily, ← hfold]
  unfold Nuc.terminate
  rw [dispatch_books]
  change _ = { Nuc.books _ with free := a.free ++ a.family p }
  rw [hfree]
  rfl

lemma createProcess_books {newState : Addr} (hs : a.createProcess newState = some a') :
    a'.books = a.books.create := by
  unfold createProcess at hs
  split at hs
  · rename_i hf
    obtain rfl := Option.some.inj hs
    simp [Books.create, books, resume, setSyscallV0, hf]
  · rename_i hf
    obtain ⟨c, -, hs⟩ := Option.bind_eq_some_iff.mp hs
    obtain rfl := Option.some.inj hs
    simp [Books.create, books, resume, setSyscallV0, newChild, hf]

lemma getCpuTime_books (hs : a.getCpuTime m = some a') : a'.books = a.books := by
  unfold getCpuTime at hs
  obtain ⟨c, -, hs⟩ := Option.bind_eq_some_iff.mp hs
  obtain rfl := Option.some.inj hs
  rfl

lemma exceptionStateVec_books {type : Word} {old new : Addr} (h : a.Inv)
    (hc : a.currentProcess = some p) (dies : Prop) [Decidable dies]
    (hd : dies ↔ ∀ ht : type.toNat < trapTypes,
      ¬ (a.oldAreas p ⟨_, ht⟩ = null ∧ a.newAreas p ⟨_, ht⟩ = null))
    (hsafe : dies → a.KillSafe p) (hs : a.exceptionStateVec m type old new = some a') :
    a'.books = a.books.kill m (if dies then a.family p else []) := by
  unfold exceptionStateVec at hs
  simp only [hc, Option.bind_eq_bind, Option.bind_some] at hs
  split at hs
  · rename_i ht
    split at hs
    · rename_i hv
      obtain rfl := Option.some.inj hs
      rw [if_neg fun hdies => hd.mp hdies ht hv, Books.kill_nil]
      rfl
    · rename_i hv
      obtain rfl := Option.some.inj hs
      have hdies : dies := hd.mpr fun _ => hv
      rw [if_pos hdies, h.terminate_books hc (hsafe hdies)]
  · contradiction

lemma waitForIo_books {lineNum deviceNum termRead : Word} (h : a.Inv)
    (hc : a.currentProcess = some p)
    (hsafe : 0 < a.mem (m.semAddr (ioIndex lineNum deviceNum termRead).toNat) → a.KillSafe p)
    (hs : a.waitForIo m lineNum deviceNum termRead = some a') :
    a'.books = (a.books.waitForIo (m.semAddr (ioIndex lineNum deviceNum termRead).toNat) p).kill m
      (if 0 < a.mem (m.semAddr (ioIndex lineNum deviceNum termRead).toNat) then a.family p
        else []) := by
  unfold waitForIo at hs
  dsimp only at hs
  generalize m.semAddr (ioIndex lineNum deviceNum termRead).toNat = s at hsafe hs ⊢
  simp only [hc, Option.bind_eq_bind, Option.bind_some, store, update_self] at hs
  have hbooks : a.books.waitForIo s p = {
      mem := update a.mem s (a.mem s - 1)
      blocked := update a.blocked s (if a.mem s - 1 < 0 then a.blocked s ++ [p] else a.blocked s)
      softBlockCount := if a.mem s - 1 < 0 then a.softBlockCount + 1 else a.softBlockCount
      free := a.free } := rfl
  rw [hbooks]
  split at hs
  · rename_i hv
    obtain rfl := Option.some.inj hs
    rw [if_neg (show ¬ 0 < a.mem s by omega), Books.kill_nil, block_books, if_pos hv, if_pos hv]
    rfl
  · rename_i hv
    obtain rfl := Option.some.inj hs
    have hpos : 0 < a.mem s := by omega
    rw [if_pos hpos, if_neg hv, if_neg hv, update_eq_self]
    have hkill := (h.store s (a.mem s - 1)).terminate_books (m := m) hc (hsafe hpos)
    unfold store at hkill
    rwa [hc] at hkill

lemma passUpOrDie_books {area : OldArea} {type : Fin trapTypes} (h : a.Inv)
    (hc : a.currentProcess = some p)
    (hsafe : NoVector (a.oldAreas p) (a.newAreas p) type → a.KillSafe p)
    (hs : a.passUpOrDie m area type = some a') :
    a'.books = a.books.kill m
      (if NoVector (a.oldAreas p) (a.newAreas p) type then a.family p else []) := by
  unfold passUpOrDie at hs
  simp only [hc, Option.bind_eq_bind, Option.bind_some] at hs
  split at hs
  · rename_i hv
    change NoVector (a.oldAreas p) (a.newAreas p) type at hv
    obtain rfl := Option.some.inj hs
    rw [if_pos hv, h.terminate_books hc (hsafe hv)]
  · rename_i hv
    change ¬ NoVector (a.oldAreas p) (a.newAreas p) type at hv
    obtain rfl := Option.some.inj hs
    rw [if_neg hv, Books.kill_nil]
    rfl

lemma service_books {st : State} (h : a.Inv) (hc : a.currentProcess = some p)
    (hsafe : DiesInService m a.mem (a.oldAreas p) (a.newAreas p) st → a.KillSafe p)
    (hs : a.service m st = some a') :
    a'.books = (a.books.postAll m (callEntries m st p)).kill m
      (if DiesInService m a.mem (a.oldAreas p) (a.newAreas p) st then a.family p else []) := by
  unfold service at hs
  split at hs
  · rename_i h1
    rw [if_neg (by simp [DiesInService, h1]), Books.kill_nil, createProcess_books hs, callEntries,
      if_pos h1]
    rfl
  rename_i h1
  split at hs
  · rename_i h2
    have hcall : callEntries m st p = [] := by
      simp [callEntries, h2, terminateProcessNum, createProcessNum, verhogenNum, passerenNum,
        waitForClockNum,
        waitForIoNum]
    have hd : DiesInService m a.mem (a.oldAreas p) (a.newAreas p) st := by
      rw [DiesInService, if_neg h1, if_pos h2]
      trivial
    rw [hc] at hs
    obtain rfl := Option.some.inj hs
    rw [if_pos hd, hcall, h.terminate_books hc (hsafe hd)]
    rfl
  rename_i h2
  split at hs
  · rename_i h3
    have hd : ¬ DiesInService m a.mem (a.oldAreas p) (a.newAreas p) st := by
      rw [DiesInService, if_neg h1, if_neg h2, if_pos h3]
      exact id
    rw [if_neg hd, Books.kill_nil, verhogen_books hs]
    rw [callEntries, if_neg h1, if_pos h3]
    rfl
  rename_i h3
  split at hs
  · rename_i h4
    have hd : ¬ DiesInService m a.mem (a.oldAreas p) (a.newAreas p) st := by
      rw [DiesInService, if_neg h1, if_neg h2, if_neg h3, if_pos h4]
      exact id
    rw [if_neg hd, Books.kill_nil, passeren_books hc hs]
    rw [callEntries, if_neg h1, if_neg h3, if_pos h4]
    rfl
  rename_i h4
  split at hs
  · rename_i h5
    have hcall : callEntries m st p = [] := by
      simp [callEntries, h5, exceptionStateVecNum, createProcessNum, verhogenNum, passerenNum,
        waitForClockNum,
        waitForIoNum]
    have hd : DiesInService m a.mem (a.oldAreas p) (a.newAreas p) st ↔
        ∀ h : st.sA1.toNat < trapTypes,
          ¬ (a.oldAreas p ⟨_, h⟩ = null ∧ a.newAreas p ⟨_, h⟩ = null) := by
      unfold DiesInService
      rw [if_neg h1, if_neg h2, if_neg h3, if_neg h4, if_pos h5]
    rw [exceptionStateVec_books h hc _ hd hsafe hs, hcall]
    rfl
  rename_i h5
  split at hs
  · rename_i h6
    have hcall : callEntries m st p = [] := by
      simp [callEntries, h6, getCpuTimeNum, createProcessNum, verhogenNum, passerenNum,
        waitForClockNum, waitForIoNum]
    have hd : ¬ DiesInService m a.mem (a.oldAreas p) (a.newAreas p) st := by
      rw [DiesInService, if_neg h1, if_neg h2, if_neg h3, if_neg h4, if_neg h5, if_pos h6]
      exact id
    rw [if_neg hd, Books.kill_nil, hcall, getCpuTime_books hs]
    rfl
  rename_i h6
  split at hs
  · rename_i h7
    have hd : ¬ DiesInService m a.mem (a.oldAreas p) (a.newAreas p) st := by
      rw [DiesInService, if_neg h1, if_neg h2, if_neg h3, if_neg h4, if_neg h5, if_neg h6,
        if_pos h7]
      exact id
    rw [if_neg hd, Books.kill_nil, waitForClock_books hc hs]
    rw [callEntries, if_neg h1, if_neg h3, if_neg h4, if_pos h7]
    rfl
  rename_i h7
  split at hs
  · rename_i h8
    have hd : DiesInService m a.mem (a.oldAreas p) (a.newAreas p) st ↔
        0 < a.mem (m.semAddr (ioIndex st.sA1 st.sA2 st.sA3).toNat) := by
      unfold DiesInService
      rw [if_neg h1, if_neg h2, if_neg h3, if_neg h4, if_neg h5, if_neg h6, if_neg h7, if_pos h8]
    have hcall : callEntries m st p = [.waitForIo (ioSem m st) p] := by
      rw [callEntries, if_neg h1, if_neg h3, if_neg h4, if_neg h7, if_pos h8]
    rw [waitForIo_books h hc (fun hpos => hsafe (hd.mpr hpos)) hs, hcall]
    simp only [hd]
    rfl
  · rename_i h8
    have hcall : callEntries m st p = [] := by
      rw [callEntries, if_neg h1, if_neg h3, if_neg h4, if_neg h7, if_neg h8]
    have hd : DiesInService m a.mem (a.oldAreas p) (a.newAreas p) st ↔
        NoVector (a.oldAreas p) (a.newAreas p) syscallException := by
      unfold DiesInService
      rw [if_neg h1, if_neg h2, if_neg h3, if_neg h4, if_neg h5, if_neg h6, if_neg h7, if_neg h8]
    rw [passUpOrDie_books h hc (fun hv => hsafe (hd.mpr hv)) hs, hcall]
    simp only [hd]
    rfl

lemma syscallHandler_books {st : State} (h : a.Inv) (hc : a.currentProcess = some p)
    (hst : a.oldArea .syscall = st)
    (hsafe : Dies m a.mem (a.oldAreas p) (a.newAreas p) (.syscall st) → a.KillSafe p)
    (hs : a.syscallHandler m = some a') :
    a'.books = a.books.postAll m (a.processEntries m p (.syscall st)) := by
  unfold syscallHandler at hs
  rw [hst] at hs
  dsimp only at hs
  unfold processEntries deaths
  rw [Books.postAll_append]
  dsimp only
  split at hs
  · rename_i hu
    have hcall : ¬ IsCall st := fun hn => hn hu
    have hd : Dies m a.mem (a.oldAreas p) (a.newAreas p) (.syscall st) ↔
        NoVector (a.oldAreas p) (a.newAreas p) programTrapException := by
      rw [Dies, if_pos hu]
    rw [if_neg hcall]
    simp only [hd]
    have hinv : ∀ trap, Nuc.Inv { a with oldArea := update a.oldArea .programTrap trap } :=
      fun _ => ⟨h.homes, h.waits, h.shape⟩
    have hb := passUpOrDie_books (hinv _) hc (fun hv => hsafe (hd.mpr hv)) hs
    exact hb
  · rename_i hu
    have hd : Dies m a.mem (a.oldAreas p) (a.newAreas p) (.syscall st) ↔
        DiesInService m a.mem (a.oldAreas p) (a.newAreas p) st := by
      rw [Dies, if_neg hu]
    rw [if_pos (show IsCall st from hu)]
    simp only [hd]
    have hinv : Nuc.Inv { a with oldArea := update a.oldArea .syscall st.advancePc } :=
      ⟨h.homes, h.waits, h.shape⟩
    have hb := service_books hinv hc (fun hv => hsafe (hd.mpr hv)) hs
    exact hb

lemma pltInterrupt_books (hs : a.pltInterrupt m = some a') : a'.books = a.books := by
  unfold pltInterrupt at hs
  obtain ⟨p, -, hs⟩ := Option.bind_eq_some_iff.mp hs
  obtain rfl := Option.some.inj hs
  rw [dispatch_books]
  rfl

lemma itInterrupt_books (hs : a.itInterrupt m = some a') : a'.books = a.books.tick m := by
  unfold itInterrupt at hs
  dsimp only at hs
  split at hs
  · obtain rfl := Option.some.inj hs
    rfl
  · contradiction

lemma exitInterrupt_books : (a.exitInterrupt m).books = a.books := by
  unfold exitInterrupt
  split
  · exact dispatch_books
  · rfl

lemma deviceInterrupt_books {line : Fin devIntNum} {devNum : Fin numDevicesPerType} :
    (a.deviceInterrupt m line devNum).books =
      a.books.deviceDone (deviceSem m line devNum (a.bus.devreg line devNum)) := by
  unfold deviceInterrupt
  dsimp only
  generalize deviceSem m line devNum (a.bus.devreg line devNum) = s
  unfold Books.deviceDone Books.verhogen Semaphore.verhogen Books.setSem Books.sem
  by_cases hv : a.mem s + 1 ≤ 0
  · cases hb : a.blocked s with
    | nil => simp [store, deliver, acknowledge, books, hv, hb]
    | cons q rest => simp [store, deliver, acknowledge, books, hv, hb]
  · simp [store, books, hv]

lemma interruptHandler_books (hs : a.interruptHandler m = some a') :
    a'.books = a.books.postAll m (match determineLine (a.oldArea .interrupt).sCause with
      | none => []
      | some lineNum => a.lineEntries m lineNum) := by
  unfold interruptHandler at hs
  obtain ⟨lineNum, hline, hs⟩ := Option.bind_eq_some_iff.mp hs
  simp only [hline]
  unfold lineEntries
  split at hs
  · rename_i hplt
    rw [if_pos hplt, pltInterrupt_books hs]
    rfl
  rename_i hplt
  rw [if_neg hplt]
  split at hs
  · rename_i hit
    obtain ⟨b, hb, hs⟩ := Option.bind_eq_some_iff.mp hs
    obtain rfl := Option.some.inj hs
    rw [if_pos hit, exitInterrupt_books, itInterrupt_books hb]
    rfl
  · rename_i hit
    obtain ⟨line, hl, hs⟩ := Option.bind_eq_some_iff.mp hs
    obtain ⟨devNum, hd, hs⟩ := Option.bind_eq_some_iff.mp hs
    simp only [if_neg hit, hl, hd]
    split at hs
    · rename_i hlt
      obtain rfl := Option.some.inj hs
      rw [dif_pos hlt, exitInterrupt_books, deviceInterrupt_books]
      rfl
    · contradiction

/-- A step makes its entries in the books. -/
theorem step_books {e : Event} (h : a.Good) (hrun : FromProcess e → a.cpu.IsRunning)
    (hsafe : a.Safe m e) (hs : a.step m e = some a') :
    a'.books = a.books.postAll m (a.entries m e) := by
  have hcur : FromProcess e → ∃ p, a.currentProcess = some p := fun he =>
    Option.ne_none_iff_exists'.mp (h.onCpu.mp (hrun he))
  obtain ⟨⟨homes, waits, shape⟩, -⟩ := h
  cases e with
  | syscall st =>
    obtain ⟨p, hc⟩ := hcur trivial
    unfold entries
    rw [hc]
    have hinv : Nuc.Inv { a with oldArea := update a.oldArea .syscall st } :=
      ⟨homes, waits, shape⟩
    have hb := syscallHandler_books hinv hc (update_self OldArea.syscall st a.oldArea)
      (hsafe p hc) hs
    exact hb
  | programTrap st =>
    obtain ⟨p, hc⟩ := hcur trivial
    unfold entries
    simp only [hc, processEntries, deaths, List.nil_append]
    have hinv : Nuc.Inv { a with oldArea := update a.oldArea .programTrap st } :=
      ⟨homes, waits, shape⟩
    have hb := passUpOrDie_books hinv hc (hsafe p hc) hs
    exact hb
  | tlbManagement st =>
    obtain ⟨p, hc⟩ := hcur trivial
    unfold entries
    simp only [hc, processEntries, deaths, List.nil_append]
    have hinv : Nuc.Inv { a with oldArea := update a.oldArea .tlbManagement st } :=
      ⟨homes, waits, shape⟩
    have hb := passUpOrDie_books hinv hc (hsafe p hc) hs
    exact hb
  | interrupt st =>
    have hb := interruptHandler_books hs
    simp only [update_self] at hb
    exact hb
  | device bus =>
    obtain rfl := Option.some.inj hs
    rfl
  | writeInt s v =>
    obtain rfl := Option.some.inj hs
    rfl
  | writeState s st =>
    obtain rfl := Option.some.inj hs
    rfl

end Nuc

end Kaya
