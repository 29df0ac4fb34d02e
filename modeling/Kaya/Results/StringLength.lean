import Kaya.Support.UserCalls
import Mathlib.Data.List.Basic
import Mathlib.Tactic.Common

/-!
# The length of a string for the terminal

`WriteToTerminal` checks the length that it is given and then does not use it: the loop runs to
the first zero byte.
-/

namespace Kaya.Support

/-- What a process does while it writes to its terminal. -/
inductive Act
  /-- P of the terminal's mutex -/
  | passeren
  | read (va : Addr)
  /-- TRANSMITCHAR with this character -/
  | transmit (c : BitVec 8)
  /-- V of the terminal's mutex -/
  | verhogen
  deriving DecidableEq

/-- Memory as a process addresses it. -/
abbrev UserMemory := Addr → BitVec 8

/-- The loop of `WriteToTerminal`, if it takes no more than `fuel` turns. -/
def Print.performs (mem : UserMemory) (statuses : ℕ → Word) : ℕ → Print → Option (List Act × Ending)
  | 0, _ => none
  | fuel + 1, pr =>
    if (mem pr.s).setWidth 32 = eos then some ([.read pr.s, .verhogen], .reloaded pr.finish)
    else if Transmitted (statuses 0) then
      (performs mem (fun j => statuses (j + 1)) fuel pr.next).map fun (acts, e) =>
        (.read pr.s :: .read pr.s :: .transmit (mem pr.s) :: acts, e)
    else
      some ([.read pr.s, .read pr.s, .transmit (mem pr.s), .verhogen],
        .reloaded (pr.fail (statuses 0)))

/-- The rest of `UserSyscallHandler` for a string. -/
def Service.performs (mem : UserMemory) (statuses : ℕ → Word) (fuel : ℕ) :
    Service → Option (List Act × Ending)
  | .writes pr => (pr.performs mem statuses fuel).map fun (acts, e) => (.passeren :: acts, e)
  | _ => none

/-- The characters that have been transmitted. -/
def transmitted (acts : List Act) : List (BitVec 8) :=
  acts.filterMap fun
    | .transmit c => some c
    | _ => none

/-- The first `k` characters from an address on. -/
def charsAt (mem : UserMemory) (addr : Addr) (k : ℕ) : List (BitVec 8) :=
  (List.range k).map fun j => mem (addr + BitVec.ofNat 32 j)

/-- The string of SYS10 of a process with the state `old` has been sent and its length returned, or
it has been sent up to the first character that is not transmitted and the negated status
returned. -/
def Sent (mem : UserMemory) (statuses : ℕ → Word) (old : State) (acts : List Act) (e : Ending) :
    Prop :=
  transmitted acts = charsAt mem old.sA1 old.sA2.toNat ∧
      (∀ j < old.sA2.toNat, Transmitted (statuses j)) ∧
      e = .reloaded (old.advancePc.setV0 old.sA2) ∨
    ∃ i < old.sA2.toNat, transmitted acts = charsAt mem old.sA1 (i + 1) ∧
      (∀ j < i, Transmitted (statuses j)) ∧ ¬ Transmitted (statuses i) ∧
      e = .reloaded (old.advancePc.setV0 (-statuses i))

/-- What SYS10 is to do: the string is sent, no byte behind it is read, and the mutex is free
again. -/
structure Honours (mem : UserMemory) (statuses : ℕ → Word) (old : State) (acts : List Act)
    (e : Ending) : Prop where
  sent : Sent mem statuses old acts e
  reads : ∀ va, .read va ∈ acts → (va - old.sA1).toNat < old.sA2.toNat
  released : ∃ l, acts = .passeren :: l ++ [.verhogen] ∧ .passeren ∉ l ∧ .verhogen ∉ l

variable {mem : UserMemory} {statuses : ℕ → Word} {fuel k i : ℕ} {pr : Print} {old : State}
  {acts : List Act} {e : Ending} {s : Addr}

/-! ### The turns of the loop -/

/-- The turns that a memory and a device make of the loop. -/
def Print.turnsIn (mem : UserMemory) (statuses : ℕ → Word) (s : Addr) (j : ℕ) : Turn where
  test := some ((mem (s + BitVec.ofNat 32 j)).setWidth 32)
  send := some ((mem (s + BitVec.ofNat 32 j)).setWidth 32)
  status := statuses j

lemma add_one_add (s : Addr) (j : ℕ) : s + 1 + BitVec.ofNat 32 j = s + BitVec.ofNat 32 (j + 1) := by
  rw [BitVec.add_assoc]
  congr 1
  apply BitVec.eq_of_toNat_eq
  rw [BitVec.toNat_add, BitVec.toNat_ofNat, BitVec.toNat_ofNat]
  change (1 + _) % _ = _
  omega

/-- A call of `WriteToTerminal` ends as it does turn by turn. -/
theorem Print.performs_ending : (pr.performs mem statuses fuel).map Prod.snd =
    pr.writes (turnsIn mem statuses pr.s) fuel := by
  induction fuel generalizing pr statuses with
  | zero => rfl
  | succ fuel ih =>
    have hshift : (fun j => turnsIn mem statuses pr.s (j + 1)) =
        turnsIn mem (fun j => statuses (j + 1)) pr.next.s := by
      funext j
      unfold turnsIn
      rw [← add_one_add]
      rfl
    have hfirst : turnsIn mem statuses pr.s 0 =
        ⟨some ((mem pr.s).setWidth 32), some ((mem pr.s).setWidth 32), statuses 0⟩ := by
      unfold turnsIn
      rw [BitVec.add_zero]
    unfold performs writes
    rw [hfirst, hshift, ← ih]
    dsimp only
    split_ifs
    · rfl
    · rw [Option.map_map]
      rfl
    · rfl

/-- What is done in `k` turns in which a character is transmitted. -/
def sends (mem : UserMemory) : ℕ → Addr → List Act
  | 0, _ => []
  | k + 1, s => .read s :: .read s :: .transmit (mem s) :: sends mem k (s + 1)

lemma transmitted_sends (mem : UserMemory) (k : ℕ) (s : Addr) :
    transmitted (sends mem k s) = charsAt mem s k := by
  induction k generalizing s with
  | zero => rfl
  | succ k ih =>
    have htail : transmitted (sends mem (k + 1) s) = mem s :: transmitted (sends mem k (s + 1)) :=
      rfl
    rw [htail, ih]
    unfold charsAt
    rw [List.range_succ_eq_map, List.map_cons, List.map_map, BitVec.add_zero]
    congr 1
    apply List.map_congr_left
    intro j _
    rw [add_one_add]
    rfl

lemma mem_sends {a : Act} (h : a ∈ sends mem k s) :
    ∃ j < k, a = .read (s + BitVec.ofNat 32 j) ∨ a = .transmit (mem (s + BitVec.ofNat 32 j)) := by
  induction k generalizing s with
  | zero => cases h
  | succ k ih =>
    simp only [sends, List.mem_cons] at h
    rcases h with h | h | h | h
    · exact ⟨0, Nat.succ_pos k, .inl (by rw [h, BitVec.add_zero])⟩
    · exact ⟨0, Nat.succ_pos k, .inl (by rw [h, BitVec.add_zero])⟩
    · exact ⟨0, Nat.succ_pos k, .inr (by rw [h, BitVec.add_zero])⟩
    · obtain ⟨j, hj, ha⟩ := ih h
      rw [add_one_add] at ha
      exact ⟨j + 1, Nat.succ_lt_succ hj, ha⟩

lemma read_mem_sends (hi : i < k) : .read (s + BitVec.ofNat 32 i) ∈ sends mem k s := by
  induction k generalizing s i with
  | zero => exact absurd hi (Nat.not_lt_zero i)
  | succ k ih =>
    unfold sends
    cases i with
    | zero =>
      rw [BitVec.add_zero]
      exact List.mem_cons_self
    | succ i =>
      have hrest := ih (s := s + 1) (Nat.lt_of_succ_lt_succ hi)
      rw [add_one_add] at hrest
      exact List.mem_cons_of_mem _ (List.mem_cons_of_mem _ (List.mem_cons_of_mem _ hrest))

/-! ### The whole loop -/

/-- The loop goes through the turns before `k`. -/
def Passes (mem : UserMemory) (statuses : ℕ → Word) (s : Addr) (k : ℕ) : Prop :=
  ∀ j < k, mem (s + BitVec.ofNat 32 j) ≠ 0 ∧ Transmitted (statuses j)

lemma passes_succ (hchar : mem s ≠ 0) (hstatus : Transmitted (statuses 0))
    (h : Passes mem (fun j => statuses (j + 1)) (s + 1) k) : Passes mem statuses s (k + 1) := by
  intro j hj
  cases j with
  | zero =>
    rw [BitVec.add_zero]
    exact ⟨hchar, hstatus⟩
  | succ j =>
    have hnext := h j (Nat.lt_of_succ_lt_succ hj)
    rwa [add_one_add] at hnext

/-- Turn `k` finds the end of the string. -/
structure StopsAt (mem : UserMemory) (statuses : ℕ → Word) (s : Addr) (k : ℕ) : Prop where
  passes : Passes mem statuses s k
  stops : mem (s + BitVec.ofNat 32 k) = 0

/-- The character of turn `k` is not transmitted. -/
structure FailsAt (mem : UserMemory) (statuses : ℕ → Word) (s : Addr) (k : ℕ) : Prop where
  passes : Passes mem statuses s k
  goes : mem (s + BitVec.ofNat 32 k) ≠ 0
  fails : ¬ Transmitted (statuses k)

lemma setWidth_eq_eos {c : BitVec 8} : c.setWidth 32 = eos ↔ c = 0 := by
  constructor
  · intro h
    apply BitVec.eq_of_toNat_eq
    have hnat := congrArg BitVec.toNat h
    rwa [BitVec.toNat_setWidth_of_le (by omega)] at hnat
  · intro h
    rw [h]
    rfl

lemma Print.performs_cases (h : pr.performs mem statuses fuel = some (acts, e)) :
    (∃ k, StopsAt mem statuses pr.s k ∧
        acts = sends mem k pr.s ++ [.read (pr.s + BitVec.ofNat 32 k), .verhogen] ∧
        e = .reloaded (pr.syscallOld.setV0 (pr.i + BitVec.ofNat 32 k))) ∨
      ∃ k, FailsAt mem statuses pr.s k ∧ acts = sends mem (k + 1) pr.s ++ [.verhogen] ∧
        e = .reloaded (pr.syscallOld.setV0 (-statuses k)) := by
  induction fuel generalizing pr statuses acts with
  | zero => cases h
  | succ fuel ih =>
    unfold performs at h
    split_ifs at h with heos hstatus
    · obtain ⟨rfl, rfl⟩ := Prod.mk.inj (Option.some.inj h)
      refine .inl ⟨0, ⟨fun j hj => absurd hj (Nat.not_lt_zero j), ?_⟩, ?_, ?_⟩
      · rw [BitVec.add_zero]
        exact setWidth_eq_eos.mp heos
      · rw [BitVec.add_zero]
        rfl
      · rw [BitVec.add_zero]
        rfl
    · have hchar : mem pr.s ≠ 0 := fun hc => heos (setWidth_eq_eos.mpr hc)
      obtain ⟨⟨acts', e'⟩, hrest, heq⟩ := Option.map_eq_some_iff.mp h
      obtain ⟨rfl, rfl⟩ := Prod.mk.inj heq
      rcases ih hrest with ⟨k, hk, rfl, rfl⟩ | ⟨k, hk, rfl, rfl⟩
      · refine .inl ⟨k + 1, ⟨passes_succ hchar hstatus hk.passes, ?_⟩, ?_, ?_⟩
        · rw [← add_one_add]
          exact hk.stops
        · rw [← add_one_add]
          rfl
        · rw [← add_one_add]
          rfl
      · refine .inr ⟨k + 1, ⟨passes_succ hchar hstatus hk.passes, ?_, hk.fails⟩, rfl, rfl⟩
        rw [← add_one_add]
        exact hk.goes
    · obtain ⟨rfl, rfl⟩ := Prod.mk.inj (Option.some.inj h)
      refine .inr ⟨0, ⟨fun j hj => absurd hj (Nat.not_lt_zero j), ?_, hstatus⟩, rfl, rfl⟩
      rw [BitVec.add_zero]
      exact fun hc => heos (setWidth_eq_eos.mpr hc)

lemma Print.performs_fails (h : FailsAt mem statuses pr.s k) :
    pr.performs mem statuses (k + 1) =
      some (sends mem (k + 1) pr.s ++ [.verhogen],
        .reloaded (pr.syscallOld.setV0 (-statuses k))) := by
  induction k generalizing pr statuses with
  | zero =>
    have hgoes := h.goes
    rw [BitVec.add_zero] at hgoes
    unfold performs
    rw [if_neg (fun he => hgoes (setWidth_eq_eos.mp he)), if_neg h.fails]
    rfl
  | succ k ih =>
    have hgoes := (h.passes 0 (Nat.succ_pos k)).1
    rw [BitVec.add_zero] at hgoes
    have hnext : FailsAt mem (fun j => statuses (j + 1)) pr.next.s k := by
      refine ⟨fun j hj => ?_, ?_, h.fails⟩
      · have hpass := h.passes (j + 1) (Nat.succ_lt_succ hj)
        rwa [← add_one_add] at hpass
      · have hlast := h.goes
        rwa [← add_one_add] at hlast
    unfold performs
    rw [if_neg (fun he => hgoes (setWidth_eq_eos.mp he)),
      if_pos (h.passes 0 (Nat.succ_pos k)).2, ih hnext]
    rfl

lemma Print.performs_stops (h : StopsAt mem statuses pr.s k) :
    pr.performs mem statuses (k + 1) =
      some (sends mem k pr.s ++ [.read (pr.s + BitVec.ofNat 32 k), .verhogen],
        .reloaded (pr.syscallOld.setV0 (pr.i + BitVec.ofNat 32 k))) := by
  induction k generalizing pr statuses with
  | zero =>
    have hstops := h.stops
    rw [BitVec.add_zero] at hstops
    unfold performs
    rw [if_pos (setWidth_eq_eos.mpr hstops), BitVec.add_zero, BitVec.add_zero]
    rfl
  | succ k ih =>
    have hgoes := (h.passes 0 (Nat.succ_pos k)).1
    rw [BitVec.add_zero] at hgoes
    have hnext : StopsAt mem (fun j => statuses (j + 1)) pr.next.s k := by
      refine ⟨fun j hj => ?_, ?_⟩
      · have hpass := h.passes (j + 1) (Nat.succ_lt_succ hj)
        rwa [← add_one_add] at hpass
      · have hlast := h.stops
        rwa [← add_one_add] at hlast
    unfold performs
    rw [if_neg (fun he => hgoes (setWidth_eq_eos.mp he)),
      if_pos (h.passes 0 (Nat.succ_pos k)).2, ih hnext, ← add_one_add, ← add_one_add]
    rfl

/-! ### What is asked of the loop -/

lemma transmitted_append (acts acts' : List Act) :
    transmitted (acts ++ acts') = transmitted acts ++ transmitted acts' :=
  List.filterMap_append

lemma length_charsAt (mem : UserMemory) (addr : Addr) (k : ℕ) :
    (charsAt mem addr k).length = k := by
  unfold charsAt
  rw [List.length_map, List.length_range]

lemma charsAt_inj {addr : Addr} {k' : ℕ} (h : charsAt mem addr k = charsAt mem addr k') :
    k = k' := by
  have hlength := congrArg List.length h
  rwa [length_charsAt, length_charsAt] at hlength

lemma add_sub_toNat {addr : Addr} (hk : k < 2 ^ 32) :
    (addr + BitVec.ofNat 32 k - addr).toNat = k := by
  rw [BitVec.add_comm, BitVec.add_sub_cancel, BitVec.toNat_ofNat]
  exact Nat.mod_eq_of_lt hk

lemma lt_of_reads {addr : Addr} {length : Word}
    (hreads : ∀ j ≤ k, (addr + BitVec.ofNat 32 j - addr).toNat < length.toNat) :
    k < length.toNat := by
  have hbound := length.isLt
  by_contra hle
  have hlast := hreads length.toNat (Nat.le_of_not_lt hle)
  rw [add_sub_toNat hbound] at hlast
  exact absurd hlast (Nat.lt_irrefl _)

lemma userSyscallHandler_writes (h10 : old.sA0 = writeToTerminalNum)
    (haddr : legalAddrStart ≤ old.sA1) (hlength : 0 ≤ old.sA2.toInt) :
    userSyscallHandler old = .writes ⟨old.advancePc, old.sA1, 0⟩ := by
  have ha0 : old.advancePc.sA0 = writeToTerminalNum := h10
  have hbad : ¬ (old.advancePc.sA1 < legalAddrStart ∨ old.advancePc.sA2.toInt < 0) := by
    rintro (hlt | hneg)
    · exact absurd hlt (BitVec.not_lt.mpr haddr)
    · exact absurd hneg (Int.not_lt.mpr hlength)
  have h9 : writeToTerminalNum ≠ readFromTerminalNum := by decide
  unfold userSyscallHandler
  dsimp only
  rw [ha0, if_neg h9, if_pos rfl, if_neg hbad]
  rfl

lemma transmitted_stops : transmitted (.passeren ::
    (sends mem k s ++ [.read (s + BitVec.ofNat 32 k), .verhogen])) = charsAt mem s k := by
  change transmitted (_ ++ [_, _]) = _
  rw [transmitted_append, transmitted_sends]
  exact List.append_nil _

lemma transmitted_fails :
    transmitted (.passeren :: (sends mem k s ++ [.verhogen])) = charsAt mem s k := by
  change transmitted (_ ++ [_]) = _
  rw [transmitted_append, transmitted_sends]
  exact List.append_nil _

lemma StopsAt.sent_iff (h : StopsAt mem statuses old.sA1 k) : Sent mem statuses old
    (.passeren :: (sends mem k old.sA1 ++ [.read (old.sA1 + BitVec.ofNat 32 k), .verhogen]))
      (.reloaded (old.advancePc.setV0 (0 + BitVec.ofNat 32 k))) ↔ k = old.sA2.toNat := by
  unfold Sent
  rw [transmitted_stops]
  constructor
  · rintro (⟨hall, -, -⟩ | ⟨i, -, hpart, -, hfails, -⟩)
    · exact charsAt_inj hall
    · have heq := charsAt_inj hpart
      exact absurd (h.passes i (by omega)).2 hfails
  · rintro rfl
    have hvalue : 0 + BitVec.ofNat 32 old.sA2.toNat = old.sA2 := by
      rw [BitVec.ofNat_toNat, BitVec.setWidth_eq]
      exact BitVec.zero_add _
    refine .inl ⟨rfl, fun j hj => (h.passes j hj).2, ?_⟩
    rw [hvalue]

lemma FailsAt.sent_iff (h : FailsAt mem statuses old.sA1 k) :
    Sent mem statuses old (.passeren :: (sends mem (k + 1) old.sA1 ++ [.verhogen]))
      (.reloaded (old.advancePc.setV0 (-statuses k))) ↔ k < old.sA2.toNat := by
  unfold Sent
  rw [transmitted_fails]
  constructor
  · rintro (⟨hall, hstatus, -⟩ | ⟨i, hi, hpart, -, -, -⟩)
    · have heq := charsAt_inj hall
      omega
    · have heq := charsAt_inj hpart
      omega
  · intro hk
    exact .inr ⟨k, hk, rfl, fun j hj => (h.passes j hj).2, h.fails, rfl⟩

lemma FailsAt.honours (h : FailsAt mem statuses old.sA1 k) (hk : k < old.sA2.toNat) :
    Honours mem statuses old (.passeren :: (sends mem (k + 1) old.sA1 ++ [.verhogen]))
      (.reloaded (old.advancePc.setV0 (-statuses k))) := by
  have hbound := old.sA2.isLt
  refine ⟨h.sent_iff.mpr hk, ?_, ?_⟩
  · intro va hva
    simp only [List.mem_cons, List.mem_append, List.not_mem_nil, reduceCtorEq, or_false,
      false_or] at hva
    obtain ⟨j, hj, hread | hsend⟩ := mem_sends hva
    · obtain rfl := Act.read.inj hread
      rw [add_sub_toNat (by omega)]
      omega
    · cases hsend
  · refine ⟨sends mem (k + 1) old.sA1, rfl, fun hp => ?_, fun hv => ?_⟩
    · obtain ⟨_, _, hact | hact⟩ := mem_sends hp <;> cases hact
    · obtain ⟨_, _, hact | hact⟩ := mem_sends hv <;> cases hact

lemma StopsAt.not_honours (h : StopsAt mem statuses old.sA1 k) : ¬ Honours mem statuses old
    (.passeren :: (sends mem k old.sA1 ++ [.read (old.sA1 + BitVec.ofNat 32 k), .verhogen]))
      (.reloaded (old.advancePc.setV0 (0 + BitVec.ofNat 32 k))) := by
  intro hh
  have hend := h.sent_iff.mp hh.sent
  have hk : k < old.sA2.toNat := by
    apply lt_of_reads
    intro j hj
    apply hh.reads
    apply List.mem_cons_of_mem
    rcases Nat.lt_or_eq_of_le hj with hlt | rfl
    · exact List.mem_append_left _ (read_mem_sends hlt)
    · exact List.mem_append_right _ List.mem_cons_self
  omega

section call

variable (h10 : old.sA0 = writeToTerminalNum) (haddr : legalAddrStart ≤ old.sA1)
  (hlength : 0 ≤ old.sA2.toInt)

include h10 haddr hlength

/-- What SYS10 does, if it comes to an end. -/
lemma performs_cases (h : (userSyscallHandler old).performs mem statuses fuel = some (acts, e)) :
    (∃ k, StopsAt mem statuses old.sA1 k ∧ acts = .passeren ::
        (sends mem k old.sA1 ++ [.read (old.sA1 + BitVec.ofNat 32 k), .verhogen]) ∧
        e = .reloaded (old.advancePc.setV0 (0 + BitVec.ofNat 32 k))) ∨
      ∃ k, FailsAt mem statuses old.sA1 k ∧
        acts = .passeren :: (sends mem (k + 1) old.sA1 ++ [.verhogen]) ∧
        e = .reloaded (old.advancePc.setV0 (-statuses k)) := by
  rw [userSyscallHandler_writes h10 haddr hlength] at h
  obtain ⟨⟨acts', e'⟩, hloop, heq⟩ := Option.map_eq_some_iff.mp h
  obtain ⟨rfl, rfl⟩ := Prod.mk.inj heq
  rcases Print.performs_cases hloop with ⟨k, hk, rfl, rfl⟩ | ⟨k, hk, rfl, rfl⟩
  · exact .inl ⟨k, hk, rfl, rfl⟩
  · exact .inr ⟨k, hk, rfl, rfl⟩

lemma performs_stops (h : StopsAt mem statuses old.sA1 k) :
    (userSyscallHandler old).performs mem statuses (k + 1) = some (.passeren ::
      (sends mem k old.sA1 ++ [.read (old.sA1 + BitVec.ofNat 32 k), .verhogen]),
      .reloaded (old.advancePc.setV0 (0 + BitVec.ofNat 32 k))) := by
  rw [userSyscallHandler_writes h10 haddr hlength]
  have hloop : Print.performs mem statuses (k + 1) ⟨old.advancePc, old.sA1, 0⟩ = some _ :=
    Print.performs_stops h
  change Option.map _ (Print.performs mem statuses (k + 1) ⟨old.advancePc, old.sA1, 0⟩) = _
  rw [hloop]
  rfl

lemma performs_fails (h : FailsAt mem statuses old.sA1 k) :
    (userSyscallHandler old).performs mem statuses (k + 1) =
      some (.passeren :: (sends mem (k + 1) old.sA1 ++ [.verhogen]),
        .reloaded (old.advancePc.setV0 (-statuses k))) := by
  rw [userSyscallHandler_writes h10 haddr hlength]
  have hloop : Print.performs mem statuses (k + 1) ⟨old.advancePc, old.sA1, 0⟩ = some _ :=
    Print.performs_fails h
  change Option.map _ (Print.performs mem statuses (k + 1) ⟨old.advancePc, old.sA1, 0⟩) = _
  rw [hloop]
  rfl

lemma performs_honours_iff :
    (∃ fuel acts e, (userSyscallHandler old).performs mem statuses fuel = some (acts, e) ∧
        Honours mem statuses old acts e) ↔
      ∃ i < old.sA2.toNat, FailsAt mem statuses old.sA1 i := by
  constructor
  · rintro ⟨fuel, acts, e, hperforms, hh⟩
    rcases performs_cases h10 haddr hlength hperforms with ⟨k, hk, rfl, rfl⟩ | ⟨k, hk, rfl, rfl⟩
    · exact absurd hh hk.not_honours
    · exact ⟨k, hk.sent_iff.mp hh.sent, hk⟩
  · rintro ⟨i, hi, hfails⟩
    exact ⟨i + 1, _, _, performs_fails h10 haddr hlength hfails, hfails.honours hi⟩

/-- Apart from what is read, SYS10 sends a string of the given length also if its end is the first
zero byte and all its characters are transmitted. -/
theorem writeToTerminal_sends_iff :
    (∃ fuel acts e, (userSyscallHandler old).performs mem statuses fuel = some (acts, e) ∧
        Sent mem statuses old acts e) ↔
      (∃ i < old.sA2.toNat, FailsAt mem statuses old.sA1 i) ∨
        StopsAt mem statuses old.sA1 old.sA2.toNat := by
  constructor
  · rintro ⟨fuel, acts, e, hperforms, hsent⟩
    rcases performs_cases h10 haddr hlength hperforms with ⟨k, hk, rfl, rfl⟩ | ⟨k, hk, rfl, rfl⟩
    · exact .inr (hk.sent_iff.mp hsent ▸ hk)
    · exact .inl ⟨k, hk.sent_iff.mp hsent, hk⟩
  · rintro (⟨i, hi, hfails⟩ | hstops)
    · exact ⟨i + 1, _, _, performs_fails h10 haddr hlength hfails, hfails.sent_iff.mpr hi⟩
    · exact ⟨_, _, _, performs_stops h10 haddr hlength hstops, hstops.sent_iff.mpr rfl⟩

end call

/-- With a legal address and length, SYS10 honours the length if and only if a transmission within
the string fails and there is no zero byte up to its character. -/
theorem writeToTerminal_honours_iff (mem : UserMemory) (statuses : ℕ → Word) (old : State)
    (h10 : old.sA0 = writeToTerminalNum) (haddr : legalAddrStart ≤ old.sA1)
    (hlength : 0 ≤ old.sA2.toInt) :
    (∃ fuel acts e, (userSyscallHandler old).performs mem statuses fuel = some (acts, e) ∧
        Honours mem statuses old acts e) ↔
      ∃ i < old.sA2.toNat, (∀ j < i, Transmitted (statuses j)) ∧ ¬ Transmitted (statuses i) ∧
        ∀ j ≤ i, mem (old.sA1 + BitVec.ofNat 32 j) ≠ 0 := by
  rw [performs_honours_iff h10 haddr hlength]
  apply exists_congr
  intro i
  apply and_congr_right
  intro _
  constructor
  · intro h
    refine ⟨fun j hj => (h.passes j hj).2, h.fails, fun j hj => ?_⟩
    rcases Nat.lt_or_eq_of_le hj with hlt | rfl
    · exact (h.passes j hlt).1
    · exact h.goes
  · rintro ⟨hstatus, hfails, hchars⟩
    exact ⟨fun j hj => ⟨hchars j (Nat.le_of_lt hj), hstatus j hj⟩, hchars i le_rfl, hfails⟩

/-- SYS10 with a string at the start of kuseg2. -/
def writeCall (length : Word) : State where
  sAsid := 0
  sCause := 0
  sStatus := 0
  sPc := 0
  sReg := fun r => if r = 3 then 10 else if r = 4 then 0x80000000 else if r = 5 then length else 0

/-- Five different characters and the end. -/
def letters : UserMemory := fun va => if va < 0x80000005 then 0x61 + va.setWidth 8 else 0

/-- The third transmission fails. -/
theorem writeToTerminal_honours_failed : ∃ fuel acts e,
    (userSyscallHandler (writeCall 5)).performs letters (fun j => if j < 2 then 5 else 4) fuel =
        some (acts, e) ∧
      Honours letters (fun j => if j < 2 then 5 else 4) (writeCall 5) acts e :=
  (writeToTerminal_honours_iff _ _ _ (by decide) (by decide) (by decide)).mpr
    ⟨2, by decide, by decide, by decide, by decide⟩

/-- Of a string of two characters, both are sent although the length is one. -/
theorem writeToTerminal_ignores_length : ¬ ∃ fuel acts e,
    (userSyscallHandler (writeCall 1)).performs
        (fun va => if va < 0x80000002 then 97 else 0) (fun _ => 5) fuel = some (acts, e) ∧
      Honours (fun va => if va < 0x80000002 then 97 else 0) (fun _ => 5) (writeCall 1) acts e := by
  rw [performs_honours_iff (by decide) (by decide) (by decide)]
  rintro ⟨i, -, hfails⟩
  exact hfails.fails (by decide)

end Kaya.Support
