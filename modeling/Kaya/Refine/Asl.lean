import Kaya.Asl
import Kaya.Lib.Chain
import Kaya.Refine.Queue

/-!
# The active semaphore list as a map from addresses to queues

`AslLayout` says which descriptors are the dummies, the active and the free ones and that
the active ones hold the queues of a map from semaphore addresses to lists of PCBs. The
functions of `asl.c` are described by what they do to that map.
-/

namespace Kaya

open Function Linked

/-- Dummies `d1` and `d2`, active descriptors `ds` in order and free descriptors `fs`, for
the map `blocked` from semaphore addresses to the PCBs blocked there. -/
structure AslLayout (t : ProcTable) (s : SemdTable) (d1 d2 : SemdIx) (ds fs : List SemdIx)
    (blocked : Addr → List PcbIx) : Prop where
  head : s.semdH = some d1
  path : IsPath s.sNext (d1 :: (ds ++ [d2]))
  last : s.sNext d2 = none
  front : s.sSemAdd d1 = 0
  back : s.sSemAdd d2 = null
  sorted : ds.Pairwise fun d e => s.sSemAdd d < s.sSemAdd e
  ne_null : ∀ d ∈ ds, s.sSemAdd d ≠ null
  queue : ∀ d ∈ ds, IsQueue t (s.sProcQ d) (blocked (s.sSemAdd d))
  nonempty : ∀ d ∈ ds, blocked (s.sSemAdd d) ≠ []
  active : ∀ a, blocked a ≠ [] → ∃ d ∈ ds, s.sSemAdd d = a
  disjoint : ∀ a b, a ≠ b → (blocked a).Disjoint (blocked b)
  semAdd : ∀ a, ∀ p ∈ blocked a, t.pSemAdd p = a
  free : IsStack s.sNext s.semdFreeH fs
  nodup : (d1 :: d2 :: (ds ++ fs)).Nodup
  all : ∀ d, d ∈ d1 :: d2 :: (ds ++ fs)

/-- The descriptor tables denote the map `blocked`. -/
def IsAsl (t : ProcTable) (s : SemdTable) (blocked : Addr → List PcbIx) : Prop :=
  ∃ d1 d2 ds fs, AslLayout t s d1 d2 ds fs blocked

lemma addr_le_null (a : Addr) : a ≤ null := by
  have ha : a.toNat < 2 ^ 32 := a.isLt
  change a.toNat ≤ null.toNat
  have hn : null.toNat = 2 ^ 32 - 1 := rfl
  omega

lemma exists_split (key : SemdIx → Addr) (a : Addr) {ds : List SemdIx}
    (h : ds.Pairwise fun d e => key d < key e) :
    ∃ l₁ l₂, ds = l₁ ++ l₂ ∧ (∀ d ∈ l₁, key d < a) ∧ ∀ d ∈ l₂, a ≤ key d := by
  induction ds with
  | nil => exact ⟨[], [], rfl, by simp, by simp⟩
  | cons d ds ih =>
    obtain ⟨hd, hds⟩ := List.pairwise_cons.mp h
    by_cases hda : key d < a
    · obtain ⟨l₁, l₂, rfl, h₁, h₂⟩ := ih hds
      exact ⟨d :: l₁, l₂, rfl, by simpa using ⟨hda, h₁⟩, h₂⟩
    · refine ⟨[], d :: ds, rfl, by simp, fun e he => ?_⟩
      have hle : a ≤ key d := BitVec.not_lt.mp hda
      rcases List.mem_cons.mp he with rfl | he
      · exact hle
      · have hlt := hd e he
        bv_omega

lemma searchASLLoop_spec {s : SemdTable} {a : Addr} {l : List SemdIx} {x y : SemdIx}
    {r : List SemdIx} {fuel : Nat} (h : IsPath s.sNext (x :: (l ++ y :: r)))
    (hl : ∀ d ∈ l, s.sSemAdd d < a) (hy : ¬ s.sSemAdd y < a) (hf : l.length < fuel) :
    searchASLLoop a s fuel x = (x :: l).getLast? := by
  induction l generalizing x fuel with
  | nil =>
    obtain ⟨n, rfl⟩ := Nat.exists_eq_add_one_of_ne_zero (Nat.ne_of_gt hf)
    have hxy : s.sNext x = some y := (List.isChain_cons_cons.mp h).1
    simp [searchASLLoop, hxy, hy]
  | cons z l ih =>
    obtain ⟨n, rfl⟩ := Nat.exists_eq_add_one_of_ne_zero (Nat.ne_of_gt (Nat.zero_lt_of_lt hf))
    obtain ⟨hxz, hz⟩ := List.isChain_cons_cons.mp h
    have hza : s.sSemAdd z < a := hl z (by simp)
    have hi := ih hz (fun d hd => hl d (by simp [hd])) (by simpa using hf)
    simp only [searchASLLoop, hxz, Option.bind_eq_bind, Option.bind_some, hza, if_true, hi,
      List.getLast?_cons_cons]

section Layout

variable {t : ProcTable} {s : SemdTable} {d1 d2 : SemdIx} {ds fs : List SemdIx}
  {blocked : Addr → List PcbIx}

lemma AslLayout.length_add (h : AslLayout t s d1 d2 ds fs blocked) :
    ds.length + fs.length = maxProc := by
  have huniv : (d1 :: d2 :: (ds ++ fs)).toFinset = Finset.univ := by
    ext d
    simpa using h.all d
  have hcard := List.toFinset_card_of_nodup h.nodup
  rw [huniv] at hcard
  simp only [Finset.card_univ, Fintype.card_fin, List.length_cons, List.length_append] at hcard
  omega

lemma AslLayout.length_le (h : AslLayout t s d1 d2 ds fs blocked) : ds.length ≤ maxProc := by
  have hlen := h.length_add
  omega

lemma AslLayout.path_nodup (h : AslLayout t s d1 d2 ds fs blocked) :
    (d1 :: (ds ++ [d2])).Nodup := by
  have hsub : (d1 :: d2 :: ds).Nodup :=
    h.nodup.sublist (((List.sublist_append_left ds fs).cons_cons d2).cons_cons d1)
  refine (List.Perm.nodup_iff (List.Perm.cons d1 ?_)).mp hsub
  exact @List.perm_append_comm _ [d2] ds

lemma AslLayout.search (h : AslLayout t s d1 d2 ds fs blocked) (a : Addr) :
    ∃ l₁ l₂ k temp next r, ds = l₁ ++ l₂ ∧ d1 :: l₁ = k ++ [temp] ∧ l₂ ++ [d2] = next :: r ∧
      searchASL a s = some temp ∧ s.sNext temp = some next ∧
      (∀ d ∈ l₁, s.sSemAdd d < a) ∧ ∀ d ∈ l₂, a ≤ s.sSemAdd d := by
  obtain ⟨l₁, l₂, hds, h₁, h₂⟩ := exists_split s.sSemAdd a h.sorted
  obtain ⟨y, r, hr⟩ : ∃ y r, l₂ ++ [d2] = y :: r := by
    cases l₂ with
    | nil => exact ⟨d2, [], rfl⟩
    | cons y l₂ => exact ⟨y, l₂ ++ [d2], rfl⟩
  obtain ⟨k, temp, hk⟩ : ∃ k temp, d1 :: l₁ = k ++ [temp] :=
    ⟨(d1 :: l₁).dropLast, (d1 :: l₁).getLast (by simp), (List.dropLast_append_getLast _).symm⟩
  have hp : IsPath s.sNext (d1 :: (l₁ ++ y :: r)) := by
    have hp := h.path
    rwa [hds, List.append_assoc, hr] at hp
  have hnext : s.sNext temp = some y := by
    rw [← List.cons_append, hk, List.append_assoc, List.singleton_append] at hp
    exact hp.next_eq
  have hya : ¬ s.sSemAdd y < a := by
    have hy : y ∈ l₂ ++ [d2] := by simp [hr]
    rcases List.mem_append.mp hy with hy | hy
    · exact BitVec.not_lt.mpr (h₂ y hy)
    · rw [List.mem_singleton.mp hy, h.back]
      exact BitVec.not_lt.mpr (addr_le_null a)
  have hlen : l₁.length < maxProc + 2 := by
    have hle := h.length_le
    rw [hds, List.length_append] at hle
    omega
  have hsearch : searchASL a s = some temp := by
    simp only [searchASL, h.head, Option.bind_eq_bind, Option.bind_some]
    rw [searchASLLoop_spec hp h₁ hya hlen, hk, List.getLast?_concat]
  exact ⟨l₁, l₂, k, temp, y, r, hds, hk, hr, hsearch, hnext, h₁, h₂⟩

/-- The search for an active address stops in front of its descriptor. -/
lemma AslLayout.search_hit (h : AslLayout t s d1 d2 ds fs blocked) {a : Addr}
    (ha : blocked a ≠ []) :
    ∃ l₁ d l₂ k temp, ds = l₁ ++ d :: l₂ ∧ d1 :: l₁ = k ++ [temp] ∧ s.sSemAdd d = a ∧
      searchASL a s = some temp ∧ s.sNext temp = some d := by
  obtain ⟨l₁, l₂, k, temp, next, r, hds, hk, hr, hsearch, hnext, h₁, h₂⟩ := h.search a
  obtain ⟨e, he, hea⟩ := h.active a ha
  have hsorted := h.sorted
  rw [hds] at he hsorted
  have hel : e ∈ l₂ := by
    rcases List.mem_append.mp he with he | he
    · have hlt := h₁ e he
      bv_omega
    · exact he
  cases l₂ with
  | nil => simp at hel
  | cons d l₂ =>
    obtain ⟨rfl, -⟩ := List.cons.inj hr
    have hda : s.sSemAdd d = a := by
      rcases List.mem_cons.mp hel with rfl | hel
      · exact hea
      · have hlt := (List.pairwise_cons.mp (List.pairwise_append.mp hsorted).2.1).1 e hel
        have hle := h₂ d (by simp)
        bv_omega
    exact ⟨l₁, d, l₂, k, temp, hds, hk, hda, hsearch, hnext⟩

/-- The search for an inactive address stops where its descriptor would be. -/
lemma AslLayout.search_miss (h : AslLayout t s d1 d2 ds fs blocked) {a : Addr} (hn : a ≠ null)
    (ha : blocked a = []) :
    ∃ l₁ l₂ k temp next r, ds = l₁ ++ l₂ ∧ d1 :: l₁ = k ++ [temp] ∧ l₂ ++ [d2] = next :: r ∧
      searchASL a s = some temp ∧ s.sNext temp = some next ∧ s.sSemAdd next ≠ a ∧
      (∀ d ∈ l₁, s.sSemAdd d < a) ∧ ∀ d ∈ l₂, a < s.sSemAdd d := by
  obtain ⟨l₁, l₂, k, temp, next, r, hds, hk, hr, hsearch, hnext, h₁, h₂⟩ := h.search a
  have hne : ∀ d ∈ ds, s.sSemAdd d ≠ a := by
    rintro d hd rfl
    exact h.nonempty d hd ha
  have hnexta : s.sSemAdd next ≠ a := by
    have hm : next ∈ l₂ ++ [d2] := by simp [hr]
    rcases List.mem_append.mp hm with hm | hm
    · exact hne next (by simp [hds, hm])
    · rw [List.mem_singleton.mp hm, h.back]
      exact Ne.symm hn
  refine ⟨l₁, l₂, k, temp, next, r, hds, hk, hr, hsearch, hnext, hnexta, h₁, fun d hd => ?_⟩
  have hle := h₂ d hd
  have hda := hne d (by simp [hds, hd])
  bv_omega

lemma AslLayout.sSemAdd_inj (h : AslLayout t s d1 d2 ds fs blocked) {d e : SemdIx}
    (hd : d ∈ ds) (he : e ∈ ds) (hde : s.sSemAdd d = s.sSemAdd e) : d = e := by
  have hnd : (ds.map s.sSemAdd).Nodup := by
    refine List.pairwise_map.mpr (h.sorted.imp fun hlt => ?_)
    bv_omega
  exact List.inj_on_of_nodup_map hnd hd he hde

lemma AslLayout.exists_free (h : AslLayout t s d1 d2 ds fs blocked) {p : PcbIx}
    (hp : ∀ a, p ∉ blocked a) : ∃ n fs', fs = n :: fs' := by
  have hhead : ∀ d ∈ ds, ∃ q, q ∈ blocked (s.sSemAdd d) := fun d hd =>
    List.exists_mem_of_ne_nil _ (h.nonempty d hd)
  choose! first hfirst using hhead
  have hinj : ∀ d ∈ ds, ∀ e ∈ ds, first d = first e → d = e := by
    intro d hd e he hf
    by_contra hne
    have hkey : s.sSemAdd d ≠ s.sSemAdd e := fun hde => hne (h.sSemAdd_inj hd he hde)
    exact h.disjoint _ _ hkey (hfirst d hd) (hf ▸ hfirst e he)
  have hds : ds.Nodup := h.nodup.sublist (((List.sublist_append_left ds fs).cons d2).cons d1)
  have hnd : (p :: ds.map first).Nodup := by
    refine List.nodup_cons.mpr ⟨fun hm => ?_, (List.nodup_map_iff_inj_on hds).mpr hinj⟩
    obtain ⟨d, hd, rfl⟩ := List.mem_map.mp hm
    exact hp _ (hfirst d hd)
  have hlen : ds.length + 1 ≤ maxProc := by
    simpa using hnd.length_le_card
  cases fs with
  | cons n fs' => exact ⟨n, fs', rfl⟩
  | nil =>
    have hall : ds.length + 0 = maxProc := h.length_add
    omega

lemma AslLayout.frame (h : AslLayout t s d1 d2 ds fs blocked) {a : Addr} {l : List PcbIx}
    {next prev : PcbIx → PcbPtr} (ho : LinksOff l t next prev)
    (hl : ∀ b, b ≠ a → (blocked b).Disjoint l) :
    ∀ e ∈ ds, s.sSemAdd e ≠ a → IsQueue (t.withLinks next prev) (s.sProcQ e)
      (blocked (s.sSemAdd e)) :=
  fun e he hea => (h.queue e he).frame ho (hl _ hea)

lemma AslLayout.setQueue (h : AslLayout t s d1 d2 ds fs blocked) {t' : ProcTable} {d : SemdIx}
    {q : PcbPtr} {m : List PcbIx} (hd : d ∈ ds) (hq : IsQueue t' q m) (hm : m ≠ [])
    (ho : ∀ e ∈ ds, s.sSemAdd e ≠ s.sSemAdd d →
      IsQueue t' (s.sProcQ e) (blocked (s.sSemAdd e)))
    (hdis : ∀ b, b ≠ s.sSemAdd d → (blocked b).Disjoint m)
    (hsem : ∀ b, ∀ p ∈ update blocked (s.sSemAdd d) m b, t'.pSemAdd p = b) :
    AslLayout t' { s with sProcQ := update s.sProcQ d q } d1 d2 ds fs
      (update blocked (s.sSemAdd d) m) := by
  have hne : ∀ e ∈ ds, e ≠ d → s.sSemAdd e ≠ s.sSemAdd d := fun e he hed hk =>
    hed (h.sSemAdd_inj he hd hk)
  refine ⟨h.head, h.path, h.last, h.front, h.back, h.sorted, h.ne_null, ?_, ?_, ?_, ?_, hsem,
    h.free, h.nodup, h.all⟩
  · intro e he
    by_cases hed : e = d
    · subst hed
      simpa using hq
    · simpa [hed, hne e he hed] using ho e he (hne e he hed)
  · intro e he
    by_cases hed : e = d
    · subst hed
      simpa using hm
    · simpa [hne e he hed] using h.nonempty e he
  · intro b hb
    by_cases hbd : b = s.sSemAdd d
    · exact ⟨d, hd, hbd.symm⟩
    · exact h.active b (by simpa [hbd] using hb)
  · intro b c hbc
    by_cases hbd : b = s.sSemAdd d
    · have hcd : c ≠ s.sSemAdd d := fun hc => hbc (hbd.trans hc.symm)
      simpa [hbd, hcd] using (hdis c hcd).symm
    · by_cases hcd : c = s.sSemAdd d
      · simpa [hbd, hcd] using hdis b hbd
      · simpa [hbd, hcd] using h.disjoint b c hbc

/-- A descriptor in use and the same one on the free list. -/
lemma descriptors_perm (d1 d2 n : SemdIx) (l₁ l₂ fs : List SemdIx) :
    (d1 :: d2 :: (l₁ ++ n :: l₂ ++ fs)).Perm (d1 :: d2 :: (l₁ ++ l₂ ++ n :: fs)) := by
  have hmove : (n :: (l₂ ++ fs)).Perm (l₂ ++ n :: fs) := List.perm_middle.symm
  simpa using hmove.append_left l₁

lemma AslLayout.retire {l₁ l₂ k : List SemdIx} {d temp : SemdIx}
    (h : AslLayout t s d1 d2 (l₁ ++ d :: l₂) fs blocked) {t' : ProcTable} {q : PcbPtr}
    (hk : d1 :: l₁ = k ++ [temp])
    (ho : ∀ e ∈ l₁ ++ d :: l₂, s.sSemAdd e ≠ s.sSemAdd d →
      IsQueue t' (s.sProcQ e) (blocked (s.sSemAdd e)))
    (hsem : ∀ b, ∀ p ∈ blocked b, t'.pSemAdd p = b) :
    AslLayout t' (freeSemd d { s with
        sProcQ := update s.sProcQ d q, sNext := update s.sNext temp (s.sNext d) })
      d1 d2 (l₁ ++ l₂) (d :: fs) (update blocked (s.sSemAdd d) []) := by
  obtain ⟨y, r, hr⟩ : ∃ y r, l₂ ++ [d2] = y :: r := by
    cases l₂ with
    | nil => exact ⟨d2, [], rfl⟩
    | cons y l₂ => exact ⟨y, l₂ ++ [d2], rfl⟩
  have hlist : ∀ m, d1 :: (l₁ ++ (m ++ (l₂ ++ [d2]))) = k ++ temp :: (m ++ y :: r) := by
    intro m
    rw [hr, ← List.cons_append, hk, List.append_assoc, List.singleton_append]
  have hfull : d1 :: (l₁ ++ d :: l₂ ++ [d2]) = k ++ temp :: d :: y :: r := by
    simpa using hlist [d]
  have hpath := h.path
  have hpnd := h.path_nodup
  rw [hfull] at hpath hpnd
  have hnd := h.nodup
  have htemp : temp ∈ d1 :: l₁ := by simp [hk]
  have hsub : ∀ x, x ∈ fs ∨ x = d2 ∨ x ∈ l₂ ∨ x = d → x ≠ temp := by
    rintro x hx rfl
    simp only [List.nodup_cons, List.nodup_append, List.mem_append, List.mem_cons] at hnd htemp
    grind
  have hdne : ∀ x, x ∈ fs ∨ x = d2 ∨ x ∈ l₁ ∨ x ∈ l₂ ∨ x = d1 → x ≠ d := by
    rintro x hx rfl
    simp only [List.nodup_cons, List.nodup_append, List.mem_append, List.mem_cons] at hnd
    grind
  let next' := update (update s.sNext temp (s.sNext d)) d s.semdFreeH
  have hsame : ∀ z, z ≠ temp → z ≠ d → next' z = s.sNext z := by
    intro z hzt hzd
    simp [next', hzt, hzd]
  have hdtemp : temp ≠ d := Ne.symm (hsub d (by simp))
  have hdy : s.sNext d = some y := by
    have hpath' : IsPath s.sNext ((k ++ [temp]) ++ d :: y :: r) := by simpa using hpath
    exact hpath'.next_eq
  have hsublist : (l₁ ++ l₂).Sublist (l₁ ++ d :: l₂) :=
    (List.sublist_cons_self d l₂).append_left l₁
  have hmem : ∀ e ∈ l₁ ++ l₂, e ∈ l₁ ++ d :: l₂ := fun e he => hsublist.mem he
  have hoff : ∀ e ∈ l₁ ++ l₂, e ≠ d := by
    intro e he
    rcases List.mem_append.mp he with he | he
    · exact hdne e (.inr (.inr (.inl he)))
    · exact hdne e (.inr (.inr (.inr (.inl he))))
  have hkeys : ∀ e ∈ l₁ ++ l₂, s.sSemAdd e ≠ s.sSemAdd d := fun e he hed =>
    hoff e he (h.sSemAdd_inj (hmem e he) (by simp) hed)
  refine ⟨h.head, ?_, ?_, h.front, h.back, ?_, fun e he => h.ne_null e (hmem e he), ?_, ?_, ?_,
    ?_, ?_, ?_, ?_, ?_⟩
  · have hnew : IsPath next' (k ++ temp :: y :: r) := by
      refine hpath.remove hpnd (by simp [next', hdtemp, hdy]) fun z hz => hsame z ?_ ?_
      · rintro rfl
        simp [List.nodup_append, List.nodup_cons] at hpnd
        grind
      · rintro rfl
        simp [List.nodup_append, List.nodup_cons] at hpnd
        grind
    have hshort : d1 :: (l₁ ++ l₂ ++ [d2]) = k ++ temp :: y :: r := by
      simpa using hlist []
    rw [hshort]
    exact hnew
  · exact (hsame d2 (hsub d2 (by simp)) (hdne d2 (by simp))).trans h.last
  · exact h.sorted.sublist hsublist
  · intro e he
    have hed := hoff e he
    simpa [freeSemd, hed, hkeys e he] using ho e (hmem e he) (hkeys e he)
  · intro e he
    simpa [freeSemd, hkeys e he] using h.nonempty e (hmem e he)
  · intro b hb
    have hbd : b ≠ s.sSemAdd d := by
      rintro rfl
      simp at hb
    obtain ⟨e, he, rfl⟩ := h.active b (by simpa [hbd] using hb)
    have hed : e ≠ d := fun hed => hbd (by rw [hed])
    refine ⟨e, ?_, rfl⟩
    simp only [List.mem_append, List.mem_cons] at he ⊢
    tauto
  · intro b c hbc
    by_cases hbd : b = s.sSemAdd d
    · simp [hbd]
    · by_cases hcd : c = s.sSemAdd d
      · simp [hcd]
      · simpa [hbd, hcd] using h.disjoint b c hbc
  · intro b p hp
    by_cases hbd : b = s.sSemAdd d
    · simp [hbd] at hp
    · exact hsem b p (by simpa [hbd] using hp)
  · refine ⟨rfl, ?_⟩
    have hd' : next' d = s.semdFreeH := by simp [next']
    change IsStack next' (next' d) fs
    rw [hd']
    exact h.free.congr fun x hx => hsame x (hsub x (.inl hx)) (hdne x (.inl hx))
  · exact (descriptors_perm d1 d2 d l₁ l₂ fs).nodup_iff.mp hnd
  · exact fun e => (descriptors_perm d1 d2 d l₁ l₂ fs).mem_iff.mp (h.all e)

lemma AslLayout.activate {l₁ l₂ k : List SemdIx} {n temp next : SemdIx} {r : List SemdIx}
    (h : AslLayout t s d1 d2 (l₁ ++ l₂) (n :: fs) blocked) {s' : SemdTable} {t' : ProcTable}
    {a : Addr} {p : PcbIx} (hn : a ≠ null) (ha : blocked a = []) (hp : ∀ b, p ∉ blocked b)
    (hk : d1 :: l₁ = k ++ [temp]) (hr : l₂ ++ [d2] = next :: r)
    (h₁ : ∀ d ∈ l₁, s.sSemAdd d < a) (h₂ : ∀ d ∈ l₂, a < s.sSemAdd d)
    (hhead : s'.semdH = s.semdH) (hfree : s'.semdFreeH = s.sNext n)
    (hnext : s'.sNext n = some next) (htemp : s'.sNext temp = some n)
    (hadd : s'.sSemAdd n = a) (hqueue : IsQueue t' (s'.sProcQ n) [p])
    (hsame : ∀ d, d ≠ n → s'.sSemAdd d = s.sSemAdd d ∧ s'.sProcQ d = s.sProcQ d ∧
      (d ≠ temp → s'.sNext d = s.sNext d))
    (ho : ∀ e ∈ l₁ ++ l₂, IsQueue t' (s.sProcQ e) (blocked (s.sSemAdd e)))
    (hsem : ∀ b, ∀ q ∈ update blocked a [p] b, t'.pSemAdd q = b) :
    AslLayout t' s' d1 d2 (l₁ ++ n :: l₂) fs (update blocked a [p]) := by
  have hlist : ∀ m, d1 :: (l₁ ++ (m ++ (l₂ ++ [d2]))) = k ++ temp :: (m ++ next :: r) := by
    intro m
    rw [hr, ← List.cons_append, hk, List.append_assoc, List.singleton_append]
  have hshort : d1 :: (l₁ ++ l₂ ++ [d2]) = k ++ temp :: next :: r := by
    simpa using hlist []
  have hpath := h.path
  have hpnd := h.path_nodup
  rw [hshort] at hpath hpnd
  have hnd := h.nodup
  have hntop : n ≠ d1 ∧ n ≠ d2 ∧ n ∉ l₁ ∧ n ∉ l₂ ∧ n ∉ fs := by
    simp only [List.nodup_cons, List.nodup_append, List.mem_append, List.mem_cons] at hnd
    grind
  have htmem : temp ∈ d1 :: l₁ := by simp [hk]
  have htne : temp ≠ d2 ∧ temp ∉ fs ∧ temp ≠ n ∧ temp ∉ l₂ := by
    simp only [List.nodup_cons, List.nodup_append, List.mem_append, List.mem_cons] at hnd htmem
    grind
  have hkeys : ∀ e ∈ l₁ ++ l₂, s.sSemAdd e ≠ a := by
    rintro e he rfl
    exact h.nonempty e he ha
  have hlonger : (l₁ ++ l₂).Sublist (l₁ ++ n :: l₂) :=
    (List.sublist_cons_self n l₂).append_left l₁
  have hnot : ∀ e ∈ l₁ ++ l₂, e ≠ n := by
    rintro e he rfl
    exact (List.mem_append.mp he).elim hntop.2.2.1 hntop.2.2.2.1
  have hcase : ∀ e ∈ l₁ ++ n :: l₂, e = n ∨ e ∈ l₁ ++ l₂ := by
    intro e he
    simp only [List.mem_append, List.mem_cons] at he ⊢
    tauto
  refine ⟨hhead.trans h.head, ?_, ?_, ?_, ?_, ?_, ?_, ?_, ?_, ?_, ?_, hsem, ?_, ?_, ?_⟩
  · have hlong : d1 :: (l₁ ++ n :: l₂ ++ [d2]) = k ++ temp :: n :: next :: r := by
      simpa using hlist [n]
    rw [hlong]
    refine hpath.insert hpnd htemp hnext fun z hz => (hsame z ?_).2.2 ?_
    · rintro rfl
      have hz' : z ∈ d1 :: (l₁ ++ l₂ ++ [d2]) := by
        rw [hshort]
        simp only [List.mem_append, List.mem_cons] at hz ⊢
        tauto
      simp only [List.mem_cons, List.mem_append, List.not_mem_nil, or_false] at hz'
      tauto
    · rintro rfl
      simp [List.nodup_append, List.nodup_cons] at hpnd
      grind
  · exact ((hsame d2 hntop.2.1.symm).2.2 htne.1.symm).trans h.last
  · exact (hsame d1 hntop.1.symm).1.trans h.front
  · exact (hsame d2 hntop.2.1.symm).1.trans h.back
  · have hsort := h.sorted
    rw [List.pairwise_append] at hsort ⊢
    obtain ⟨hs₁, hs₂, hs₁₂⟩ := hsort
    have hkey : ∀ e ∈ l₁ ++ l₂, s'.sSemAdd e = s.sSemAdd e := fun e he => (hsame e (hnot e he)).1
    refine ⟨hs₁.imp_of_mem fun hx hy hxy => ?_, List.pairwise_cons.mpr ⟨fun e he => ?_, ?_⟩, ?_⟩
    · rwa [hkey _ (by simp [hx]), hkey _ (by simp [hy])]
    · rw [hadd, hkey e (by simp [he])]
      exact h₂ e he
    · refine hs₂.imp_of_mem fun hx hy hxy => ?_
      rwa [hkey _ (by simp [hx]), hkey _ (by simp [hy])]
    · intro d hd e he
      rw [hkey d (by simp [hd])]
      rcases List.mem_cons.mp he with rfl | he
      · rw [hadd]
        exact h₁ d hd
      · rw [hkey e (by simp [he])]
        exact hs₁₂ d hd e he
  · intro e he
    rcases hcase e he with rfl | he
    · rwa [hadd]
    · rw [(hsame e (hnot e he)).1]
      exact h.ne_null e he
  · intro e he
    rcases hcase e he with rfl | he
    · rw [hadd, update_self]
      exact hqueue
    · rw [(hsame e (hnot e he)).1, (hsame e (hnot e he)).2.1, update_of_ne (hkeys e he)]
      exact ho e he
  · intro e he
    rcases hcase e he with rfl | he
    · simp [hadd]
    · rw [(hsame e (hnot e he)).1, update_of_ne (hkeys e he)]
      exact h.nonempty e he
  · intro b hb
    by_cases hba : b = a
    · exact ⟨n, by simp, hadd.trans hba.symm⟩
    · obtain ⟨e, he, rfl⟩ := h.active b (by simpa [hba] using hb)
      exact ⟨e, hlonger.mem he, (hsame e (hnot e he)).1⟩
  · intro b c hbc
    by_cases hba : b = a
    · have hca : c ≠ a := fun hc => hbc (hba.trans hc.symm)
      simpa [hba, hca] using hp c
    · by_cases hca : c = a
      · simpa [hba, hca] using hp b
      · simpa [hba, hca] using h.disjoint b c hbc
  · rw [hfree]
    refine h.free.2.congr fun x hx => (hsame x ?_).2.2 ?_
    · rintro rfl
      exact hntop.2.2.2.2 hx
    · rintro rfl
      exact htne.2.1 hx
  · exact (descriptors_perm d1 d2 n l₁ l₂ fs).nodup_iff.mpr hnd
  · exact fun e => (descriptors_perm d1 d2 n l₁ l₂ fs).mem_iff.mpr (h.all e)

end Layout

/-! ### The functions -/

section Functions

variable {t : ProcTable} {s : SemdTable} {blocked : Addr → List PcbIx}

/-- The dummies are those of `s`, and the one at the end still has its queue. -/
def KeepsDummies (t : ProcTable) (s s' : SemdTable) (d1 d2 : SemdIx)
    (blocked : Addr → List PcbIx) : Prop :=
  (∃ ds fs, AslLayout t s' d1 d2 ds fs blocked) ∧ s'.sProcQ d2 = s.sProcQ d2

lemma AslLayout.ne_back {d1 d2 d : SemdIx} {ds fs : List SemdIx}
    (h : AslLayout t s d1 d2 ds fs blocked) (hd : d ∈ ds ++ fs) : d2 ≠ d := by
  have hnd := h.nodup
  simp only [List.nodup_cons] at hnd
  exact fun he => hnd.2.1 (he ▸ hd)

lemma AslLayout.insertBlocked {d1 d2 : SemdIx} {ds fs : List SemdIx} {a : Addr} {p : PcbIx}
    (h : AslLayout t s d1 d2 ds fs blocked) (ha : a ≠ null) (hp : ∀ b, p ∉ blocked b) :
    ∃ next prev s', insertBlocked a p t s =
        some (false, { t.withLinks next prev with pSemAdd := update t.pSemAdd p a }, s') ∧
      KeepsDummies { t.withLinks next prev with pSemAdd := update t.pSemAdd p a } s s' d1 d2
        (update blocked a (blocked a ++ [p])) ∧
      LinksOff (blocked a ++ [p]) t next prev := by
  have hsem : ∀ b, ∀ q ∈ update blocked a (blocked a ++ [p]) b, update t.pSemAdd p a q = b := by
    intro b q hq
    by_cases hqp : q = p
    · subst hqp
      by_cases hba : b = a
      · simp [hba]
      · exact absurd (by simpa [hba] using hq) (hp b)
    · have hqb : q ∈ blocked b := by
        by_cases hba : b = a
        · subst hba
          simpa [hqp] using hq
        · simpa [hba] using hq
      simpa [hqp] using h.semAdd b q hqb
  have hdis : ∀ b, b ≠ a → (blocked b).Disjoint (blocked a ++ [p]) := by
    intro b hba
    refine List.disjoint_append_right.mpr ⟨h.disjoint b a hba, ?_⟩
    simpa using hp b
  by_cases hempty : blocked a = []
  · obtain ⟨n, fs', rfl⟩ := h.exists_free hp
    obtain ⟨l₁, l₂, k, temp, nx, r, rfl, hk, hr, hsearch, hnext, hne, h₁, h₂⟩ :=
      h.search_miss ha hempty
    have hnil : IsQueue t none [] := IsRing.nil
    obtain ⟨next, prev, hins, hq, hoff⟩ := insertProcQ_spec hnil (List.not_mem_nil (a := p))
    have hfree : s.semdFreeH = some n := h.free.1
    have hnt : temp ≠ n := by
      rintro rfl
      have htmem : temp ∈ d1 :: l₁ := by simp [hk]
      have hnd := h.nodup
      simp only [List.nodup_cons, List.nodup_append, List.mem_append, List.mem_cons] at hnd htmem
      grind
    let s' : SemdTable := { s with
      semdFreeH := s.sNext n
      sNext := update (update s.sNext n (some nx)) temp (some n)
      sSemAdd := update s.sSemAdd n a
      sProcQ := update s.sProcQ n (some p) }
    rw [hempty] at hdis hsem ⊢
    have hback : d2 ≠ n := h.ne_back (by simp)
    refine ⟨next, prev, s', ?_, ⟨⟨l₁ ++ n :: l₂, fs', ?_⟩, by simp [s', hback]⟩, hoff⟩
    · simp [Kaya.insertBlocked, allocSemd, mkEmptyProcQ, hsearch, hnext, hne, hfree, hnt, hins,
        ProcTable.withLinks, s']
    · refine h.activate ha hempty hp hk hr h₁ h₂ rfl rfl (by simp [s', hnt.symm])
        (by simp [s']) (by simp [s']) (by simp only [s', update_self]; exact hq) ?_ ?_ hsem
      · intro d hd
        exact ⟨by simp [s', hd], by simp [s', hd], fun hdt => by simp [s', hd, hdt]⟩
      · intro e he
        exact (h.queue e he).frame hoff (hdis _ fun hea => h.nonempty e he (hea ▸ hempty))
  · obtain ⟨l₁, d, l₂, k, temp, rfl, hk, rfl, hsearch, hnext⟩ := h.search_hit hempty
    have hd : d ∈ l₁ ++ d :: l₂ := by simp
    obtain ⟨next, prev, hins, hq, hoff⟩ := insertProcQ_spec (h.queue d hd) (hp _)
    have hback : d2 ≠ d := h.ne_back (by simp)
    refine ⟨next, prev, { s with sProcQ := update s.sProcQ d (some p) }, ?_,
      ⟨⟨l₁ ++ d :: l₂, fs, ?_⟩, by simp [hback]⟩, hoff⟩
    · simp [Kaya.insertBlocked, hsearch, hnext, hins, ProcTable.withLinks]
    · refine h.setQueue hd hq (by simp) ?_ hdis hsem
      exact h.frame hoff hdis

/-- Blocking `p`, which is blocked nowhere, appends it to the queue of the semaphore. There
is always a descriptor for it. -/
theorem insertBlocked_spec {a : Addr} {p : PcbIx} (h : IsAsl t s blocked) (ha : a ≠ null)
    (hp : ∀ b, p ∉ blocked b) :
    ∃ next prev s', insertBlocked a p t s =
        some (false, { t.withLinks next prev with pSemAdd := update t.pSemAdd p a }, s') ∧
      IsAsl { t.withLinks next prev with pSemAdd := update t.pSemAdd p a } s'
        (update blocked a (blocked a ++ [p])) ∧
      LinksOff (blocked a ++ [p]) t next prev := by
  obtain ⟨d1, d2, ds, fs, h⟩ := h
  obtain ⟨next, prev, s', hins, ⟨⟨ds', fs', h'⟩, -⟩, hoff⟩ := h.insertBlocked ha hp
  exact ⟨next, prev, s', hins, ⟨d1, d2, ds', fs', h'⟩, hoff⟩

lemma insertBlocked_full {d1 d2 : SemdIx} {ds fs : List SemdIx} {a : Addr} {p : PcbIx}
    (h : AslLayout t s d1 d2 ds fs blocked) (ha : a ≠ null) (hempty : blocked a = [])
    (hfull : ds.length = maxProc) : insertBlocked a p t s = some (true, t, s) := by
  have hfs : fs = [] := by
    have hlen := h.length_add
    apply List.eq_nil_of_length_eq_zero
    omega
  have hfree : s.semdFreeH = none := by
    have hstack := h.free
    rw [hfs] at hstack
    exact hstack
  obtain ⟨l₁, l₂, k, temp, next, r, -, -, -, hsearch, hnext, hne, -, -⟩ :=
    h.search_miss ha hempty
  simp [insertBlocked, allocSemd, hsearch, hnext, hne, hfree]

lemma AslLayout.shrink {d1 d2 d temp : SemdIx} {l₁ l₂ k fs : List SemdIx}
    (h : AslLayout t s d1 d2 (l₁ ++ d :: l₂) fs blocked) (hk : d1 :: l₁ = k ++ [temp])
    {next prev : PcbIx → PcbPtr} {q : PcbPtr} {m l : List PcbIx}
    (hq : IsQueue (t.withLinks next prev) q m) (hoff : LinksOff l t next prev)
    (hl : ∀ p ∈ l, p ∈ blocked (s.sSemAdd d)) (hm : ∀ p ∈ m, p ∈ blocked (s.sSemAdd d)) :
    KeepsDummies (t.withLinks next prev) s
      (retireSemd temp d { s with sProcQ := update s.sProcQ d q }) d1 d2
      (update blocked (s.sSemAdd d) m) := by
  have hd : d ∈ l₁ ++ d :: l₂ := by simp
  have hback : d2 ≠ d := h.ne_back (by simp)
  have hdis : ∀ {m' : List PcbIx}, (∀ p ∈ m', p ∈ blocked (s.sSemAdd d)) →
      ∀ b, b ≠ s.sSemAdd d → (blocked b).Disjoint m' :=
    fun hm' b hb p hpb hpm => h.disjoint b _ hb hpb (hm' p hpm)
  have ho := h.frame hoff (hdis hl)
  by_cases hempty : m = []
  · subst hempty
    obtain rfl : q = none := by
      have hlast := hq.1
      simpa using hlast
    refine ⟨⟨l₁ ++ l₂, d :: fs, ?_⟩, by simp [retireSemd, freeSemd, emptyProcQ, hback]⟩
    have hret := h.retire (q := none) hk ho h.semAdd
    simpa [retireSemd, emptyProcQ] using hret
  · have hsome : q ≠ none := fun hqn => hempty (IsRing.eq_nil (hqn ▸ hq))
    have hret : retireSemd temp d { s with sProcQ := update s.sProcQ d q } =
        { s with sProcQ := update s.sProcQ d q } := by
      simp [retireSemd, emptyProcQ, hsome]
    rw [hret]
    refine ⟨⟨_, fs, h.setQueue hd hq hempty ho (hdis hm) fun b p hp => ?_⟩, by simp [hback]⟩
    by_cases hb : b = s.sSemAdd d
    · subst hb
      exact h.semAdd _ p (hm p (by simpa using hp))
    · exact h.semAdd b p (by simpa [hb] using hp)

lemma AslLayout.removeBlocked {d1 d2 : SemdIx} {ds fs : List SemdIx} {a : Addr}
    (h : AslLayout t s d1 d2 ds fs blocked) (ha : a ≠ null) :
    ∃ next prev s', removeBlocked a t s = some ((blocked a).head?, t.withLinks next prev, s') ∧
      KeepsDummies (t.withLinks next prev) s s' d1 d2 (update blocked a (blocked a).tail) ∧
      LinksOff (blocked a).tail t next prev := by
  by_cases hempty : blocked a = []
  · obtain ⟨l₁, l₂, k, temp, nx, r, -, -, -, hsearch, hnext, hne, -, -⟩ :=
      h.search_miss ha hempty
    refine ⟨t.pNext, t.pPrev, s, ?_, ?_, fun _ _ => ⟨rfl, rfl⟩⟩
    · simp [Kaya.removeBlocked, hsearch, hnext, hne, hempty, ProcTable.withLinks]
    · have hsame : update blocked a (blocked a).tail = blocked := by
        rw [hempty, List.tail_nil, ← hempty, update_eq_self]
      rw [hsame]
      exact ⟨⟨ds, fs, h⟩, rfl⟩
  · obtain ⟨l₁, d, l₂, k, temp, rfl, hk, rfl, hsearch, hnext⟩ := h.search_hit hempty
    obtain ⟨q, next, prev, hrem, hq, hoff⟩ := removeProcQ_spec (h.queue d (by simp))
    refine ⟨next, prev, _, ?_, h.shrink hk hq hoff ?_ ?_, hoff⟩
    · simp [Kaya.removeBlocked, hsearch, hnext, hrem]
    · exact fun p hp => List.mem_of_mem_tail hp
    · exact fun p hp => List.mem_of_mem_tail hp

/-- Waking the first process of a semaphore takes it out of the queue. -/
theorem removeBlocked_spec {a : Addr} (h : IsAsl t s blocked) (ha : a ≠ null) :
    ∃ next prev s', removeBlocked a t s = some ((blocked a).head?, t.withLinks next prev, s') ∧
      IsAsl (t.withLinks next prev) s' (update blocked a (blocked a).tail) ∧
      LinksOff (blocked a).tail t next prev := by
  obtain ⟨d1, d2, ds, fs, h⟩ := h
  obtain ⟨next, prev, s', hrem, ⟨⟨ds', fs', h'⟩, -⟩, hoff⟩ := h.removeBlocked ha
  exact ⟨next, prev, s', hrem, ⟨d1, d2, ds', fs', h'⟩, hoff⟩

lemma headBlocked_spec {a : Addr} (h : IsAsl t s blocked) (ha : a ≠ null) :
    headBlocked a t s = some (blocked a).head? := by
  obtain ⟨d1, d2, ds, fs, h⟩ := h
  by_cases hempty : blocked a = []
  · obtain ⟨l₁, l₂, k, temp, nx, r, -, -, -, hsearch, hnext, hne, -, -⟩ :=
      h.search_miss ha hempty
    simp [headBlocked, hsearch, hnext, hne, hempty]
  · obtain ⟨l₁, d, l₂, k, temp, rfl, -, rfl, hsearch, hnext⟩ := h.search_hit hempty
    have hhead := headProcQ_spec (h.queue d (by simp))
    simp [headBlocked, hsearch, hnext, hhead]

lemma AslLayout.outBlocked {d1 d2 : SemdIx} {ds fs : List SemdIx} {p : PcbIx}
    (h : AslLayout t s d1 d2 ds fs blocked) (ha : t.pSemAdd p ≠ null) :
    ∃ next prev s', outBlocked p t s =
        some (if p ∈ blocked (t.pSemAdd p) then some p else none, t.withLinks next prev, s') ∧
      KeepsDummies (t.withLinks next prev) s s' d1 d2
        (update blocked (t.pSemAdd p) ((blocked (t.pSemAdd p)).erase p)) ∧
      LinksOff (blocked (t.pSemAdd p)) t next prev := by
  by_cases hempty : blocked (t.pSemAdd p) = []
  · obtain ⟨l₁, l₂, k, temp, nx, r, -, -, -, hsearch, hnext, hne, -, -⟩ :=
      h.search_miss ha hempty
    refine ⟨t.pNext, t.pPrev, s, ?_, ?_, fun _ _ => ⟨rfl, rfl⟩⟩
    · simp [Kaya.outBlocked, hsearch, hnext, hne, hempty, ProcTable.withLinks]
    · have hsame : update blocked (t.pSemAdd p) ((blocked (t.pSemAdd p)).erase p) = blocked := by
        rw [hempty, List.erase_nil, ← hempty, update_eq_self]
      rw [hsame]
      exact ⟨⟨ds, fs, h⟩, rfl⟩
  · obtain ⟨l₁, d, l₂, k, temp, rfl, hk, hda, hsearch, hnext⟩ := h.search_hit hempty
    obtain ⟨q, next, prev, hout, hq, hoff⟩ := outProcQ_spec p (h.queue d (by simp))
    rw [hda] at hq hoff hout
    refine ⟨next, prev, retireSemd temp d { s with sProcQ := update s.sProcQ d q }, ?_, ?_, hoff⟩
    · simp [Kaya.outBlocked, hsearch, hnext, hda, hout]
    · rw [← hda] at hq hoff ⊢
      exact h.shrink hk hq hoff (fun p hp => hp) fun p hp => List.mem_of_mem_erase hp

/-- Taking `p` out of the queue of the semaphore it was last blocked on. -/
theorem outBlocked_spec {p : PcbIx} (h : IsAsl t s blocked) (ha : t.pSemAdd p ≠ null) :
    ∃ next prev s', outBlocked p t s =
        some (if p ∈ blocked (t.pSemAdd p) then some p else none, t.withLinks next prev, s') ∧
      IsAsl (t.withLinks next prev) s'
        (update blocked (t.pSemAdd p) ((blocked (t.pSemAdd p)).erase p)) ∧
      LinksOff (blocked (t.pSemAdd p)) t next prev := by
  obtain ⟨d1, d2, ds, fs, h⟩ := h
  obtain ⟨next, prev, s', hout, ⟨⟨ds', fs', h'⟩, -⟩, hoff⟩ := h.outBlocked ha
  exact ⟨next, prev, s', hout, ⟨d1, d2, ds', fs', h'⟩, hoff⟩

end Functions

end Kaya
