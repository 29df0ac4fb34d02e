import Kaya.Results.Programs
import Kaya.Results.StringLength
import Kaya.Support.Answers
import Kaya.Support.Holding
import Mathlib.Data.List.GetD

/-!
# Output

What a process writes to its terminal is the string in its flat memory, whatever the pager does
with the pages and the other processes do meanwhile: SYS10 goes through the loop as it would by
itself.
-/

namespace Kaya.Support

open Function Linked

variable {n : Nat}

/-! ### What SYS10 does in a run -/

namespace Sys

/-- The character that `WriteToTerminal` reads, unless it comes to an exception. -/
def charRead (b : Board n) (s : Sys n) (p : Fin n) (pr : Print) (input : Option Word) :
    Option Word :=
  if segmentOf pr.s = kuseg2 ∨ segmentOf pr.s = kuseg3 then
    match s.translate b p (accessHi p pr.s) false with
    | .ok frame => some (charOf (s.ram frame (wordOf pr.s)) pr.s)
    | .error _ => none
  else input.map fun w => w &&& 0xFF

/-- What the handler of `p` does for a string when it goes on from here. -/
def actsOn (b : Board n) (s : Sys n) (p : Fin n) (input : Option Word) : Control → List Act
  | .service old =>
    match userSyscallHandler old with
    | .writes _ => [.passeren]
    | _ => []
  | .print pr .test =>
    match s.charRead b p pr input with
    | some c => if c = eos then [.read pr.s, .verhogen] else [.read pr.s]
    | none => []
  | .print pr .send =>
    match s.charRead b p pr input with
    | some c => [.read pr.s, .transmit (c.setWidth 8)]
    | none => []
  | .print _ .wait =>
    match input with
    | some status => if Transmitted status then [] else [.verhogen]
    | none => []
  | _ => []

end Sys

/-- The status that the terminal returns. -/
def Control.statusIn (input : Option Word) : Control → List Word
  | .print _ .wait => input.toList
  | _ => []

def actsIn (b : Board n) (p : Fin n) : Sys n × Event n × Sys n → List Act
  | (s, .run q input, _) => if q = p then s.actsOn b p input (s.control p) else []
  | _ => []

def statusIn (p : Fin n) : Sys n × Event n × Sys n → List Word
  | (s, .run q input, _) => if q = p then (s.control p).statusIn input else []
  | _ => []

/-- What `p` has done for its string in the transitions `h`. -/
def actsOf (b : Board n) (p : Fin n) (h : List (Sys n × Event n × Sys n)) : List Act :=
  h.flatMap (actsIn b p)

/-- The statuses that `p` has got from its terminal. -/
def statusesOf (p : Fin n) (h : List (Sys n × Event n × Sys n)) : List Word :=
  h.flatMap (statusIn p)

/-! ### Strings in flat memory -/

/-- An address in a private page other than the stack page. -/
def InPrivate (va : Addr) : Prop := segmentOf va = kuseg2 ∧ pageOf va < maxKuseg - 1

namespace Flat

/-- The private pages of a process as the process addresses them. -/
def memory (m : Flat n) (p : Fin n) : UserMemory := fun va =>
  if h : pageOf va < maxKuseg then
    (charOf (m p ⟨pageOf va, h⟩ (wordOf va)) va).setWidth 8
  else 0

end Flat

/-- A string of `k` characters and its end, in private pages. -/
structure HasString (mem : UserMemory) (addr : Addr) (k : Nat) : Prop where
  priv : ∀ j ≤ k, InPrivate (addr + BitVec.ofNat 32 j)
  chars : ∀ j < k, mem (addr + BitVec.ofNat 32 j) ≠ 0
  ends : mem (addr + BitVec.ofNat 32 k) = 0

instance (va : Addr) : Decidable (InPrivate va) := inferInstanceAs (Decidable (_ ∧ _))

instance (mem : UserMemory) (addr : Addr) (k : Nat) : Decidable (HasString mem addr k) :=
  decidable_of_iff ((∀ j ≤ k, InPrivate (addr + BitVec.ofNat 32 j)) ∧
      (∀ j < k, mem (addr + BitVec.ofNat 32 j) ≠ 0) ∧ mem (addr + BitVec.ofNat 32 k) = 0)
    ⟨fun h => ⟨h.1, h.2.1, h.2.2⟩, fun h => ⟨h.priv, h.chars, h.ends⟩⟩

instance (p : Fin n) (ev : Event n) : Decidable (ev.Awaits p) :=
  match ev with
  | .access q _ _ _ | .syscall q _ | .trap q => inferInstanceAs (Decidable (q ≠ p))
  | .run _ _ | .disk | .forget _ => .isTrue trivial

variable {b : Board n} {s s' : Sys n} {ev : Event n} {p : Fin n} {input : Option Word}
  {m : Flat n} {pr : Print} {stage : PrintStage} {va : Addr} {old : State}

/-! ### Reading a character -/

lemma Sys.Tables.lookup_ne_none (h : s.Tables) (hn : n ≤ 63) (hva : InPrivate va) :
    s.lookup p (Sys.accessHi p va) ≠ none := by
  obtain ⟨hseg, hpage⟩ := hva
  have hentry : (s.pte (.priv p ⟨pageOf va, lt_maxKuseg hpage⟩)).entryHi = Sys.accessHi p va := by
    apply BitVec.eq_of_toNat_eq
    rw [(h.built _).entryHi, entryHi_priv hn, toNat_accessHi hn]
    have hcases := number_priv p ⟨pageOf va, lt_maxKuseg hpage⟩
    have h2 : va.toNat / 2 ^ 30 = 2 := (segmentOf_eq va).symm.trans hseg
    have hval : (⟨pageOf va, lt_maxKuseg hpage⟩ : Fin maxKuseg).val = va.toNat / 2 ^ 12 % 2 ^ 18 :=
      pageOf_eq va
    have hlt : (⟨pageOf va, lt_maxKuseg hpage⟩ : Fin maxKuseg).val < 31 := hpage
    omega
  intro hnone
  obtain ⟨-, hsearch⟩ := Option.or_eq_none_iff.mp hnone
  unfold Sys.search at hsearch
  rw [segmentOf_accessHi hn, if_pos hseg, List.find?_eq_none] at hsearch
  apply hsearch _ ((List.mem_ofFn' _ _).mpr ⟨⟨pageOf va, lt_maxKuseg hpage⟩, rfl⟩)
  change decide ((s.pte (.priv p _)).Matches _) = true
  rw [decide_eq_true_iff]
  unfold Pte.Matches
  rw [hentry]
  exact ⟨rfl, .inr rfl⟩

lemma charOf_lt (w : Word) (va : Addr) : (charOf w va).toNat < 256 := by
  have hmod : (charOf w va).toNat = (w >>> (8 * (va.toNat % 4))).toNat % 256 := by
    unfold charOf
    rw [BitVec.toNat_and]
    exact Nat.and_two_pow_sub_one_eq_mod _ 8
  omega

lemma setWidth_charOf (w : Word) (va : Addr) :
    ((charOf w va).setWidth 8).setWidth 32 = charOf w va := by
  apply BitVec.eq_of_toNat_eq
  have hlt := charOf_lt w va
  rw [BitVec.toNat_setWidth, BitVec.toNat_setWidth]
  omega

lemma Sys.Shows.char_eq {frame : Word} (hs : s.Shows b m) (hp : s.Paged b) (hva : InPrivate va)
    (hread : s.translate b p (Sys.accessHi p va) false = .ok frame) :
    charOf (s.ram frame (wordOf va)) va = (m.memory p va).setWidth 32 := by
  have hplace := hp.place_of_read hva.1 hva.2 hread
  unfold Flat.memory
  rw [dif_pos (lt_maxKuseg hva.2), setWidth_charOf, hs.resident hplace]

lemma Sys.readChar_cases (p : Fin n) (stage : PrintStage) (input : Option Word)
    (next : Sys n → Word → Sys n) (hs : s.Shows b m) (hp : s.Paged b) (hva : InPrivate pr.s) :
    (s.charRead b p pr input = some ((m.memory p pr.s).setWidth 32) ∧
        s.readChar b p pr stage input next =
          next (s.refill p (accessHi p pr.s)) ((m.memory p pr.s).setWidth 32)) ∨
      s.charRead b p pr input = none ∧ ∃ old,
        (s.readChar b p pr stage input next).control p = .tlb old (.print pr stage) .enter ∧
          Served old ∧ InPrivate old.sAsid := by
  have hn := b.procCnt_le
  have hseg : segmentOf pr.s = kuseg2 ∨ segmentOf pr.s = kuseg3 := .inl hva.1
  unfold charRead readChar
  dsimp only
  rw [if_pos hseg, if_pos hseg]
  cases htranslate : s.translate b p (accessHi p pr.s) false with
  | ok frame =>
    left
    rw [← hs.char_eq hp hva htranslate]
    exact ⟨rfl, rfl⟩
  | error cause =>
    right
    have hserved := served_of_lookup (hp.tables.lookup_ne_none hn hva) htranslate pr.syscallOld
      (accessHi p pr.s)
    exact ⟨rfl, _, goto_control_self _ _ _, hserved, (segmentOf_accessHi hn).trans hva.1,
      (pageOf_accessHi hn).trans_lt hva.2⟩

/-! ### Where a process is in the loop -/

/-- What has been done for a string at this place of turn `i`. -/
def doneAt (mem : UserMemory) (addr : Addr) (i : Nat) : PrintStage → List Act
  | .test => .passeren :: sends mem i addr
  | .send => .passeren :: (sends mem i addr ++ [.read (addr + BitVec.ofNat 32 i)])
  | .wait => .passeren :: sends mem (i + 1) addr

/-- The process is in turn `i` of the loop, with the statuses `got` behind it. -/
structure Print.At (mem : UserMemory) (old : State) (got : List Word) (pr : Print)
    (stage : PrintStage) (i : Nat) : Prop where
  syscallOld : pr.syscallOld = old.advancePc
  addr : pr.s = old.sA1 + BitVec.ofNat 32 i
  count : pr.i = BitVec.ofNat 32 i
  turns : got.length = i
  passes : Passes mem (fun j => got.getD j 0) old.sA1 i
  goes : stage ≠ .test → mem pr.s ≠ 0

/-- Where a process with the call of the state `old` is when it has done `acts` and got the
statuses `got`, or how the call has ended. -/
def Control.Writes (mem : UserMemory) (old : State) (acts : List Act) (got : List Word) :
    Control → Prop
  | .service old' => old' = old ∧ acts = [] ∧ got = []
  | .print pr stage => ∃ i, pr.At mem old got stage i ∧ acts = doneAt mem old.sA1 i stage
  | .tlb old' (.print pr stage) tlbStage =>
    (∃ i, pr.At mem old got stage i ∧ acts = doneAt mem old.sA1 i stage) ∧
      InPrivate old'.sAsid ∧ (tlbStage = .enter → Served old')
  | .ldst st | .user st => ∃ fuel, (userSyscallHandler old).performs mem (fun j => got.getD j 0)
      fuel = some (acts, .reloaded st)
  | _ => False

variable {mem : UserMemory} {addr : Addr} {acts : List Act} {got : List Word} {i k : Nat}
  {status : Word} {st : State}

lemma sends_succ (mem : UserMemory) (i : Nat) (addr : Addr) : sends mem (i + 1) addr =
    sends mem i addr ++ [.read (addr + BitVec.ofNat 32 i), .read (addr + BitVec.ofNat 32 i),
      .transmit (mem (addr + BitVec.ofNat 32 i))] := by
  induction i generalizing addr with
  | zero =>
    rw [BitVec.add_zero]
    rfl
  | succ i ih =>
    rw [← add_one_add]
    change .read addr :: .read addr :: .transmit (mem addr) :: sends mem (i + 1) (addr + 1) = _
    rw [ih]
    rfl

lemma HasString.le_of_passes {statuses : Nat → Word} (h : HasString mem addr k)
    (hi : Passes mem statuses addr i) : i ≤ k := by
  by_contra hlt
  exact (hi k (Nat.lt_of_not_le hlt)).1 h.ends

lemma HasString.legal (h : HasString mem addr k) : legalAddrStart ≤ addr := by
  obtain ⟨hseg, -⟩ := h.priv 0 (Nat.zero_le k)
  rw [BitVec.add_zero, segmentOf_eq] at hseg
  have h2 : addr.toNat / 2 ^ 30 = 2 := hseg
  have hle : legalAddrStart.toNat ≤ addr.toNat := by
    change 0x80000000 ≤ addr.toNat
    omega
  exact hle

lemma passes_append (h : Passes mem (fun j => got.getD j 0) addr got.length) :
    Passes mem (fun j => (got ++ [status]).getD j 0) addr got.length := by
  intro j hj
  dsimp only
  rw [List.getD_append _ _ _ _ hj]
  exact h j hj

namespace Print.At

variable (h : pr.At mem old got stage i)

include h

lemma priv (hstring : HasString mem old.sA1 k) : InPrivate pr.s := by
  rw [h.addr]
  exact hstring.priv i (hstring.le_of_passes h.passes)

lemma send (hgoes : mem pr.s ≠ 0) : pr.At mem old got .send i :=
  ⟨h.syscallOld, h.addr, h.count, h.turns, h.passes, fun _ => hgoes⟩

lemma wait (hgoes : mem pr.s ≠ 0) : pr.At mem old got .wait i :=
  ⟨h.syscallOld, h.addr, h.count, h.turns, h.passes, fun _ => hgoes⟩

lemma getD_status : (got ++ [status]).getD i 0 = status := by
  rw [← h.turns, List.getD_append_right _ _ _ _ le_rfl, Nat.sub_self]
  rfl

lemma next (hstage : stage ≠ .test) (hstatus : Transmitted status) :
    pr.next.At mem old (got ++ [status]) .test (i + 1) := by
  refine ⟨h.syscallOld, ?_, ?_, ?_, fun j hj => ?_, fun hne => absurd rfl hne⟩
  · change pr.s + 1 = _
    rw [h.addr, BitVec.add_assoc]
    congr 1
    exact (BitVec.ofNat_add i 1).symm
  · change pr.i + 1 = _
    rw [h.count]
    exact (BitVec.ofNat_add i 1).symm
  · rw [List.length_append, h.turns]
    rfl
  · rcases Nat.lt_succ_iff_lt_or_eq.mp hj with hlt | rfl
    · have hpasses := h.passes
      rw [← h.turns] at hpasses hlt
      exact passes_append hpasses j hlt
    · dsimp only
      rw [h.getD_status, ← h.addr]
      exact ⟨h.goes hstage, hstatus⟩

lemma stops (hend : mem pr.s = 0) : StopsAt mem (fun j => got.getD j 0) old.sA1 i := by
  rw [h.addr] at hend
  exact ⟨h.passes, hend⟩

lemma fails (hstage : stage ≠ .test) (hstatus : ¬ Transmitted status) :
    FailsAt mem (fun j => (got ++ [status]).getD j 0) old.sA1 i := by
  have hpasses := h.passes
  have hgoes := h.goes hstage
  rw [h.addr] at hgoes
  refine ⟨?_, hgoes, ?_⟩
  · rw [← h.turns] at hpasses ⊢
    exact passes_append hpasses
  · rwa [h.getD_status]

end Print.At

/-! ### One step -/

lemma HasString.performs_stops (h : HasString mem old.sA1 k) (h10 : old.sA0 = writeToTerminalNum)
    (hlength : 0 ≤ old.sA2.toInt) (hpr : pr.At mem old got .test i) (hend : mem pr.s = 0) :
    (Control.ldst pr.finish).Writes mem old (doneAt mem old.sA1 i .test ++ [.read pr.s, .verhogen])
      got := by
  refine ⟨i + 1, ?_⟩
  have hvalue : pr.finish = old.advancePc.setV0 (0 + BitVec.ofNat 32 i) := by
    unfold Print.finish
    rw [hpr.syscallOld, hpr.count]
    congr 1
    exact (BitVec.zero_add _).symm
  rw [Support.performs_stops h10 h.legal hlength (hpr.stops hend), hvalue, hpr.addr]
  rfl

lemma HasString.performs_fails (h : HasString mem old.sA1 k) (h10 : old.sA0 = writeToTerminalNum)
    (hlength : 0 ≤ old.sA2.toInt) (hpr : pr.At mem old got .wait i)
    (hstatus : ¬ Transmitted status) :
    (Control.ldst (pr.fail status)).Writes mem old (doneAt mem old.sA1 i .wait ++ [.verhogen])
      (got ++ [status]) := by
  refine ⟨i + 1, ?_⟩
  rw [Support.performs_fails h10 h.legal hlength (hpr.fails (by decide) hstatus), hpr.getD_status]
  unfold Print.fail
  rw [hpr.syscallOld]
  rfl

namespace Sys

lemma faultPage_of_private (hpriv : InPrivate old.sAsid) :
    faultPage p old = some (.priv p ⟨pageOf old.sAsid, lt_maxKuseg hpriv.2⟩) := by
  have h3 : segmentOf old.sAsid ≠ kuseg3 := by
    rw [hpriv.1]
    decide
  unfold faultPage entryOf
  rw [if_neg h3, if_pos hpriv.1, dif_pos (lt_maxKuseg hpriv.2)]
  rfl

lemma userTlbHandler_cases {tlbStage : TlbStage} (hpriv : InPrivate old.sAsid)
    (hserved : tlbStage = .enter → Served old)
    (hs : s.userTlbHandler b p old (.print pr stage) input tlbStage = some s') :
    s'.control p = .print pr stage ∨
      ∃ tlbStage', s'.control p = .tlb old (.print pr stage) tlbStage' ∧ tlbStage' ≠ .enter := by
  have hin : ∀ (s : Sys n) tlbStage', tlbStage' ≠ .enter →
      ∃ tlbStage'', (s.goto p (.tlb old (.print pr stage) tlbStage')).control p =
        .tlb old (.print pr stage) tlbStage'' ∧ tlbStage'' ≠ .enter :=
    fun s tlbStage' hne => ⟨tlbStage', goto_control_self _ _ _, hne⟩
  have hio : ∀ {job : Job} {control : IoStage → TlbStage} {done : TlbStage} {io : IoStage},
      (∀ io, control io ≠ .enter) → done ≠ .enter →
      s.ioStep p job (fun io => .tlb old (.print pr stage) (control io))
        (.tlb old (.print pr stage) done) io = some s' →
      ∃ tlbStage', s'.control p = .tlb old (.print pr stage) tlbStage' ∧ tlbStage' ≠ .enter := by
    intro job control done io hcontrol hdone hs
    unfold ioStep at hs
    cases io with
    | seek =>
      obtain rfl := Option.some.inj hs
      exact hin _ _ (hcontrol _)
    | transfer =>
      dsimp only at hs
      split_ifs at hs
      obtain rfl := Option.some.inj hs
      exact hin _ _ (hcontrol _)
    | release =>
      dsimp only at hs
      split_ifs at hs
      obtain rfl := Option.some.inj hs
      exact hin _ _ hdone
  cases tlbStage with
  | enter =>
    right
    obtain rfl := Option.some.inj hs
    unfold enterTlb
    dsimp only
    rw [if_neg fun hcode => (hserved rfl).elim hcode.1 hcode.2]
    exact hin _ _ (by simp)
  | check =>
    right
    change s.checkTlb p old _ input = some s' at hs
    unfold checkTlb at hs
    have h3 : segmentOf old.sAsid ≠ kuseg3 := by
      rw [hpriv.1]
      decide
    rw [if_neg h3] at hs
    obtain ⟨f, -, hs⟩ := Option.bind_eq_some_iff.mp hs
    dsimp only at hs
    split_ifs at hs
    · unfold bootOut at hs
      dsimp only at hs
      split_ifs at hs
      · obtain ⟨_, -, hs⟩ := Option.bind_eq_some_iff.mp hs
        obtain ⟨_, -, hs⟩ := Option.bind_eq_some_iff.mp hs
        obtain rfl := Option.some.inj hs
        exact hin _ _ (by simp)
      · obtain ⟨_, -, hs⟩ := Option.bind_eq_some_iff.mp hs
        obtain ⟨_, -, hs⟩ := Option.bind_eq_some_iff.mp hs
        obtain rfl := Option.some.inj hs
        exact hin _ _ (by simp)
      · obtain rfl := Option.some.inj hs
        exact hin _ _ (by simp)
    · obtain rfl := Option.some.inj hs
      exact hin _ _ (by simp)
  | boot frame victim io => exact .inr (hio (by simp) (by simp) hs)
  | booted frame =>
    right
    obtain rfl := Option.some.inj hs
    exact hin _ _ (by simp)
  | load frame io => exact .inr (hio (by simp) (by simp) hs)
  | install frame =>
    right
    obtain rfl := Option.some.inj hs
    rw [installPage_eq (faultPage_of_private hpriv)]
    exact hin _ _ (by simp)
  | leave =>
    left
    obtain rfl := Option.some.inj hs
    exact goto_control_self _ _ _

lemma readChar_writes {next : Sys n → Word → Sys n} (hm : s.Shows b m) (hp : s.Paged b)
    (hstring : HasString (m.memory p) old.sA1 k) (hpr : pr.At (m.memory p) old got stage i)
    (hread : s.charRead b p pr input = some ((m.memory p pr.s).setWidth 32) →
      ((next (s.refill p (accessHi p pr.s)) ((m.memory p pr.s).setWidth 32)).control p).Writes
        (m.memory p) old acts got)
    (hmiss : s.charRead b p pr input = none → acts = doneAt (m.memory p) old.sA1 i stage) :
    ((s.readChar b p pr stage input next).control p).Writes (m.memory p) old acts got := by
  rcases readChar_cases p stage input next hm hp (hpr.priv hstring) with
    ⟨hchar, heq⟩ | ⟨hchar, old', hc, hserved, hpriv⟩
  · rw [heq]
    exact hread hchar
  · rw [hc]
    exact ⟨⟨i, hpr, hmiss hchar⟩, hpriv, fun _ => hserved⟩

lemma service_writes (hstring : HasString mem old.sA1 k) (h10 : old.sA0 = writeToTerminalNum)
    (hlength : 0 ≤ old.sA2.toInt) (w : Word) :
    ((s.service p old w).control p).Writes mem old [.passeren] [] := by
  unfold service
  rw [userSyscallHandler_writes h10 hstring.legal hlength, goto_control_self]
  refine ⟨0, ⟨rfl, ?_, rfl, rfl, fun j hj => absurd hj (Nat.not_lt_zero j), ?_⟩, rfl⟩
  · exact (BitVec.add_zero _).symm
  · exact fun hne => absurd rfl hne

lemma writeToTerminal_writes (hm : s.Shows b m) (hp : s.Paged b)
    (hstring : HasString (m.memory p) old.sA1 k) (h10 : old.sA0 = writeToTerminalNum)
    (hlength : 0 ≤ old.sA2.toInt) (hpr : pr.At (m.memory p) old got stage i)
    (hs : s.writeToTerminal b p pr input stage = some s') :
    (s'.control p).Writes (m.memory p) old
      (doneAt (m.memory p) old.sA1 i stage ++ s.actsOn b p input (.print pr stage))
      (got ++ (Control.print pr stage).statusIn input) := by
  cases stage with
  | test =>
    obtain rfl := Option.some.inj hs
    change Control.Writes _ _ (_ ++ _) (got ++ []) _
    rw [List.append_nil]
    refine readChar_writes hm hp hstring hpr (fun hchar => ?_) fun hchar => ?_
    · simp only [actsOn, hchar, setWidth_eq_eos]
      split_ifs with hend
      · rw [goto_control_self]
        exact hstring.performs_stops h10 hlength hpr hend
      · rw [goto_control_self]
        refine ⟨i, hpr.send hend, ?_⟩
        rw [hpr.addr]
        rfl
    · simp only [actsOn, hchar]
      exact List.append_nil _
  | send =>
    obtain rfl := Option.some.inj hs
    change Control.Writes _ _ (_ ++ _) (got ++ []) _
    rw [List.append_nil]
    refine readChar_writes hm hp hstring hpr (fun hchar => ?_) fun hchar => ?_
    · simp only [actsOn, hchar]
      rw [goto_control_self]
      refine ⟨i, hpr.wait (hpr.goes (by decide)), ?_⟩
      unfold doneAt
      rw [sends_succ, hpr.addr, BitVec.setWidth_setWidth_of_le _ (by decide), BitVec.setWidth_eq]
      simp
    · simp only [actsOn, hchar]
      exact List.append_nil _
  | wait =>
    obtain ⟨status, hinput, hnext⟩ := Option.bind_eq_some_iff.mp hs
    subst hinput
    change Control.Writes _ _ (_ ++ if Transmitted status then [] else [.verhogen])
      (got ++ [status]) _
    split_ifs at hnext ⊢ with hstatus <;> obtain rfl := Option.some.inj hnext
    · rw [goto_control_self, List.append_nil]
      exact ⟨i + 1, hpr.next (by decide) hstatus, rfl⟩
    · rw [goto_control_self]
      exact hstring.performs_fails h10 hlength hpr hstatus

/-- When its handler goes on, `p` does what comes next for its string. -/
lemma run_writes (hm : s.Shows b m) (hp : s.Paged b)
    (hstring : HasString (m.memory p) old.sA1 k) (h10 : old.sA0 = writeToTerminalNum)
    (hlength : 0 ≤ old.sA2.toInt) (h : (s.control p).Writes (m.memory p) old acts got)
    (hs : s.run b p input = some s') :
    (s'.control p).Writes (m.memory p) old (acts ++ s.actsOn b p input (s.control p))
      (got ++ (s.control p).statusIn input) := by
  unfold run at hs
  generalize hc : s.control p = c at h hs ⊢
  have hquiet : (s'.control p).Writes (m.memory p) old acts got →
      (s'.control p).Writes (m.memory p) old (acts ++ []) (got ++ []) := by
    rw [List.append_nil, List.append_nil]
    exact id
  cases c with
  | service old' =>
    obtain ⟨rfl, rfl, rfl⟩ := h
    obtain ⟨w, hinput, hnext⟩ := Option.bind_eq_some_iff.mp hs
    subst hinput
    obtain rfl := Option.some.inj hnext
    have hacts : s.actsOn b p (some w) (.service old') = [.passeren] := by
      simp only [actsOn, userSyscallHandler_writes h10 hstring.legal hlength]
    rw [hacts]
    exact service_writes hstring h10 hlength w
  | print pr stage =>
    obtain ⟨i, hpr, rfl⟩ := h
    exact writeToTerminal_writes hm hp hstring h10 hlength hpr hs
  | ldst st =>
    obtain rfl := Option.some.inj hs
    apply hquiet
    rw [goto_control_self]
    exact h
  | tlb old' back tlbStage =>
    apply hquiet
    cases back with
    | user => exact h.elim
    | print pr stage =>
      obtain ⟨hpr, hpriv, hserved⟩ := h
      rcases userTlbHandler_cases hpriv hserved hs with hc' | ⟨tlbStage', hc', hne⟩
      · rw [hc']
        exact hpr
      · rw [hc']
        exact ⟨hpr, hpriv, fun he => absurd he hne⟩
  | user st => cases hs
  | readTape i tapeStage => exact h.elim
  | terminate => exact h.elim
  | ending => exact h.elim
  | dead => exact h.elim
  | lost => exact h.elim

end Sys

/-! ### Whole runs -/

lemma charsAt_eq_transmitted (mem : UserMemory) (addr : Addr) (i : Nat) (l : List Act)
    (hl : transmitted l = []) : transmitted (.passeren :: (sends mem i addr ++ l)) =
      charsAt mem addr i := by
  have happend : transmitted (.passeren :: (sends mem i addr ++ l)) =
      transmitted (sends mem i addr) ++ transmitted l := List.filterMap_append
  rw [happend, hl, transmitted_sends, List.append_nil]

lemma Control.Writes.transmitted_eq {c : Control} (h : c.Writes mem old acts got)
    (hstring : HasString mem old.sA1 k) (h10 : old.sA0 = writeToTerminalNum)
    (hlength : 0 ≤ old.sA2.toInt) : ∃ i ≤ k, transmitted acts = charsAt mem old.sA1 i := by
  have hturn : ∀ {pr : Print} {stage}, (∃ i, pr.At mem old got stage i ∧
      acts = doneAt mem old.sA1 i stage) → ∃ i ≤ k, transmitted acts = charsAt mem old.sA1 i := by
    rintro pr stage ⟨i, hpr, rfl⟩
    have hi := hstring.le_of_passes hpr.passes
    cases stage with
    | test => exact ⟨i, hi, transmitted_sends mem i old.sA1⟩
    | send => exact ⟨i, hi, charsAt_eq_transmitted mem old.sA1 i [.read _] rfl⟩
    | wait =>
      refine ⟨i + 1, Nat.lt_of_le_of_ne hi ?_, transmitted_sends mem (i + 1) old.sA1⟩
      rintro rfl
      have hgoes := hpr.goes (by decide)
      rw [hpr.addr] at hgoes
      exact hgoes hstring.ends
  have hend : ∀ {st}, (∃ fuel, (userSyscallHandler old).performs mem (fun j => got.getD j 0)
      fuel = some (acts, .reloaded st)) → ∃ i ≤ k, transmitted acts = charsAt mem old.sA1 i := by
    rintro st ⟨fuel, hperforms⟩
    rcases performs_cases h10 hstring.legal hlength hperforms with
      ⟨i, hi, rfl, -⟩ | ⟨i, hi, rfl, -⟩
    · exact ⟨i, hstring.le_of_passes hi.passes,
        charsAt_eq_transmitted mem old.sA1 i [.read _, .verhogen] rfl⟩
    · refine ⟨i + 1, Nat.lt_of_le_of_ne (hstring.le_of_passes hi.passes) ?_,
        charsAt_eq_transmitted mem old.sA1 (i + 1) [.verhogen] rfl⟩
      rintro rfl
      exact hi.goes hstring.ends
  cases c with
  | service old' =>
    obtain ⟨-, rfl, -⟩ := h
    exact ⟨0, Nat.zero_le k, rfl⟩
  | print pr stage => exact hturn h
  | tlb old' back tlbStage =>
    cases back with
    | user => exact h.elim
    | print pr stage => exact hturn h.1
  | ldst st => exact hend h
  | user st => exact hend h
  | readTape i tapeStage => exact h.elim
  | terminate => exact h.elim
  | ending => exact h.elim
  | dead => exact h.elim
  | lost => exact h.elim

lemma Control.Writes.not_inTape {c : Control} (h : c.Writes mem old acts got) : ¬ c.InTape := by
  cases c with
  | readTape i stage => exact h.elim
  | _ => exact not_false

lemma Control.Writes.not_over {c : Control} (h : c.Writes mem old acts got) : ¬ c.Over := by
  cases c with
  | terminate | ending | dead => exact h.elim
  | _ => exact not_false

lemma Flat.after_of_awaits (hev : ev.Awaits p) (hp : ¬ (s'.control p).InTape) :
    m.after b (s, ev, s') p = m p := by
  unfold Flat.after
  funext i
  dsimp only
  rw [if_neg hp]
  cases ev with
  | access q st va op =>
    cases op with
    | load => rfl
    | store v =>
      dsimp only
      cases s.translate b q (Sys.accessHi q va) true with
      | ok frame => exact if_neg fun hand => hev hand.1.symm
      | error cause => rfl
  | _ => rfl

lemma Flat.memory_congr {m' : Flat n} (h : m' p = m p) : m'.memory p = m.memory p := by
  unfold memory
  rw [h]

namespace Sys

lemma Orderly.run {s₀ : Sys n} {h : List (Sys n × Event n × Sys n)} (h0 : s₀.Fresh)
    (hr : Run (Sys.step b) Agrees s₀ h s) : s.Orderly b (Flat.ofRun b s₀ h) := by
  induction hr with
  | nil => exact .fresh h0 (fresh_shows h0)
  | snoc hr hagrees hs ih =>
    have hstep := ih.moves (step_moves hs) hagrees
    unfold Flat.ofRun at hstep ⊢
    rwa [List.foldl_append]

/-- Through the whole of its call a process is where it would be by itself. -/
lemma writes_of_run {t : Sys n} {h : List (Sys n × Event n × Sys n)} (ho : s.Orderly b m)
    (hc : s.control p = .service old) (hstring : HasString (m.memory p) old.sA1 k)
    (h10 : old.sA0 = writeToTerminalNum) (hlength : 0 ≤ old.sA2.toInt)
    (hr : Run (Sys.step b) (fun u e => u.Agrees e ∧ e.Awaits p) s h t) :
    (t.control p).Writes (m.memory p) old (actsOf b p h) (statusesOf p h) := by
  have hend : (∃ m', t.Orderly b m' ∧ m' p = m p) ∧
      (t.control p).Writes (m.memory p) old (actsOf b p h) (statusesOf p h) := by
    induction hr with
    | nil =>
      refine ⟨⟨m, ho, rfl⟩, ?_⟩
      rw [hc]
      exact ⟨rfl, rfl, rfl⟩
    | @snoc h u u' ev _ hok hs ih =>
      obtain ⟨⟨m', ho', hm'⟩, hwrites⟩ := ih
      have hnext : (u'.control p).Writes (m.memory p) old (actsOf b p (h ++ [(u, ev, u')]))
          (statusesOf p (h ++ [(u, ev, u')])) := by
        unfold actsOf statusesOf
        rw [List.flatMap_append, List.flatMap_append, List.flatMap_singleton,
          List.flatMap_singleton]
        by_cases hrun : ∃ input, ev = .run p input
        · obtain ⟨input, rfl⟩ := hrun
          have hmem := Flat.memory_congr hm'
          simp only [actsIn, statusIn, if_pos]
          unfold step at hs
          dsimp only at hs
          split_ifs at hs
          rw [← hmem] at hwrites hstring ⊢
          exact run_writes ho'.shows ho'.paged hstring h10 hlength hwrites hs
        · have hquiet : actsIn b p (u, ev, u') = [] ∧ statusIn p (u, ev, u') = [] := by
            cases ev with
            | run q input =>
              have hqp : q ≠ p := by
                rintro rfl
                exact hrun ⟨input, rfl⟩
              exact ⟨if_neg hqp, if_neg hqp⟩
            | _ => exact ⟨rfl, rfl⟩
          rw [hquiet.1, hquiet.2, List.append_nil, List.append_nil,
            (step_moves hs).control_of_ne hok.2 fun input he => hrun ⟨input, he⟩]
          exact hwrites
      refine ⟨⟨_, ho'.moves (step_moves hs) hok.1, ?_⟩, hnext⟩
      exact (Flat.after_of_awaits hok.2 hnext.not_inTape).trans hm'
  exact hend.2

end Sys

/-- In every run in which the re-checks of shared pages find what the page table says, a process
that writes a string in its private pages to its terminal transmits a first part of the string
as it has last stored it, and is not terminated. When it is in user mode again, it has done what
it would have done by itself with that memory and those statuses of the terminal. -/
theorem output_is_string {s₀ t : Sys n} {h h' : List (Sys n × Event n × Sys n)} (h0 : s₀.Fresh)
    (hr : Run (Sys.step b) Sys.Agrees s₀ h s) (hcall : s.step b (.syscall p st) = some s')
    (h10 : st.sA0 = writeToTerminalNum) (hlength : 0 ≤ st.sA2.toInt)
    (hstring : HasString ((Flat.ofRun b s₀ h).memory p) st.sA1 k)
    (hr' : Run (Sys.step b) (fun u e => u.Agrees e ∧ e.Awaits p) s' h' t) :
    (∃ i ≤ k, transmitted (actsOf b p h') =
        charsAt ((Flat.ofRun b s₀ h).memory p) st.sA1 i) ∧
      ¬ (t.control p).Over ∧
      ∀ st', t.control p = .user st' → ∃ fuel, (userSyscallHandler st.advancePc).performs
        ((Flat.ofRun b s₀ h).memory p) (fun j => (statusesOf p h').getD j 0) fuel =
          some (actsOf b p h', .reloaded st') := by
  have ho := Sys.Orderly.run h0 hr
  have hmoves := Sys.step_moves hcall
  have hservice : s'.control p = .service st.advancePc := by
    unfold Sys.step at hcall
    dsimp only at hcall
    split_ifs at hcall
    obtain rfl := Option.some.inj hcall
    exact Sys.goto_control_self _ _ _
  have hflat : (Flat.ofRun b s₀ h).after b (s, .syscall p st, s') p = Flat.ofRun b s₀ h p := by
    unfold Flat.after
    funext i
    dsimp only
    rw [if_neg (by rw [hservice]; exact not_false)]
  have hmem := Flat.memory_congr hflat
  have hstring' : HasString ((Flat.ofRun b s₀ h).memory p) st.advancePc.sA1 k := hstring
  rw [← hmem] at hstring'
  have hwrites := Sys.writes_of_run (ho.moves hmoves trivial) hservice hstring' h10 hlength hr'
  have hout := hwrites.transmitted_eq hstring' h10 hlength
  rw [hmem] at hwrites hout
  refine ⟨hout, hwrites.not_over, fun st' hc => ?_⟩
  rw [hc] at hwrites
  exact hwrites

/-- The second process evicts the string of the first one after the first of its two characters. -/
theorem output_is_string_evicted : ∃ h s s' h' t,
    Run (Sys.step twoProcesses) Sys.Agrees (Sys.blank 2) h s ∧
      s.step twoProcesses (.syscall 0 (writeCall 2)) = some s' ∧
      Run (Sys.step twoProcesses) (fun u e => u.Agrees e ∧ e.Awaits 0) s' h' t ∧
      transmitted (actsOf twoProcesses 0 h') = [0x68, 0x69] ∧ ∃ st' fuel,
        t.control 0 = .user st' ∧ (userSyscallHandler (writeCall 2).advancePc).performs
          ((Flat.ofRun twoProcesses (Sys.blank 2) h).memory 0)
          (fun j => (statusesOf 0 h').getD j 0) fuel =
            some (actsOf twoProcesses 0 h', .reloaded st') := by
  obtain ⟨h, s, s', h', t, hr, hcall, hr', hq⟩ := exists_run_around (Sys.step twoProcesses)
    Sys.Agrees (fun u e => u.Agrees e ∧ e.Awaits 0) (Sys.blank 2)
    (faulting 0 0x80000000 ++ loading 0 ++
      [.run 0 none, .access 0 ⟨0, 0, 0, 0, fun _ => 0⟩ 0x80000000 (.store 0x6968)])
    (.syscall 0 (writeCall 2))
    ([.run 0 (some 0), .run 0 none, .run 0 none, .run 0 (some 5)] ++ faulting 1 0x80000000 ++
      loading 1 ++ [.run 1 none] ++ reading 1 0x80001000 false ++ reading 1 0x80002000 false ++
      reading 1 0x80003000 false ++ reading 1 0x80004000 false ++ reading 1 0x80005000 true ++
      .run 0 none :: (reading 0 0x80000000 true).tail ++
      [.run 0 none, .run 0 none, .run 0 (some 5), .run 0 none, .run 0 none])
    (fun h h' t => HasString ((Flat.ofRun twoProcesses (Sys.blank 2) h).memory 0) 0x80000000 2 ∧
      transmitted (actsOf twoProcesses 0 h') = [0x68, 0x69] ∧ t.InUser 0) (by decide +kernel)
  obtain ⟨hstring, hout, st', hc⟩ := of_decide_eq_true hq
  obtain ⟨-, -, hend⟩ := output_is_string Sys.fresh_blank hr hcall (by decide) (by decide) hstring
    hr'
  obtain ⟨fuel, hperforms⟩ := hend st' hc
  exact ⟨h, s, s', h', t, hr, hcall, hr', hout, st', fuel, hc, hperforms⟩

end Kaya.Support
