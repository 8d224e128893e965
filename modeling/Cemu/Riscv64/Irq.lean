import Cemu.Lib.BitMask
import Cemu.Riscv64.Step

/-!
# riscv64: the timer line and the choice of an interrupt

Two things the step does at a batch boundary. `riscv_sync_timer` drives the STIP line from mtime and
stimecmp, except while stimecmp is all ones; `riscv_deliver_interrupt` takes the first interrupt of
its scan order that is enabled for its own target mode.
-/

namespace Cemu.Rv64

open BitVec

variable {D : Type}

/-! ## The timer line -/

inductive TimerEvent where
  | write (val : BitVec 64)
  | sync (now : BitVec 64)
  deriving Repr

variable (m : Machine D)

def Machine.atTime (now : BitVec 64) : Machine D :=
  m.setWorld { m.w with timer := some now }

def timerStep : TimerEvent → Machine D
  | .write val => m.setRs ((riscvCsrWrite m.rs 0x14D val m.cpu.pc).getD m.rs)
  | .sync now => riscvSyncTimer (m.atTime now)

def AtEverySync (P : Machine D → BitVec 64 → Prop) (m : Machine D) : List TimerEvent → Prop
  | [] => True
  | e :: es => (∀ now, e = .sync now → P m now) ∧ AtEverySync P (timerStep m e) es

def StipFollows (now : BitVec 64) : Prop :=
  (timerStep m (.sync now)).w.ds.extIrq &&& kIrqStip ≠ 0 ↔ m.rs.stimecmp ≤ now

def StipSettled (now : BitVec 64) : Prop :=
  m.rs.stimecmp = ~~~0 → (m.w.ds.extIrq &&& kIrqStip ≠ 0 ↔ now = ~~~0)

theorem riscvSetExtIrq_stip (w : World D) (level : Bool) :
    (riscvSetExtIrq w kIrqStip level).ds.extIrq &&& kIrqStip ≠ 0 ↔ level = true := by
  cases level with
  | false =>
    have hclear : (w.ds.extIrq &&& ~~~kIrqStip) &&& kIrqStip = 0 := by
      rw [BitVec.and_assoc]
      exact and_zero
    simpa [riscvSetExtIrq] using hclear
  | true =>
    have hset : (w.ds.extIrq ||| kIrqStip) &&& kIrqStip = kIrqStip := by
      grind
    have hne : kIrqStip ≠ 0 := by decide
    simpa [riscvSetExtIrq, hset] using hne

theorem timerStep_sync (now : BitVec 64) :
    timerStep m (.sync now) = if m.rs.stimecmp ≠ ~~~0 then
        (m.atTime now).setWorld
          (riscvSetExtIrq (m.atTime now).w kIrqStip (decide (m.rs.stimecmp ≤ now)))
      else m.atTime now := rfl

theorem stipFollows_iff (now : BitVec 64) : StipFollows m now ↔ StipSettled m now := by
  unfold StipFollows StipSettled
  rw [timerStep_sync]
  by_cases hcmp : m.rs.stimecmp = ~~~0
  · have hle : m.rs.stimecmp ≤ now ↔ now = ~~~0 := by
      rw [hcmp, le_def, ← toNat_inj]
      have htop : (~~~(0 : BitVec 64)).toNat = 2 ^ 64 - 1 := rfl
      omega
    rw [if_neg (not_not_intro hcmp), hle]
    exact ⟨fun h _ => h, fun h => h hcmp⟩
  · rw [if_pos hcmp]
    refine iff_of_true ?_ fun h => absurd h hcmp
    exact (riscvSetExtIrq_stip _ _).trans decide_eq_true_iff

/-- Over a run of stimecmp writes and samples, the line follows the comparison at every sample
exactly when it is settled at each sample with stimecmp all ones. -/
theorem stip_run_iff (es : List TimerEvent) :
    AtEverySync StipFollows m es ↔ AtEverySync StipSettled m es := by
  induction es generalizing m with
  | nil => exact .rfl
  | cons e es ih =>
    refine and_congr (forall_congr' fun now => ?_) (ih (timerStep m e))
    exact imp_congr_right fun _ => stipFollows_iff m now

/-- From reset: a compare value that has passed raises the line, and the write of all ones that is
to retire it leaves it high. -/
theorem stip_stays_high :
    let m := [.write 0, .sync 5, .write (~~~0)].foldl timerStep
      (.init .unmapped 0)
    m.rs.stimecmp = ~~~0 ∧ (timerStep m (.sync 6)).w.ds.extIrq &&& kIrqStip ≠ 0 ∧
      ¬(~~~0 : BitVec 64) ≤ 6 := by
  decide

/-! ## The choice of an interrupt -/

def TargetsM (s : RiscvState) (id : Nat) : Prop := s.mideleg >>> id &&& 1 = 0

instance (s : RiscvState) (id : Nat) : Decidable (TargetsM s id) :=
  inferInstanceAs (Decidable (_ = _))

/-- Enabled for its target mode: the target is above the current mode, or is the current mode with
its xIE set. -/
def GloballyEnabled (s : RiscvState) (id : Nat) : Prop :=
  if TargetsM s id then
    s.priv < kPrivMachine ∨ (s.priv = kPrivMachine ∧ s.mstatus &&& kMstatusMie ≠ 0)
  else s.priv < kPrivSupervisor ∨ (s.priv = kPrivSupervisor ∧ s.mstatus &&& kMstatusSie ≠ 0)

structure Takable (m : Machine D) (id : Nat) : Prop where
  known : id ∈ kOrder
  pending : (mipAll m &&& m.rs.mie) >>> id &&& 1 ≠ 0
  enabled : GloballyEnabled m.rs id

def tookInterrupt (id : Nat) : Machine D :=
  (m.setRs (riscvTrap m.cpu.pc m.rs (kIntBit ||| BitVec.ofNat 64 id) 0).2).setPc
    (riscvTrap m.cpu.pc m.rs (kIntBit ||| BitVec.ofNat 64 id) 0).1

def Taken (id : Nat) : Prop :=
  riscvDeliverInterrupt m ≠ m ∧ id ∈ kOrder ∧ riscvDeliverInterrupt m = tookInterrupt m id

def Before (i j : Nat) : Prop := kOrder.idxOf i < kOrder.idxOf j

/-- The choice of the privileged architecture: some interrupt is taken exactly when one can be; one
for M mode goes first; the order decides among those for one mode. -/
structure ChoosesWell (m : Machine D) : Prop where
  takes : riscvDeliverInterrupt m ≠ m ↔ ∃ id, Takable m id
  takable : ∀ id, Taken m id → Takable m id
  machineFirst : ∀ id, Taken m id → (∃ j, Takable m j ∧ TargetsM m.rs j) → TargetsM m.rs id
  inOrder : ∀ id j, Taken m id → Takable m j → (TargetsM m.rs j ↔ TargetsM m.rs id) → ¬Before j id

/-- No takable interrupt for S mode is scanned before all the takable ones for M mode. -/
def MachineScannedFirst : Prop :=
  ∀ id, Takable m id → ¬TargetsM m.rs id → (∃ j, Takable m j ∧ TargetsM m.rs j) →
    ∃ j, Takable m j ∧ TargetsM m.rs j ∧ Before j id

def scanTest (id : Nat) : Bool :=
  decide ((mipAll m &&& m.rs.mie) >>> id &&& 1 ≠ 0) && takeInterrupt m.rs id

theorem takeInterrupt_iff (s : RiscvState) (id : Nat) :
    takeInterrupt s id = true ↔ GloballyEnabled s id := by
  unfold takeInterrupt GloballyEnabled TargetsM
  by_cases hm : s.mideleg >>> id &&& 1 = 0
  · simp only [hm, ne_eq, not_true_eq_false, if_false, if_true]
    by_cases hp : s.priv = kPrivMachine <;> simp [hp]
  · simp only [hm, ne_eq, not_false_eq_true, if_true, if_false]
    by_cases hp : s.priv = kPrivSupervisor <;> simp [hp]

variable {m : Machine D} {id : Nat}

theorem scanTest_iff (hid : id ∈ kOrder) : scanTest m id = true ↔ Takable m id := by
  rw [scanTest, Bool.and_eq_true, decide_eq_true_iff, takeInterrupt_iff]
  exact ⟨fun h => ⟨hid, h.1, h.2⟩, fun h => ⟨h.pending, h.enabled⟩⟩

theorem riscvDeliverInterrupt_eq (m : Machine D) :
    riscvDeliverInterrupt m = match kOrder.find? (scanTest m) with
      | some id => tookInterrupt m id
      | none => m := rfl

theorem idxOf_find_le {p : Nat → Bool} {l : List Nat} {a b : Nat} (h : l.find? p = some b)
    (hp : p a = true) : l.idxOf b ≤ l.idxOf a := by
  induction l with
  | nil => cases h
  | cons x xs ih =>
    by_cases hx : p x = true
    · rw [List.find?_cons_of_pos hx] at h
      cases h
      simp
    rw [List.find?_cons_of_neg hx] at h
    have hb : p b = true := List.find?_some h
    have hxa : x ≠ a := fun he => hx (he ▸ hp)
    have hxb : x ≠ b := fun he => hx (he ▸ hb)
    rw [List.idxOf_cons_ne _ hxa, List.idxOf_cons_ne _ hxb]
    exact Nat.succ_le_succ (ih h)

theorem interrupt_cause : ∀ id ∈ kOrder, (kIntBit ||| .ofNat 64 id) &&& kIntBit ≠ 0 ∧
      ((kIntBit ||| .ofNat 64 id) &&& 0xfff).toNat = id := by
  decide

theorem trapToS_interrupt (s : RiscvState) (hid : id ∈ kOrder) :
    trapToS s (kIntBit ||| .ofNat 64 id) = true ↔ ¬TargetsM s id ∧ s.priv < kPrivMachine := by
  obtain ⟨hint, hnum⟩ := interrupt_cause id hid
  simp only [trapToS, hint, hnum, ne_eq, not_false_eq_true, if_true, Bool.and_eq_true,
    decide_eq_true_iff, TargetsM]

variable {cause : BitVec 64}

theorem riscvTrap_toS {s : RiscvState} (h : trapToS s cause = true) (pc tval : BitVec 64) :
    (riscvTrap pc s cause tval).2.priv = kPrivSupervisor ∧
      (riscvTrap pc s cause tval).2.scause = cause ∧
      (riscvTrap pc s cause tval).2.mstatus &&& kMstatusSie = 0 := by
  rw [riscvTrap, if_pos h]
  rw [and_or_distrib_right, BitMask.clear_and (by decide), BitVec.and_assoc]
  split <;> simp [kMstatusSpp, kMstatusSie]

theorem riscvTrap_toM {s : RiscvState} (h : ¬trapToS s cause = true) (pc tval : BitVec 64) :
    (riscvTrap pc s cause tval).2.priv = kPrivMachine ∧
      (riscvTrap pc s cause tval).2.mcause = cause ∧
      (s.priv = kPrivMachine → (riscvTrap pc s cause tval).2.mstatus &&& kMstatusMie = 0) := by
  rw [riscvTrap, if_neg h]
  refine ⟨rfl, rfl, fun hp => ?_⟩
  rw [and_or_distrib_right, BitMask.clear_and (by decide), BitVec.and_assoc, hp]
  simp [kPrivMachine, kMstatusMie]

theorem tookInterrupt_ne (h : Takable m id) : tookInterrupt m id ≠ m := by
  intro heq
  have hrs : (riscvTrap m.cpu.pc m.rs (kIntBit ||| .ofNat 64 id) 0).2 = m.rs :=
    congrArg (fun m => m.rs) heq
  have henabled := h.enabled
  rw [GloballyEnabled] at henabled
  by_cases ht : TargetsM m.rs id
  · have hto : ¬trapToS m.rs (kIntBit ||| .ofNat 64 id) = true :=
      fun hs => ((trapToS_interrupt m.rs h.known).mp hs).1 ht
    obtain ⟨hpriv, -, hmie⟩ := riscvTrap_toM hto m.cpu.pc 0
    rw [hrs] at hpriv hmie
    rw [if_pos ht] at henabled
    obtain hlt | ⟨-, hie⟩ := henabled
    · exact absurd hlt (by rw [hpriv]; decide)
    · exact hie (hmie hpriv)
  · rw [if_neg ht] at henabled
    have hlt : m.rs.priv < kPrivMachine := by
      obtain hlt | ⟨heq, -⟩ := henabled
      · exact BitVec.lt_trans hlt (by decide)
      · rw [heq]
        decide
    have hto := (trapToS_interrupt m.rs h.known).mpr ⟨ht, hlt⟩
    obtain ⟨hpriv, -, hsie⟩ := riscvTrap_toS hto m.cpu.pc 0
    rw [hrs] at hpriv hsie
    obtain hlt | ⟨-, hie⟩ := henabled
    · exact absurd hlt (by rw [hpriv]; decide)
    · exact hie hsie

theorem cause_inj : ∀ i ∈ kOrder, ∀ j ∈ kOrder,
    kIntBit ||| .ofNat 64 i = kIntBit ||| .ofNat 64 j → i = j := by
  decide

theorem tookInterrupt_inj {i j : Nat} (hi : i ∈ kOrder) (hj : j ∈ kOrder)
    (h : tookInterrupt m i = tookInterrupt m j) : i = j := by
  have hrs : (riscvTrap m.cpu.pc m.rs (kIntBit ||| .ofNat 64 i) 0).2 =
      (riscvTrap m.cpu.pc m.rs (kIntBit ||| .ofNat 64 j) 0).2 :=
    congrArg (fun m => m.rs) h
  apply cause_inj i hi j hj
  by_cases hsi : trapToS m.rs (kIntBit ||| .ofNat 64 i) = true <;>
    by_cases hsj : trapToS m.rs (kIntBit ||| .ofNat 64 j) = true
  · rw [← (riscvTrap_toS hsi m.cpu.pc 0).2.1, hrs, (riscvTrap_toS hsj m.cpu.pc 0).2.1]
  · have hp := (riscvTrap_toS hsi m.cpu.pc 0).1
    rw [hrs, (riscvTrap_toM hsj m.cpu.pc 0).1] at hp
    exact absurd hp (by decide)
  · have hp := (riscvTrap_toM hsi m.cpu.pc 0).1
    rw [hrs, (riscvTrap_toS hsj m.cpu.pc 0).1] at hp
    exact absurd hp (by decide)
  · rw [← (riscvTrap_toM hsi m.cpu.pc 0).2.1, hrs, (riscvTrap_toM hsj m.cpu.pc 0).2.1]

/-- The choice is the architecture's exactly when the takable interrupts for M mode are scanned
first. -/
theorem interrupt_choice_iff (m : Machine D) : ChoosesWell m ↔ MachineScannedFirst m := by
  cases hfind : kOrder.find? (scanTest m) with
  | none =>
    have hstay : riscvDeliverInterrupt m = m := by rw [riscvDeliverInterrupt_eq, hfind]
    have hnone : ∀ id, ¬Takable m id := fun id h =>
      List.find?_eq_none.mp hfind id h.known ((scanTest_iff h.known).mpr h)
    refine iff_of_true ⟨?_, ?_, ?_, ?_⟩ fun id h => absurd h (hnone id)
    · exact iff_of_false (fun h => h hstay) fun ⟨id, h⟩ => hnone id h
    · exact fun id h => absurd hstay h.1
    · exact fun id h => absurd hstay h.1
    · exact fun id j h => absurd hstay h.1
  | some first =>
    have hknown : first ∈ kOrder := List.mem_of_find?_eq_some hfind
    have hfirst : Takable m first := (scanTest_iff hknown).mp (List.find?_some hfind)
    have hrun : riscvDeliverInterrupt m = tookInterrupt m first := by
      rw [riscvDeliverInterrupt_eq, hfind]
    have hmoved : riscvDeliverInterrupt m ≠ m := by
      rw [hrun]
      exact tookInterrupt_ne hfirst
    have htaken : ∀ id, Taken m id ↔ id = first := by
      intro id
      constructor
      · rintro ⟨-, hid, h⟩
        exact tookInterrupt_inj hid hknown (h.symm.trans hrun)
      · rintro rfl
        exact ⟨hmoved, hknown, hrun⟩
    have hleast : ∀ j, Takable m j → ¬Before j first := by
      intro j hj
      exact Nat.not_lt.mpr (idxOf_find_le hfind ((scanTest_iff hj.known).mpr hj))
    constructor
    · intro h id hid hS hM
      have hfirstM := h.machineFirst first ((htaken first).mpr rfl) hM
      refine ⟨first, hfirst, hfirstM, ?_⟩
      have hne : kOrder.idxOf first ≠ kOrder.idxOf id := by
        intro heq
        have hid' : first = id := (List.idxOf_inj hknown).mp heq
        exact hS (hid' ▸ hfirstM)
      exact Nat.lt_of_le_of_ne
        (idxOf_find_le hfind ((scanTest_iff hid.known).mpr hid)) hne
    · intro h
      refine ⟨iff_of_true hmoved ⟨first, hfirst⟩, ?_, ?_, ?_⟩
      · intro id hid
        rw [(htaken id).mp hid]
        exact hfirst
      · intro id hid hM
        rw [(htaken id).mp hid]
        by_contra hS
        obtain ⟨j, hj, -, hbefore⟩ := h first hfirst hS hM
        exact hleast j hj hbefore
      · intro id j hid hj _
        rw [(htaken id).mp hid]
        exact hleast j hj

def partialMachine : Machine Unit :=
  (Machine.init World.unmapped 0).setRs
    { riscvInit with
      priv := kPrivUser, mideleg := kIrqSeip, mie := kIrqSeip ||| kIrqSsip,
      mip := kIrqSeip ||| kIrqSsip }

/-- SSI is for M mode and can be taken; the scan takes SEI into S mode. -/
theorem partial_delegation_takes_sei :
    (TargetsM partialMachine.rs 1 ∧ takeInterrupt partialMachine.rs 1 = true ∧
      (mipAll partialMachine &&& partialMachine.rs.mie) >>> 1 &&& 1 ≠ 0) ∧
    (riscvDeliverInterrupt partialMachine).rs.priv = kPrivSupervisor ∧
      (riscvDeliverInterrupt partialMachine).rs.scause = kIntBit ||| 9 := by
  decide

end Cemu.Rv64
