import Cemu.Lib.BitMask
import Cemu.Riscv64.MipWires

/-!
# riscv64: which CSR instructions are legal

Reading and writing a CSR are gated in two functions. Both agree on which numbers they accept
and who may reach them, and the write side refuses the read-only ones besides. Two things are
left. The numbers accepted go beyond the registers there are: PMP configuration has two words,
and the six even numbers behind them pass too. And whether an instruction writes at all is for
its encoding to say, but the register forms look at the value of the source.
-/

namespace Cemu.Rv64

open List

variable {D : Type}

/-- The registers there are, by number. An array has one for each element, and the eight
configurations of a `pmpcfg` word make it one register with an even number. -/
def csrNumbers : List (BitVec 64) :=
  [0x001, 0x002, 0x003,
   0x100, 0x104, 0x105, 0x106, 0x10A, 0x140, 0x141, 0x142, 0x143, 0x144, 0x14D, 0x180, 0x5A8,
   0x300, 0x301, 0x302, 0x303, 0x304, 0x305, 0x306, 0x30A, 0x320, 0x340, 0x341, 0x342, 0x343,
   0x344, 0x744, 0x7A0, 0x7A1, 0x7A2, 0x7A3, 0x7A4, 0x7A5,
   0xB00, 0xB02, 0xC00, 0xC01, 0xC02, 0xF11, 0xF12, 0xF13, 0xF14] ++
  (range kMhpmCount).map (0xB03 + .ofNat 64 ·) ++ (range kMhpmCount).map (0x323 + .ofNat 64 ·) ++
  (range (kPmpCount / 8)).map (0x3A0 + 2 * .ofNat 64 ·) ++
  (range kPmpCount).map (0x3B0 + .ofNat 64 ·)

def CsrExists (addr : BitVec 64) : Prop := addr ∈ csrNumbers

instance (addr : BitVec 64) : Decidable (CsrExists addr) := inferInstanceAs (Decidable (_ ∈ _))

/-- The even numbers between the last `pmpcfg` word and the end of its range. -/
def behindPmpcfg : List (BitVec 64) := [0x3A4, 0x3A6, 0x3A8, 0x3AA, 0x3AC, 0x3AE]

def counterCsrs : List (BitVec 64) := [0xB00, 0xB02, 0xC00, 0xC01, 0xC02]

def counterGate (addr : BitVec 64) : Option Nat :=
  if addr = 0xC00 then some 0 else if addr = 0xC01 then some 1 else if addr = 0xC02 then some 2
  else none

/-- A number that one of the two switches or the counter gate has a case for. -/
def CsrDecoded (addr : BitVec 64) : Prop := addr ∈ counterCsrs ∨ (csrOf addr).isSome

instance (addr : BitVec 64) : Decidable (CsrDecoded addr) := inferInstanceAs (Decidable (_ ∨ _))

def CsrReadOnly (addr : BitVec 64) : Prop := addr >>> 10 = 3 ∨ addr = 0x7A4

instance (addr : BitVec 64) : Decidable (CsrReadOnly addr) := inferInstanceAs (Decidable (_ ∨ _))

/-- The current mode may use the register: by its number, by TVM for `satp`, and by the counter
enables for the user counters. -/
structure CsrAccessible (s : RiscvState) (addr : BitVec 64) : Prop where
  priv : csrPriv addr ≤ s.priv
  tvm : addr = 0x180 → ¬(s.priv = kPrivSupervisor ∧ s.mstatus &&& kMstatusTvm ≠ 0)
  counter : ∀ k, counterGate addr = some k → s.priv < kPrivMachine →
    s.mcounteren.getLsbD k = true ∧ (s.priv = kPrivUser → s.scounteren.getLsbD k = true)

structure IsZicsr (i : BitVec 32) : Prop where
  system : opcode i = 0x73
  form : f3 i ≠ 0 ∧ f3 i ≠ 4

/-- A writing form: csrrw, csrrwi, or a set or clear with a nonzero `rs1` field. -/
def CsrWrites (i : BitVec 32) : Prop := f3 i = 1 ∨ f3 i = 5 ∨ rs1 i ≠ 0

instance (i : BitVec 32) : Decidable (CsrWrites i) := inferInstanceAs (Decidable (_ ∨ _ ∨ _))

def CsrRefused (s : RiscvState) (i : BitVec 32) : Prop :=
  ¬CsrAccessible s (bits i 20 12) ∨ ¬CsrExists (bits i 20 12) ∨
    (CsrWrites i ∧ CsrReadOnly (bits i 20 12))

/-! ### The two gates -/

variable {addr : BitVec 64} {m : Machine D} {i : BitVec 32}

theorem mem_csrTable {c : Csr} (h : csrTable.lookup addr = some c) : (addr, c) ∈ csrTable := by
  obtain ⟨l1, l2, hl, -⟩ := lookup_eq_some_iff.mp h
  rw [hl]
  simp

theorem eq_add_of_range (base : BitVec 64) (hbase : base.toNat < 2 ^ 63) (hlo : base ≤ addr)
    (hhi : addr ≤ base + 15) : ∃ k < 16, addr = base + .ofNat 64 k :=
  ⟨(addr - base).toNat, by bv_omega, by rw [BitVec.ofNat_toNat, BitVec.setWidth_eq]; bv_omega⟩

/-- The switches accept the registers there are and the numbers behind the PMP configuration. -/
theorem csrDecoded_iff : CsrDecoded addr ↔ CsrExists addr ∨ addr ∈ behindPmpcfg := by
  constructor
  · rintro (hcounter | hsome)
    · have hall : counterCsrs.all (CsrExists ·) = true := by decide +kernel
      exact .inl (of_decide_eq_true (all_eq_true.mp hall addr hcounter))
    obtain ⟨c, hc⟩ := Option.isSome_iff_exists.mp hsome
    unfold csrOf at hc
    split at hc
    · next hlookup =>
      have hall : ∀ p ∈ csrTable, CsrExists p.1 := by decide +kernel
      exact .inl (hall _ (mem_csrTable hlookup))
    unfold csrRange at hc
    split at hc
    · next hr =>
      obtain ⟨k, hk, rfl⟩ := eq_add_of_range _ (by decide) hr.1 hr.2
      have hall : ∀ k < 16, CsrExists (0xB03 + .ofNat 64 k) := by decide +kernel
      exact .inl (hall k hk)
    split at hc
    · next hr =>
      obtain ⟨k, hk, rfl⟩ := eq_add_of_range _ (by decide) hr.1 hr.2
      have hall : ∀ k < 16, CsrExists (0x323 + .ofNat 64 k) := by decide +kernel
      exact .inl (hall k hk)
    split at hc
    · next hr =>
      obtain ⟨k, hk, rfl⟩ := eq_add_of_range 0x3A0 (by decide) hr.1 (by bv_omega)
      have hall : ∀ k < 16, (0x3A0 + .ofNat 64 k : BitVec 64) &&& 1 = 0 →
          0x3A0 + .ofNat 64 k ≤ (0x3AE : BitVec 64) →
          CsrExists (0x3A0 + .ofNat 64 k) ∨ 0x3A0 + .ofNat 64 k ∈ behindPmpcfg := by
        decide +kernel
      exact hall k hk hr.2.2 hr.2.1
    split at hc
    · next hr =>
      obtain ⟨k, hk, rfl⟩ := eq_add_of_range 0x3B0 (by decide) hr.1 hr.2
      have hall : ∀ k < 16, CsrExists (0x3B0 + .ofNat 64 k) := by decide +kernel
      exact .inl (hall k hk)
    · cases hc
  · intro h
    have hall : (csrNumbers ++ behindPmpcfg).all (CsrDecoded ·) = true := by decide +kernel
    exact of_decide_eq_true (all_eq_true.mp hall addr (mem_append.mpr h))

def Csr.isReadOnly : Csr → Bool
  | .tinfo | .mvendorid | .marchid | .mimpid | .mhartid => true
  | _ => false

theorem csrOf_facts {c : Csr} (h : csrOf addr = some c) :
    (c = .satp ↔ addr = 0x180) ∧ (c.isReadOnly = true ↔ CsrReadOnly addr) ∧ addr ∉ counterCsrs := by
  unfold csrOf at h
  split at h
  · next c' hlookup =>
    cases h
    have hall : ∀ p ∈ csrTable, (p.2 = .satp ↔ p.1 = 0x180) ∧
        (p.2.isReadOnly = true ↔ CsrReadOnly p.1) ∧ p.1 ∉ counterCsrs := by decide
    exact hall _ (mem_csrTable hlookup)
  · -- the array ranges lie below the read-only numbers
    have hrange : c ≠ .satp ∧ c.isReadOnly = false ∧ addr ≠ 0x180 ∧ ¬CsrReadOnly addr ∧
        addr ∉ counterCsrs := by
      simp only [CsrReadOnly, counterCsrs, mem_cons, not_mem_nil, or_false]
      unfold csrRange at h
      split at h
      · cases h
        refine ⟨by simp, rfl, ?_⟩
        bv_omega
      split at h
      · cases h
        refine ⟨by simp, rfl, ?_⟩
        bv_omega
      split at h
      · cases h
        refine ⟨by simp, rfl, ?_⟩
        bv_omega
      split at h
      · cases h
        refine ⟨by simp, rfl, ?_⟩
        bv_omega
      · cases h
    obtain ⟨hsatp, hro, haddr, hnro, hcnt⟩ := hrange
    exact ⟨iff_of_false hsatp haddr, iff_of_false (by simp [hro]) hnro, hcnt⟩

theorem readCounter_none (h : addr ∉ counterCsrs) : readCounter m addr = none := by
  simp only [counterCsrs, mem_cons, not_or] at h
  obtain ⟨hb0, hb2, hc0, hc1, hc2⟩ := h
  unfold readCounter
  simp only [hb0, hb2, hc0, hc1, hc2, or_self, if_false, ite_self]

theorem counter_gates (s : RiscvState) (k : Nat) (v : BitVec 64) :
    (if s.priv < kPrivMachine ∧ s.mcounteren &&& 1#64 <<< k = 0 then none
      else if s.priv < kPrivMachine ∧ s.priv = kPrivUser ∧ s.scounteren &&& 1#64 <<< k = 0 then none
      else some v).isSome ↔
      (s.priv < kPrivMachine → s.mcounteren.getLsbD k = true ∧
        (s.priv = kPrivUser → s.scounteren.getLsbD k = true)) := by
  rw [show 0 = 0#64 from rfl]
  simp only [BitMask.and_bit_eq_zero]
  split
  · next h =>
    refine iff_of_false Bool.false_ne_true fun hall => ?_
    exact Bool.noConfusion (h.2.symm.trans (hall h.1).1)
  rename_i h
  split
  · next h' =>
    refine iff_of_false Bool.false_ne_true fun hall => ?_
    exact Bool.noConfusion (h'.2.2.symm.trans ((hall h'.1).2 h'.2.1))
  · next h' =>
    refine iff_of_true rfl fun hlt => ⟨?_, fun hu => ?_⟩
    · exact Bool.not_eq_false _ ▸ fun hz => h ⟨hlt, hz⟩
    · exact Bool.not_eq_false _ ▸ fun hz => h' ⟨hlt, hu, hz⟩

theorem csrAccessible_counter {s : RiscvState} {k : Nat} (hgate : counterGate addr = some k)
    (hpriv : csrPriv addr ≤ s.priv) (hsatp : addr ≠ 0x180) :
    CsrAccessible s addr ↔ (s.priv < kPrivMachine → s.mcounteren.getLsbD k = true ∧
      (s.priv = kPrivUser → s.scounteren.getLsbD k = true)) := by
  constructor
  · intro h
    exact h.counter k hgate
  · intro h
    refine ⟨hpriv, fun hs => absurd hs hsatp, fun k' hk' => ?_⟩
    rw [hgate] at hk'
    cases hk'
    exact h

theorem readCounter_isSome (h : addr ∈ counterCsrs) (hpriv : csrPriv addr ≤ m.rs.priv) :
    (readCounter m addr).isSome ↔ CsrAccessible m.rs addr := by
  simp only [counterCsrs, mem_cons, not_mem_nil, or_false] at h
  rcases h with rfl | rfl | rfl | rfl | rfl
  · -- the machine counters are reached from M mode only
    have hm : ¬m.rs.priv < kPrivMachine := BitVec.not_lt.mpr hpriv
    refine iff_of_true (by simp [readCounter, hm])
      ⟨hpriv, fun hs => absurd hs (by decide), fun k hk => ?_⟩
    cases hk
  · have hm : ¬m.rs.priv < kPrivMachine := BitVec.not_lt.mpr hpriv
    refine iff_of_true (by simp [readCounter, hm])
      ⟨hpriv, fun hs => absurd hs (by decide), fun k hk => ?_⟩
    cases hk
  · rw [csrAccessible_counter (show counterGate 0xC00 = some 0 by decide) hpriv (by decide)]
    exact counter_gates m.rs 0 _
  · rw [csrAccessible_counter (show counterGate 0xC01 = some 1 by decide) hpriv (by decide)]
    exact counter_gates m.rs 1 _
  · rw [csrAccessible_counter (show counterGate 0xC02 = some 2 by decide) hpriv (by decide)]
    exact counter_gates m.rs 2 _

theorem csrRead_isSome (m : Machine D) (c : Csr) : (csrRead m c).isSome ↔
      (c = .satp → ¬(m.rs.priv = kPrivSupervisor ∧ m.rs.mstatus &&& kMstatusTvm ≠ 0)) := by
  by_cases hc : c = .satp
  · subst hc
    rw [csrRead]
    split
    · next h => exact iff_of_false Bool.false_ne_true fun hall => hall rfl h
    · next h => exact iff_of_true rfl fun _ => h
  · refine iff_of_true ?_ fun h => absurd h hc
    cases c <;> first | rfl | exact absurd rfl hc

theorem csrWrite_isSome (s : RiscvState) (c : Csr) (val nextPc : BitVec 64) :
    (csrWrite s c val nextPc).isSome ↔ c.isReadOnly = false ∧
        (c = .satp → ¬(s.priv = kPrivSupervisor ∧ s.mstatus &&& kMstatusTvm ≠ 0)) := by
  by_cases hc : c = .satp
  · subst hc
    dsimp only [csrWrite]
    split
    · next h => exact iff_of_false Bool.false_ne_true fun hall => hall.2 rfl h
    · next h =>
      refine iff_of_true ?_ ⟨rfl, fun _ => h⟩
      split <;> rfl
  · cases c <;> first
      | exact absurd rfl hc
      | exact iff_of_true rfl ⟨rfl, fun h => absurd h hc⟩
      | exact iff_of_false Bool.false_ne_true fun h => Bool.noConfusion h.1

theorem riscvCsrRead_isSome (m : Machine D) (addr : BitVec 64) :
    (riscvCsrRead m addr).isSome ↔ CsrAccessible m.rs addr ∧ CsrDecoded addr := by
  rw [riscvCsrRead]
  by_cases hpriv : m.rs.priv < csrPriv addr
  · rw [if_pos hpriv]
    exact iff_of_false Bool.false_ne_true fun h => absurd hpriv (BitVec.not_lt.mpr h.1.priv)
  rw [if_neg hpriv]
  have hle := BitVec.not_lt.mp hpriv
  by_cases hcounter : addr ∈ counterCsrs
  · have hcsr : csrOf addr = none := by
      cases hc : csrOf addr with
      | none => rfl
      | some c => exact absurd hcounter (csrOf_facts hc).2.2
    have hgate := readCounter_isSome hcounter hle
    rw [hcsr, and_iff_left (.inl hcounter), ← hgate]
    cases readCounter m addr <;> rfl
  · rw [readCounter_none hcounter]
    have hgate : counterGate addr = none := by
      simp only [counterCsrs, mem_cons, not_mem_nil, or_false, not_or] at hcounter
      obtain ⟨-, -, hc0, hc1, hc2⟩ := hcounter
      rw [counterGate, if_neg hc0, if_neg hc1, if_neg hc2]
    cases hc : csrOf addr with
    | none =>
      refine iff_of_false Bool.false_ne_true fun h => ?_
      rcases h.2 with hmem | hsome
      · exact hcounter hmem
      · rw [hc] at hsome
        cases hsome
    | some c =>
      rw [Option.bind_some, csrRead_isSome, (csrOf_facts hc).1]
      constructor
      · intro h
        exact ⟨⟨hle, h, fun k hk => by rw [hgate] at hk; cases hk⟩, .inr (by rw [hc]; rfl)⟩
      · intro h
        exact h.1.tvm

theorem riscvCsrWrite_isSome {s : RiscvState} (hacc : CsrAccessible s addr) (hex : CsrDecoded addr)
    (val nextPc : BitVec 64) : (riscvCsrWrite s addr val nextPc).isSome ↔ ¬CsrReadOnly addr := by
  rw [riscvCsrWrite, if_neg (BitVec.not_lt.mpr hacc.priv)]
  by_cases hb0 : addr = 0xB00
  · rw [hb0]
    exact iff_of_true rfl (by decide)
  rw [if_neg hb0]
  by_cases hb2 : addr = 0xB02
  · rw [hb2]
    exact iff_of_true rfl (by decide)
  rw [if_neg hb2]
  cases hc : csrOf addr with
  | none =>
    -- what is left are the user counters
    refine iff_of_false Bool.false_ne_true (not_not_intro ?_)
    rcases hex with hmem | hsome
    · simp only [counterCsrs, mem_cons, not_mem_nil, or_false, hb0, hb2, false_or] at hmem
      rcases hmem with rfl | rfl | rfl <;> decide
    · rw [hc] at hsome
      cases hsome
  | some c =>
    obtain ⟨hsatp, hro, -⟩ := csrOf_facts hc
    rw [Option.bind_some, csrWrite_isSome, ← hro, Bool.not_eq_true]
    exact and_iff_left fun h => hacc.tvm (hsatp.mp h)

/-! ### The instruction -/

theorem csrWriteValue_isSome (hi : IsZicsr i) (old src : BitVec 64) :
    (csrWriteValue (f3 i) old src).isSome ↔ (f3 i = 1 ∨ f3 i = 5) ∨ src ≠ 0 := by
  obtain ⟨hzero, hfour⟩ := hi.form
  have hforms : ∀ f : BitVec 3, f ≠ 0 → f ≠ 4 →
      (f &&& 3 = 1 ∧ (f = 1 ∨ f = 5)) ∨ ((f &&& 3 = 2 ∨ f &&& 3 = 3) ∧ ¬(f = 1 ∨ f = 5)) := by
    decide
  have hite (v : BitVec 64) : (if src ≠ 0 then some v else none).isSome ↔ src ≠ 0 := by
    split
    · next h => exact iff_of_true rfl h
    · next h => exact iff_of_false Bool.false_ne_true h
  unfold csrWriteValue
  rcases hforms (f3 i) hzero hfour with ⟨hf, hrw⟩ | ⟨hf, hrw⟩
  · rw [hf]
    exact iff_of_true rfl (.inl hrw)
  rw [or_iff_right hrw]
  rcases hf with hf | hf
  · rw [hf]
    exact hite _
  · rw [hf]
    exact hite _

theorem csrSource_ne_zero (m : Machine D) (i : BitVec 32) :
    csrSource (m.setX 0 0) i ≠ 0 ↔ rs1 i ≠ 0 ∧ (¬5 ≤ f3 i → m.cpu.gpr (rs1 i) ≠ 0) := by
  unfold csrSource
  split
  · next himm =>
    have hext : ∀ r : BitVec 5, r.setWidth 64 ≠ 0 ↔ r ≠ 0 := by decide
    rw [hext]
    exact (and_iff_left fun h => absurd himm h).symm
  rename_i hreg
  change Function.update m.cpu.gpr 0 0 (rs1 i) ≠ 0 ↔ _
  by_cases hx0 : rs1 i = 0
  · rw [hx0]
    exact iff_of_false (not_not_intro rfl) fun h => h.1 rfl
  · rw [Function.update_of_ne hx0]
    exact ⟨fun h => ⟨hx0, fun _ => h⟩, fun h => h.2 hreg⟩

theorem csrOp_refuses (hi : IsZicsr i) (n : BitVec 64) (m : Machine D) :
    let refused := ¬(CsrAccessible m.rs (bits i 20 12) ∧ CsrDecoded (bits i 20 12)) ∨
      (((f3 i = 1 ∨ f3 i = 5) ∨ csrSource m i ≠ 0) ∧ CsrReadOnly (bits i 20 12))
    (refused ∧ csrOp n i m = .raise ⟨kExIllegal, i.setWidth 64, none⟩ m) ∨
      (¬refused ∧ ∃ m', csrOp n i m = .ok () m') := by
  intro refused
  have hread := riscvCsrRead_isSome m (bits i 20 12)
  unfold csrOp
  rw [RaiseM.bind_apply, RaiseM.get_apply, Outcome.bind_ok]
  cases hr : riscvCsrRead m (bits i 20 12) with
  | none =>
    rw [hr] at hread
    exact .inl ⟨.inl fun h => Bool.noConfusion (hread.mpr h), rfl⟩
  | some old =>
    rw [hr] at hread
    have hok := hread.mp rfl
    have hwrites := csrWriteValue_isSome hi old (csrSource m i)
    simp only
    rw [show (if 5 ≤ f3 i then (rs1 i).setWidth 64 else m.cpu.gpr (rs1 i)) = csrSource m i from rfl]
    cases hw : csrWriteValue (f3 i) old (csrSource m i) with
    | none =>
      rw [hw] at hwrites
      have hno : ¬refused := by
        rintro (h | h)
        · exact h hok
        · exact Bool.noConfusion (hwrites.mpr h.1)
      exact .inr ⟨hno, _, rfl⟩
    | some v =>
      rw [hw] at hwrites
      have hwrite := riscvCsrWrite_isSome hok.1 hok.2 v (m.cpu.pc + n)
      simp only
      cases hs : riscvCsrWrite m.rs (bits i 20 12) v (m.cpu.pc + n) with
      | none =>
        rw [hs] at hwrite
        have hro : CsrReadOnly (bits i 20 12) := by
          by_contra hrw
          exact Bool.noConfusion (hwrite.mpr hrw)
        exact .inl ⟨.inr ⟨hwrites.mp rfl, hro⟩, rfl⟩
      | some rs =>
        rw [hs] at hwrite
        have hno : ¬refused := by
          rintro (h | h)
          · exact h hok
          · exact hwrite.mp rfl h.2
        exact .inr ⟨hno, _, rfl⟩

/-- A set or clear of a read-only register whose `rs1` field is not x0 while the register it names
holds zero: a writing form that the code takes for a read. -/
structure ZeroSourceWrite (m : Machine D) (i : BitVec 32) : Prop where
  accessible : CsrAccessible m.rs (bits i 20 12)
  present : CsrExists (bits i 20 12)
  readOnly : CsrReadOnly (bits i 20 12)
  form : f3 i = 2 ∨ f3 i = 3
  field : rs1 i ≠ 0
  zero : m.cpu.gpr (rs1 i) = 0

/-- A number behind the PMP configuration, in a mode that may use it: no such register exists, and
the code reads or writes past its array. -/
structure PastPmpcfg (m : Machine D) (i : BitVec 32) : Prop where
  accessible : CsrAccessible m.rs (bits i 20 12)
  behind : bits i 20 12 ∈ behindPmpcfg

/-- The instruction raises illegal-instruction exactly when it has to be refused, and whatever it
raises, it leaves the control registers and the interrupt lines as they were. -/
structure CsrLegality (fp : FpBackend) (m : Machine D) (i : BitVec 32) : Prop where
  illegal : (∃ m', commit fp (.full i) m = .raise ⟨kExIllegal, i.setWidth 64, none⟩ m') ↔
    CsrRefused m.rs i
  unchanged : ∀ t m', commit fp (.full i) m = .raise t m' → m'.rs = m.rs ∧ m'.w = m.w

theorem exec_zicsr (fp : FpBackend) (h : IsZicsr i) :
    riscvExecInst (D := D) fp i = thenFall 4 (csrOp 4 i) := by
  rw [riscvExecInst, riscvExecInstAt, h.system]
  exact (if_neg h.form.1).trans (if_pos h.form.2)

/-- What `csr_op` refuses, in the terms of `csrOp_refuses`. -/
def CsrOpRefuses (m : Machine D) (i : BitVec 32) : Prop :=
  ¬(CsrAccessible m.rs (bits i 20 12) ∧ CsrDecoded (bits i 20 12)) ∨
    (((f3 i = 1 ∨ f3 i = 5) ∨ csrSource (m.setX 0 0) i ≠ 0) ∧ CsrReadOnly (bits i 20 12))

theorem refused_iff_of_exists (hi : IsZicsr i)
    (hdec : CsrDecoded (bits i 20 12) ↔ CsrExists (bits i 20 12)) :
    (CsrOpRefuses m i ↔ CsrRefused m.rs i) ↔ ¬ZeroSourceWrite m i := by
  have hforms : ∀ f : BitVec 3, f ≠ 0 → f ≠ 4 → ¬(f = 1 ∨ f = 5) → (¬5 ≤ f ↔ f = 2 ∨ f = 3) := by
    decide
  have hreg := hforms (f3 i) hi.form.1 hi.form.2
  rw [CsrOpRefuses, csrSource_ne_zero, hdec]
  constructor
  · intro hiff hz
    have hrw : ¬(f3 i = 1 ∨ f3 i = 5) := by
      rcases hz.form with h | h <;> rw [h] <;> decide
    rcases hiff.mpr (.inr (.inr ⟨.inr (.inr hz.field), hz.readOnly⟩)) with h | ⟨h | h, -⟩
    · exact h ⟨hz.accessible, hz.present⟩
    · exact hrw h
    · exact h.2 ((hreg hrw).mpr hz.form) hz.zero
  · intro hno
    constructor
    · rintro (h | ⟨h | h, hro⟩)
      · exact (not_and_or.mp h).imp_right .inl
      · exact .inr (.inr ⟨or_assoc.mp (.inl h), hro⟩)
      · exact .inr (.inr ⟨.inr (.inr h.1), hro⟩)
    · rintro (h | h | ⟨h, hro⟩)
      · exact .inl fun hok => h hok.1
      · exact .inl fun hok => h hok.2
      · by_cases hok : CsrAccessible m.rs (bits i 20 12) ∧ CsrExists (bits i 20 12)
        · refine .inr ⟨?_, hro⟩
          by_cases hrw : f3 i = 1 ∨ f3 i = 5
          · exact .inl hrw
          · have hfield : rs1 i ≠ 0 := (or_assoc.mpr h).resolve_left hrw
            exact .inr ⟨hfield, fun hlow hzero =>
              hno ⟨hok.1, hok.2, hro, (hreg hrw).mp hlow, hfield, hzero⟩⟩
        · exact .inl hok

theorem refused_iff (hi : IsZicsr i) : (CsrOpRefuses m i ↔ CsrRefused m.rs i) ↔
    ¬ZeroSourceWrite m i ∧ ¬PastPmpcfg m i := by
  by_cases hbehind : bits i 20 12 ∈ behindPmpcfg
  · have hall : behindPmpcfg.all
        (fun a => CsrDecoded a ∧ ¬CsrExists a ∧ ¬CsrReadOnly a) = true := by
      decide +kernel
    obtain ⟨hdec, hnone, hrw⟩ := of_decide_eq_true (all_eq_true.mp hall _ hbehind)
    have hrefused : CsrRefused m.rs i := .inr (.inl hnone)
    have hzero : ¬ZeroSourceWrite m i := fun h => hnone h.present
    rw [iff_true_right hrefused, and_iff_right hzero]
    constructor
    · rintro (h | h) hpast
      · exact h ⟨hpast.accessible, hdec⟩
      · exact hrw h.2
    · exact fun h => .inl fun hok => h ⟨hok.1, hbehind⟩
  · have hdec := csrDecoded_iff.trans (or_iff_left hbehind)
    rw [refused_iff_of_exists hi hdec]
    exact (and_iff_left fun h => hbehind h.behind).symm

/-- In every state, a Zicsr instruction is refused exactly as its encoding and its register demand,
and changes no CSR when it raises, if and only if it is not a set or clear of a read-only register
through a register other than x0 that holds zero, and does not reach a number behind the PMP
configuration. -/
theorem csr_legality_iff (fp : FpBackend) (m : Machine D) (i : BitVec 32) (hi : IsZicsr i) :
    CsrLegality fp m i ↔ ¬ZeroSourceWrite m i ∧ ¬PastPmpcfg m i := by
  have hcommit : commit fp (.full i) m =
      ((csrOp 4 i (m.setX 0 0)).bind fun _ m' => fallThrough 4 m').bind
        fun pc m' => .ok () (m'.setPc pc) := by
    change (riscvExecInst fp i (m.setX 0 0)).bind _ = _
    rw [exec_zicsr fp hi]
    rfl
  rw [← refused_iff hi]
  rcases csrOp_refuses hi 4 (m.setX 0 0) with ⟨hrefused, hraise⟩ | ⟨hrefused, m', hok⟩
  · rw [hraise] at hcommit
    have hex : ∃ m', commit fp (.full i) m = .raise ⟨kExIllegal, i.setWidth 64, none⟩ m' :=
      ⟨_, hcommit⟩
    have hsame : ∀ t m', commit fp (.full i) m = .raise t m' → m'.rs = m.rs ∧ m'.w = m.w := by
      intro t m' h
      rw [hcommit] at h
      cases h
      exact ⟨rfl, rfl⟩
    refine ⟨fun h => ?_, fun h => ⟨?_, hsame⟩⟩
    · exact iff_of_true hrefused (h.illegal.mp hex)
    · exact iff_of_true hex (h.mp hrefused)
  · rw [hok] at hcommit
    have hno : ∀ t m', commit fp (.full i) m ≠ .raise t m' := by
      intro t m' h
      rw [hcommit] at h
      cases h
    refine ⟨fun h => ?_, fun h => ⟨?_, fun t m' ht => absurd ht (hno t m')⟩⟩
    · exact iff_of_false hrefused fun hr => (h.illegal.mpr hr).elim fun m' hm => hno _ _ hm
    · exact iff_of_false (fun ⟨m', hm⟩ => hno _ _ hm) (mt h.mpr hrefused)

/-- csrrs x0, mhartid, x0 in M mode is a plain read. -/
theorem csr_legality_read_mhartid :
    IsZicsr 0xF1402073 ∧
      CsrLegality .idle (Machine.init World.unmapped 0 : Machine Unit) 0xF1402073 :=
  ⟨⟨by decide, by decide⟩, (csr_legality_iff _ _ _ ⟨by decide, by decide⟩).mpr
    ⟨fun h => h.field (by decide), fun h => absurd h.behind (by decide)⟩⟩

/-- csrrs x0, mhartid, x5 with x5 = 0 writes a read-only register and retires. -/
theorem csr_zeroSource_retires :
    let m : Machine Unit := .init .unmapped 0
    CsrRefused m.rs 0xF142A073 ∧ ¬CsrLegality .idle m 0xF142A073 := by
  intro m
  have hrefused : CsrRefused m.rs 0xF142A073 := .inr (.inr ⟨by decide, by decide⟩)
  refine ⟨hrefused, fun h => ?_⟩
  obtain ⟨m', hm'⟩ := h.illegal.mpr hrefused
  have hok : (commit .idle (.full 0xF142A073) m).result = some (.ok ()) := rfl
  rw [hm'] at hok
  cases hok

end Cemu.Rv64
