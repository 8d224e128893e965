import Cemu.Bus.Cmos
import Cemu.Riscv.Plic
import Cemu.Storage.IdeCommand

/-!
# Wide accesses to narrow registers

`PlicRead` and `PlicWrite` above the words of the PLIC, and the two port blocks whose handlers
ignore the size of an access: the bus-master registers of `ide.c` and the index and data ports of
`cmos.c`. An access `Splits` if it does what the accesses of one register each do, for every state
and value.
-/

namespace Cemu

open BitVec

/-! ### Ports -/

section

variable {σ : Type}

/-- The `n` byte reads at consecutive ports. -/
def readBytes (read : σ → Nat → BitVec 8 × σ) : Nat → σ → Nat → BitVec 32 × σ
  | 0, s, _ => (0, s)
  | n + 1, s, port =>
    let r := read s port
    let rest := readBytes read n r.2 (port + 1)
    (r.1.setWidth 32 ||| rest.1 <<< 8, rest.2)

def writeBytes (write : σ → Nat → BitVec 8 → σ) : Nat → σ → Nat → BitVec 32 → σ
  | 0, s, _, _ => s
  | n + 1, s, port, v => writeBytes write n (write s port (v.setWidth 8)) (port + 1) (v >>> 8)

def SplitsRead (read : σ → Nat → BitVec 8 × σ) (n port : Nat) : Prop :=
  ∀ s, ((read s port).1.setWidth 32, (read s port).2) = readBytes read n s port

def SplitsWrite (write : σ → Nat → BitVec 8 → σ) (n port : Nat) : Prop :=
  ∀ s v, write s port (v.setWidth 8) = writeBytes write n s port v

end

namespace Storage

variable (D : Type)

def BmdmaSplits (n reg : Nat) : Prop :=
  SplitsRead (fun ch reg => (bmdmaRead ch reg, ch)) n reg ∧
    SplitsWrite (fun (e : Engine (IdeChannel × World D)) reg v =>
      e.bind fun x => bmdmaWrite x.1 reg v x.2) n reg

def fullBmdma : IdeChannel :=
  { ideInit fun _ => emptyBay with bmdmaStatus := 1, bmdmaPrd := 0xffffffff }

/-- Only the two registers with a reserved byte behind them can be accessed as a pair. -/
theorem bmdmaSplits_iff {n reg : Nat} (hn : n = 2 ∨ n = 4) (hreg : reg + n ≤ 8) :
    BmdmaSplits D n reg ↔ n = 2 ∧ (reg = 0 ∨ reg = 2) := by
  constructor
  · intro h
    have hread := congrArg Prod.fst (h.1 fullBmdma)
    revert hread
    rcases hn with rfl | rfl
    · have hlt : reg < 7 := by omega
      interval_cases reg <;> decide +kernel
    · have hlt : reg < 5 := by omega
      interval_cases reg <;> decide +kernel
  · have hreserved (reg : Nat) (hreg : reg = 1 ∨ reg = 3) (e : Engine (IdeChannel × World D))
        v : e = e.bind fun x => bmdmaWrite x.1 reg v x.2 := by
      rcases hreg with rfl | rfl <;> cases e <;> rfl
    rintro ⟨rfl, rfl | rfl⟩
    · exact ⟨fun ch => by simp [readBytes, bmdmaRead], fun e v => hreserved 1 (.inl rfl) _ _⟩
    · exact ⟨fun ch => by simp [readBytes, bmdmaRead], fun e v => hreserved 3 (.inr rfl) _ _⟩

end Storage

namespace Cmos

section

variable {R : Type}

/-- The ports, in front of any register file `R`. -/
structure CmosDevice (R : Type) where
  index : BitVec 7
  nmiOff : Bool
  st : R

variable (readReg : R → BitVec 7 → BitVec 8 × R) (writeReg : R → BitVec 7 → BitVec 8 → R)

def kCmosIndexPort : Nat := 0x70

def cmosRead (c : CmosDevice R) (addr : Nat) : BitVec 8 × CmosDevice R :=
  if addr = kCmosIndexPort then (c.index.setWidth 8 ||| (if c.nmiOff then 0x80 else 0), c)
  else ((readReg c.st c.index).1, { c with st := (readReg c.st c.index).2 })

def cmosWrite (c : CmosDevice R) (addr : Nat) (val : BitVec 8) : CmosDevice R :=
  if addr = kCmosIndexPort then { c with nmiOff := val.getLsbD 7, index := val.setWidth 7 }
  else { c with st := writeReg c.st c.index val }

theorem or_shift_eq {a y : BitVec 8}
    (h : a.setWidth 32 = a.setWidth 32 ||| (y.setWidth 32 ||| 0#32 <<< 8) <<< 8) : y = 0 := by
  ext k hk
  have hbit := congrArg (·.getLsbD (8 + k)) h
  grind

/-- The word read reaches only the index port, so it splits exactly if the register file answers
every read with zero and keeps its state. -/
theorem cmosSplitsRead_iff :
    SplitsRead (cmosRead readReg) 2 kCmosIndexPort ↔ ∀ r i, readReg r i = (0, r) := by
  constructor
  · intro hread r i
    have h := hread ⟨i, false, r⟩
    have hvalue := or_shift_eq (congrArg Prod.fst h)
    have hst := congrArg (fun x => x.2.st) h
    exact Prod.ext hvalue hst.symm
  · intro hread c
    simp [readBytes, cmosRead, hread]

theorem cmosSplitsWrite_iff :
    SplitsWrite (cmosWrite writeReg) 2 kCmosIndexPort ↔ ∀ r i v, writeReg r i v = r := by
  constructor
  · intro hwrite r i v
    have hindex : ((i.setWidth 32 ||| v.setWidth 32 <<< 8).setWidth 8).setWidth 7 = i := by
      simp
    have hval : ((i.setWidth 32 ||| v.setWidth 32 <<< 8) >>> 8).setWidth 8 = v := by
      grind
    have hst : r =
        writeReg r (((i.setWidth 32 ||| v.setWidth 32 <<< 8).setWidth 8).setWidth 7) _ :=
      congrArg CmosDevice.st (hwrite ⟨i, false, r⟩ (i.setWidth 32 ||| v.setWidth 32 <<< 8))
    rw [hindex, hval] at hst
    exact hst.symm
  · intro hwrite c v
    simp [writeBytes, cmosWrite, hwrite]

end

def blankCmos : CmosState := ⟨fun _ => 0, 0, 0, false⟩

/-- Status D never reads as zero. -/
theorem not_cmosSplitsRead (host : Host) :
    ¬SplitsRead (cmosRead (cmosReadReg host)) 2 kCmosIndexPort := by
  intro h
  have hzero : (blankCmos.regs kRegStatusD ||| kStatusDVrt, blankCmos) = (0, blankCmos) :=
    (cmosSplitsRead_iff _).1 h blankCmos kRegStatusD
  exact absurd (congrArg Prod.fst hzero) (by decide)

/-- Status D can be written, and reads back what was. -/
theorem not_cmosSplitsWrite (host : Host) :
    ¬SplitsWrite (cmosWrite (cmosWriteReg host)) 2 kCmosIndexPort := by
  intro h
  have hkept : blankCmos.set kRegStatusD 1 = blankCmos :=
    (cmosSplitsWrite_iff _).1 h blankCmos kRegStatusD 1
  exact absurd (congrArg (·.regs kRegStatusD) hkept) (by decide)

end Cmos

/-! ### Words of the PLIC -/

namespace Plic

def plicRead (p : PlicDevice) (off size : Nat) : BitVec 64 × PlicDevice :=
  let low := readWord p (off / 4 * 4)
  if 4 < size ∧ off / 4 % 2 = 1 then
    let high := readWord low.2 (off / 4 * 4 + 4)
    (low.1.setWidth 64 ||| high.1.setWidth 64 <<< 32, high.2)
  else (low.1.setWidth 64, low.2)

def plicWrite (p : PlicDevice) (off size : Nat) (val : BitVec 64) : PlicDevice :=
  let p := writeWord p (off / 4 * 4) (val.setWidth 32)
  if 4 < size ∧ off / 4 % 2 = 1 then writeWord p (off / 4 * 4 + 4) ((val >>> 32).setWidth 32) else p

/-- An access of eight bytes at word `k` is one of the word and one of the next. -/
def PlicSplits (k : Nat) : Prop :=
  (∀ p, plicRead p (k * 4) 8 =
    ((readWord p (k * 4)).1.setWidth 64 |||
      (readWord (readWord p (k * 4)).2 (k * 4 + 4)).1.setWidth 64 <<< 32,
      (readWord (readWord p (k * 4)).2 (k * 4 + 4)).2)) ∧
  ∀ p val, plicWrite p (k * 4) 8 val =
    writeWord (writeWord p (k * 4) (val.setWidth 32)) (k * 4 + 4) ((val >>> 32).setWidth 32)

/-- The offset is that of a register. -/
def Decoded (off : Nat) : Prop :=
  if off < kPlicOffPending then 1 ≤ off / 4 ∧ off / 4 ≤ kPlicNumSrc
  else if off < kPlicOffEnable then (off - kPlicOffPending) / 4 < kPlicNumWords
  else if off < kPlicOffContext then (off - kPlicOffEnable) / kPlicEnableStride < kPlicNumCtx ∧
    (off - kPlicOffEnable) % kPlicEnableStride / 4 < kPlicNumWords
  else (off - kPlicOffContext) / kPlicContextStride < kPlicNumCtx ∧
    (off - kPlicOffContext) % kPlicContextStride / 4 < 2

section

variable {k off : Nat} {p : PlicDevice}

theorem readWord_undecoded (h : ¬Decoded off) (p : PlicDevice) : readWord p off = (0, p) := by
  unfold Decoded at h
  unfold readWord
  dsimp only
  split_ifs at h ⊢ with h1 h2 h3 hctx hfield hfield
  all_goals first | rfl | exact absurd ⟨hctx, by omega⟩ h

theorem readWord_even (hk : k % 2 = 0) (p : PlicDevice) : (readWord p (k * 4)).2 = p := by
  unfold readWord kPlicOffContext kPlicContextStride
  dsimp only
  split_ifs <;> first | rfl | (exfalso; omega)

theorem updateOutput_idem : updateOutput (updateOutput p) = updateOutput p := rfl

/-- The words at `4 k` and `4 k + 4` are in one region, and outside of the priorities a write of a
word that is no register only drives the outputs again. -/
theorem writeWord_undecoded (hk : k % 2 = 0) (h : ¬Decoded (k * 4 + 4)) (u v : BitVec 32) :
    writeWord (writeWord p (k * 4) u) (k * 4 + 4) v = writeWord p (k * 4) u := by
  have hregion (bound : Nat) (hbound : bound % 8 = 0) : k * 4 + 4 < bound ↔ k * 4 < bound := by
    omega
  unfold Decoded at h
  unfold writeWord
  simp only [hregion kPlicOffPending rfl, hregion kPlicOffEnable rfl, hregion kPlicOffContext rfl]
    at h ⊢
  by_cases h1 : k * 4 < kPlicOffPending
  · rw [if_pos h1] at h
    simp only [h1, if_true, if_neg h]
  by_cases h2 : k * 4 < kPlicOffEnable
  · simp only [h1, h2, if_true, if_false]
  by_cases h3 : k * 4 < kPlicOffContext
  · rw [if_neg h1, if_neg h2, if_pos h3] at h
    simp only [h1, h2, h3, if_true, if_false]
    rw [if_neg h, updateOutput_idem]
  rw [if_neg h1, if_neg h2, if_neg h3] at h
  have hfield : ¬((k * 4 + 4 - kPlicOffContext) / kPlicContextStride < kPlicNumCtx ∧
      (k * 4 + 4 - kPlicOffContext) % kPlicContextStride / 4 = 0) := by
    rintro ⟨hctx, hzero⟩
    exact h ⟨hctx, by omega⟩
  simp only [h1, h2, h3, if_false]
  rw [if_neg hfield, updateOutput_idem]

/-- Every register of it reads as something else than zero. -/
def fullPlic : PlicDevice :=
  ⟨fun _ => 2, fun _ => 0xffffffff, fun _ _ => 0xffffffff, fun _ => 1, fun _ => false⟩

theorem fullPlic_reads (h : Decoded off) : (readWord fullPlic off).1 ≠ 0 := by
  have hclaim : ∀ ctx < kPlicNumCtx, BitVec.ofNat 32 (claim fullPlic ctx) ≠ 0 := by decide +kernel
  unfold Decoded at h
  unfold readWord
  dsimp only
  split_ifs at h ⊢ with h1 h2 h3 hctx hfield hfield
  · exact show 2 ≠ 0 by decide
  · exact show 0xffffffff ≠ 0 by decide
  · exact show 0xffffffff ≠ 0 by decide
  · exact show 1 ≠ 0 by decide
  all_goals first | exact hclaim _ h.1 | omega

theorem plicSplits_iff (k : Nat) : PlicSplits k ↔ k % 2 = 1 ∨ ¬Decoded (k * 4 + 4) := by
  have hword : k * 4 / 4 = k := Nat.mul_div_cancel k (by decide)
  unfold PlicSplits plicRead plicWrite
  simp only [hword, show 4 < 8 by decide, true_and]
  by_cases hk : k % 2 = 1
  · simp [hk]
  have heven : k % 2 = 0 := by omega
  simp only [hk, if_false, false_or, readWord_even heven]
  constructor
  · intro h hdecoded
    have hvalue := congrArg Prod.fst (h.1 fullPlic)
    refine fullPlic_reads hdecoded ?_
    ext i hi
    have hbit := congrArg (·.getLsbD (32 + i)) hvalue
    grind
  · intro h
    refine ⟨fun p => ?_, fun p val => (writeWord_undecoded heven h ..).symm⟩
    rw [readWord_undecoded h]
    simp

end

end Plic

theorem wide_access_iff (D : Type) (host : Cmos.Host) (k : Nat) {n reg : Nat}
    (hn : n = 2 ∨ n = 4) (hreg : reg + n ≤ 8) :
    (Plic.PlicSplits k ↔ k % 2 = 1 ∨ ¬Plic.Decoded (k * 4 + 4)) ∧
      (Storage.BmdmaSplits D n reg ↔ n = 2 ∧ (reg = 0 ∨ reg = 2)) ∧
      ¬SplitsRead (Cmos.cmosRead (Cmos.cmosReadReg host)) 2 Cmos.kCmosIndexPort ∧
      ¬SplitsWrite (Cmos.cmosWrite (Cmos.cmosWriteReg host)) 2 Cmos.kCmosIndexPort :=
  ⟨Plic.plicSplits_iff k, Storage.bmdmaSplits_iff D hn hreg, Cmos.not_cmosSplitsRead host,
    Cmos.not_cmosSplitsWrite host⟩

/-- The claim word and the next threshold, and the status register with the byte behind it. -/
theorem wide_access_aligned : Plic.PlicSplits 0x80001 ∧ Storage.BmdmaSplits Unit 2 2 :=
  have h := wide_access_iff Unit ⟨0, 0⟩ 0x80001 (.inl rfl) (show 2 + 2 ≤ 8 by decide)
  ⟨h.1.2 (.inl rfl), h.2.1.2 ⟨rfl, .inr rfl⟩⟩

/-- Eight bytes of pending bits lose the upper four, a double word read from the descriptor table's
address is its lowest byte, and a word written to the index port reaches no register. -/
theorem wide_access_narrowed : ((Plic.plicRead Plic.fullPlic 0x1000 8).1 = 0xffffffff ∧
      (Plic.readWord Plic.fullPlic 0x1004).1 = 0xffffffff) ∧
    (Storage.bmdmaRead Storage.fullBmdma 4 = 0xff ∧
      (readBytes (fun ch reg => (Storage.bmdmaRead ch reg, ch)) 4 Storage.fullBmdma 4).1 =
        0xffffffff) ∧
    ((Cmos.cmosWrite (Cmos.cmosWriteReg ⟨0, 0⟩) ⟨0, false, Cmos.blankCmos⟩ Cmos.kCmosIndexPort
        0x34).st.regs 0x34 = 0x00 ∧
      (writeBytes (Cmos.cmosWrite (Cmos.cmosWriteReg ⟨0, 0⟩)) 2 ⟨0, false, Cmos.blankCmos⟩
        Cmos.kCmosIndexPort 0x1234).st.regs 0x34 = 0x12) := by
  decide +kernel

end Cemu
