import Cemu.Riscv32.Csr

/-!
# riscv32: 64-bit registers seen through two CSRs

The counters, the timer compare register and `menvcfg` are 64 bits wide and appear as a low and a
high CSR each. `Splits` says what software expects of such a pair. All pairs have it but
`menvcfg`, whose low CSR is written with the expression of riscv64 and takes the high half with it.
-/

namespace Cemu.Rv32

open Rv64
open BitVec hiding not_not not_or or_self

variable {D : Type}

inductive SplitCsr where
  | mcycle
  | minstret
  /-- `mhpmcounter3` to `mhpmcounter18`, counted from 0. -/
  | mhpmcounter (k : Fin 16)
  | stimecmp
  | menvcfg
  deriving DecidableEq, Repr

namespace SplitCsr

def lowAddr : SplitCsr → BitVec 64
  | mcycle => 0xB00
  | minstret => 0xB02
  | mhpmcounter k => 0xB03 + BitVec.ofNat 64 k
  | stimecmp => 0x14D
  | menvcfg => 0x30A

def highAddr : SplitCsr → BitVec 64
  | mcycle => 0xB80
  | minstret => 0xB82
  | mhpmcounter k => 0xB83 + BitVec.ofNat 64 k
  | stimecmp => 0x15D
  | menvcfg => 0x31A

def get (r : SplitCsr) (s : Riscv32State) : BitVec 64 :=
  match r with
  | mcycle => s.mcycle
  | minstret => s.minstret
  | mhpmcounter k => s.mhpmcounter k
  | stimecmp => s.stimecmp
  | menvcfg => s.menvcfg

/-- The state with another value in the register; a counter write leaves its note for the step. -/
def set (r : SplitCsr) (s : Riscv32State) (v : BitVec 64) : Riscv32State :=
  match r with
  | mcycle => { s with mcycle := v, counterWritten := .mcycle }
  | minstret => { s with minstret := v, counterWritten := .minstret }
  | mhpmcounter k => { s with mhpmcounter := Function.update s.mhpmcounter k v }
  | stimecmp => { s with stimecmp := v }
  | menvcfg => { s with menvcfg := v }

def wmask : SplitCsr → BitVec 64
  | menvcfg => kMenvcfgWmask
  | _ => BitVec.allOnes 64

section

variable (r : SplitCsr) (s : Riscv32State)

@[simp] theorem get_set (v : BitVec 64) :
    r.get (r.set s v) = v := by
  cases r <;> simp [get, set]

@[simp] theorem set_set (v v' : BitVec 64) :
    r.set (r.set s v) v' = r.set s v' := by
  cases r <;> simp [set]

@[simp] theorem set_priv (v : BitVec 64) :
    (r.set s v).priv = s.priv := by
  cases r <;> rfl

end

theorem set_inj {r : SplitCsr} {s : Riscv32State} {v v' : BitVec 64} :
    r.set s v = r.set s v' ↔ v = v' :=
  ⟨fun h => by simpa using congrArg r.get h, fun h => h ▸ rfl⟩

theorem csrPriv_highAddr (r : SplitCsr) : csrPriv r.highAddr = csrPriv r.lowAddr := by
  cases r with
  | mhpmcounter k =>
    revert k
    decide
  | _ => rfl

/-! ## What is expected -/

def replaced (mask old new : BitVec 64) : BitVec 64 := (old &&& ~~~mask) ||| (new &&& mask)

def writeLow (r : SplitCsr) (s : Riscv32State) (v : BitVec 32) (nextPc : BitVec 64) :
    Option Riscv32State :=
  riscv32CsrWrite s r.lowAddr (v.setWidth 64) nextPc

def writeHigh (r : SplitCsr) (s : Riscv32State) (v : BitVec 32) (nextPc : BitVec 64) :
    Option Riscv32State :=
  riscv32CsrWrite s r.highAddr (v.setWidth 64) nextPc

def readBoth (r : SplitCsr) (m : Machine D) : Option (BitVec 64) := do
  let lo ← riscv32CsrRead m r.lowAddr
  let hi ← riscv32CsrRead m r.highAddr
  pure (hi.setWidth 32 ++ lo.setWidth 32)

/-- Software at the privilege of the register can write each half on its own, and after writing both
in either order it reads the value back. -/
structure Splits (r : SplitCsr) (m : Machine D) (lo hi : BitVec 32) (nextPc : BitVec 64) :
    Prop where
  low : r.writeLow m.rs lo nextPc =
    some (r.set m.rs (replaced (r.wmask &&& kXlenMask) (r.get m.rs) (lo.setWidth 64)))
  high : r.writeHigh m.rs hi nextPc =
    some (r.set m.rs (replaced (r.wmask &&& ~~~kXlenMask) (r.get m.rs) (hi.setWidth 64 <<< 32)))
  lowHigh : (do
    let s ← r.writeLow m.rs lo nextPc
    let s ← r.writeHigh s hi nextPc
    r.readBoth (m.setRs s)) = some ((hi ++ lo) &&& r.wmask)
  highLow : (do
    let s ← r.writeHigh m.rs hi nextPc
    let s ← r.writeLow s lo nextPc
    r.readBoth (m.setRs s)) = some ((hi ++ lo) &&& r.wmask)

/-! ## What the code does -/

theorem counterAddr (k : Fin 16) :
    (mhpmcounter k).lowAddr ∉
      [0xB00, 0xB80, 0xB02, 0xB82, 0xC00, 0xC80, 0xC02, 0xC82, 0xC01, 0xC81] ∧
      (mhpmcounter k).highAddr ∉
        [0xB00, 0xB80, 0xB02, 0xB82, 0xC00, 0xC80, 0xC02, 0xC82, 0xC01, 0xC81] ∧
      csrRange (mhpmcounter k).lowAddr = some (.mhpmcounter k) ∧
      csrRange (mhpmcounter k).highAddr = some (.mhpmcounterh k) ∧
      csrOf (mhpmcounter k).lowAddr = some (.mhpmcounter k) ∧
      csrOf (mhpmcounter k).highAddr = some (.mhpmcounterh k) := by
  revert k
  decide +kernel

section

variable {r : SplitCsr} {s : Riscv32State} {m : Machine D}

section

variable (hpriv : ¬s.priv < csrPriv r.lowAddr) (v : BitVec 32) (nextPc : BitVec 64)

include hpriv

theorem writeLow_eq :
    r.writeLow s v nextPc = some (r.set s (if r = menvcfg then v.setWidth 64 &&& kMenvcfgWmask
        else mergeLow (r.get s) (v.setWidth 64))) := by
  rw [writeLow, riscv32CsrWrite, if_neg hpriv]
  cases r with
  | mhpmcounter k =>
    obtain ⟨hne, -, -, -, hof, -⟩ := counterAddr k
    simp only [List.mem_cons, not_or] at hne
    simp only [hne, hof]
    rfl
  | _ => rfl

theorem writeHigh_eq :
    r.writeHigh s v nextPc = some (r.set s
      (if r = menvcfg then
        (r.get s &&& kXlenMask) ||| (low (v.setWidth 64) <<< 32 &&& kMenvcfgWmask)
        else mergeHigh (r.get s) (v.setWidth 64))) := by
  rw [← csrPriv_highAddr] at hpriv
  rw [writeHigh, riscv32CsrWrite, if_neg hpriv]
  cases r with
  | mhpmcounter k =>
    obtain ⟨-, hne, -, -, -, hof⟩ := counterAddr k
    simp only [List.mem_cons, not_or] at hne
    simp only [hne, hof]
    rfl
  | _ => rfl

end

theorem readCounter_machine (h : ¬m.rs.priv < kPrivMachine) (k : Fin 16) :
    readCounter m (mhpmcounter k).lowAddr = some (low (m.rs.mhpmcounter k)) ∧
      readCounter m (mhpmcounter k).highAddr = some (low (m.rs.mhpmcounter k >>> 32)) := by
  obtain ⟨hlow, hhigh, hlo, hhi, -, -⟩ := counterAddr k
  simp only [List.mem_cons, not_or] at hlow hhigh
  constructor
  · simp only [readCounter, h, hlow, hlo, false_and, if_false, or_self]
  · simp only [readCounter, h, hhigh, hhi, false_and, if_false, or_self]

theorem readCounter_other {addr : BitVec 64}
    (h : addr ∈ [(0x14D : BitVec 64), 0x15D, 0x30A, 0x31A]) :
    readCounter m addr = none := by
  simp only [List.mem_cons, List.not_mem_nil, or_false] at h
  obtain rfl | rfl | rfl | rfl := h <;> simp [readCounter, csrRange]

theorem setWidth_low (v : BitVec 64) : (low v).setWidth 32 = v.setWidth 32 := by
  have hmask : kXlenMask.setWidth 32 = .allOnes 32 := by decide
  rw [low, setWidth_and, hmask, and_allOnes]

theorem halves (v : BitVec 64) : (v >>> 32).setWidth 32 ++ v.setWidth 32 = v := by
  grind

theorem readBoth_eq (hpriv : ¬m.rs.priv < csrPriv r.lowAddr) :
    r.readBoth m = some (r.get m.rs) := by
  have hpriv' : ¬m.rs.priv < csrPriv r.highAddr := by rwa [csrPriv_highAddr]
  have hlows (v : BitVec 64) : (low (v >>> 32)).setWidth 32 ++ (low v).setWidth 32 = v := by
    rw [setWidth_low, setWidth_low, halves]
  rw [readBoth, riscv32CsrRead, riscv32CsrRead, if_neg hpriv, if_neg hpriv']
  cases r with
  | mhpmcounter k =>
    have hmode : ∀ k, csrPriv (mhpmcounter k).lowAddr = kPrivMachine := by decide
    rw [hmode] at hpriv
    obtain ⟨hlo, hhi⟩ := readCounter_machine hpriv k
    rw [hlo, hhi]
    exact congrArg some (hlows _)
  | mcycle =>
    have hmode : ¬m.rs.priv < kPrivMachine := hpriv
    simp only [readCounter, hmode]
    exact congrArg some (hlows _)
  | minstret =>
    have hmode : ¬m.rs.priv < kPrivMachine := hpriv
    simp only [readCounter, hmode]
    exact congrArg some (hlows _)
  | stimecmp =>
    rw [readCounter_other (by simp [lowAddr]), readCounter_other (by simp [highAddr])]
    exact congrArg some (hlows _)
  | menvcfg =>
    rw [readCounter_other (by simp [lowAddr]), readCounter_other (by simp [highAddr])]
    change some ((low (m.rs.menvcfg >>> 32)).setWidth 32 ++ m.rs.menvcfg.setWidth 32) = _
    rw [setWidth_low, halves]
    rfl

end

/-! ## Halves, bit by bit -/

theorem kXlenMask_bit : ∀ k < 64, kXlenMask.getLsbD k = decide (k < 32) := by decide

theorem kMenvcfgWmask_bit : ∀ k < 64,
    kMenvcfgWmask.getLsbD k = (decide (k < 8) || decide (k = 61) || decide (k = 63)) := by decide

section

variable (old : BitVec 64) (lo hi : BitVec 32)

theorem low_setWidth : low (lo.setWidth 64) = lo.setWidth 64 := by
  refine eq_of_getLsbD_eq fun k hk => ?_
  rw [low, getLsbD_and, kXlenMask_bit k hk]
  grind

theorem mergeLow_eq : mergeLow old (lo.setWidth 64) = replaced kXlenMask old (lo.setWidth 64) := rfl

theorem mergeHigh_eq :
    mergeHigh old (hi.setWidth 64) = replaced (~~~kXlenMask) old (hi.setWidth 64 <<< 32) := by
  have hshift : hi.setWidth 64 <<< 32 &&& ~~~kXlenMask = hi.setWidth 64 <<< 32 := by
    refine eq_of_getLsbD_eq fun k hk => ?_
    rw [getLsbD_and, getLsbD_not, kXlenMask_bit k hk]
    grind
  rw [mergeHigh, low_setWidth, replaced, BitVec.not_not, hshift]

theorem mergeHigh_mergeLow :
    mergeHigh (mergeLow old (lo.setWidth 64)) (hi.setWidth 64) = hi ++ lo := by
  refine eq_of_getLsbD_eq fun k hk => ?_
  simp only [mergeHigh, mergeLow, low_setWidth, getLsbD_or, getLsbD_and, getLsbD_not,
    kXlenMask_bit k hk]
  grind

theorem mergeLow_mergeHigh :
    mergeLow (mergeHigh old (hi.setWidth 64)) (lo.setWidth 64) = hi ++ lo := by
  refine eq_of_getLsbD_eq fun k hk => ?_
  simp only [mergeHigh, mergeLow, low_setWidth, getLsbD_or, getLsbD_and, getLsbD_not,
    kXlenMask_bit k hk]
  grind

/-! The low CSR of `menvcfg` writes a byte and clears the rest. -/

theorem and_menvcfg_low : lo.setWidth 64 &&& kMenvcfgWmask = lo.setWidth 64 &&& 0xff := by
  have hbyte : ∀ k < 64, (0xff : BitVec 64).getLsbD k = decide (k < 8) := by decide
  refine eq_of_getLsbD_eq fun k hk => ?_
  simp only [getLsbD_and, kMenvcfgWmask_bit k hk]
  grind

theorem append_eq : hi ++ lo = lo.setWidth 64 ||| hi.setWidth 64 <<< 32 := by
  grind

end

/-! ## Which pairs split -/

section

variable {r : SplitCsr} {m : Machine D} (hpriv : ¬m.rs.priv < csrPriv r.lowAddr)
  (lo hi : BitVec 32) (nextPc : BitVec 64)

include hpriv

theorem lowHigh_eq : (do
      let s ← r.writeLow m.rs lo nextPc
      let s ← r.writeHigh s hi nextPc
      r.readBoth (m.setRs s)) =
      some (if r = menvcfg then
          (lo.setWidth 64 &&& kMenvcfgWmask &&& kXlenMask) |||
            (hi.setWidth 64 <<< 32 &&& kMenvcfgWmask)
        else hi ++ lo) := by
  have hset (v : BitVec 64) : ¬(r.set m.rs v).priv < csrPriv r.lowAddr := by rwa [set_priv]
  rw [writeLow_eq hpriv, Option.bind_eq_bind, Option.bind_some, writeHigh_eq (hset _),
    Option.bind_some, readBoth_eq (by simpa [Machine.setRs] using hpriv)]
  change some (r.get (r.set _ _)) = _
  rw [get_set, get_set, low_setWidth]
  by_cases hr : r = menvcfg
  · simp only [if_pos hr]
  · simp only [if_neg hr, mergeHigh_mergeLow]

theorem highLow_eq : (do
      let s ← r.writeHigh m.rs hi nextPc
      let s ← r.writeLow s lo nextPc
      r.readBoth (m.setRs s)) =
      some (if r = menvcfg then lo.setWidth 64 &&& kMenvcfgWmask else hi ++ lo) := by
  have hset (v : BitVec 64) : ¬(r.set m.rs v).priv < csrPriv r.lowAddr := by rwa [set_priv]
  rw [writeHigh_eq hpriv, Option.bind_eq_bind, Option.bind_some, writeLow_eq (hset _),
    Option.bind_some, readBoth_eq (by simpa [Machine.setRs] using hpriv)]
  change some (r.get (r.set _ _)) = _
  rw [get_set, get_set]
  by_cases hr : r = menvcfg
  · simp only [if_pos hr]
  · simp only [if_neg hr, mergeLow_mergeHigh]

theorem splits_of_ne (hr : r ≠ menvcfg) : r.Splits m lo hi nextPc := by
  have hmask : r.wmask = .allOnes 64 := by
    cases r with
    | menvcfg => exact absurd rfl hr
    | _ => rfl
  constructor
  · rw [writeLow_eq hpriv, if_neg hr, hmask, allOnes_and, mergeLow_eq]
  · rw [writeHigh_eq hpriv, if_neg hr, hmask, allOnes_and, mergeHigh_eq]
  · rw [lowHigh_eq hpriv, if_neg hr, hmask, and_allOnes]
  · rw [highLow_eq hpriv, if_neg hr, hmask, and_allOnes]

end

theorem clears_iff (a b : BitVec 64) :
    b &&& 0xff = (a &&& ~~~0xff) ||| (b &&& 0xff) ↔ a &&& ~~~0xff = 0 := by
  constructor
  · intro h
    have hand := congrArg (· &&& ~~~0xff) h
    have hb : b &&& 0xff &&& ~~~0xff = 0 := by
      rw [BitVec.and_assoc, BitVec.and_not_self]
      exact and_zero
    simp only [and_or_distrib_right, hb, BitVec.and_assoc a, BitVec.and_self] at hand
    exact (BitVec.or_zero.symm.trans hand.symm)
  · intro h
    rw [h]
    exact BitVec.zero_or.symm

theorem eq_or_iff_of_disjoint {a b : BitVec 64} (h : a &&& b = 0) : a = a ||| b ↔ b = 0 := by
  constructor
  · intro heq
    have hand := congrArg (· &&& b) heq
    simp only [and_or_distrib_right, h, BitVec.and_self] at hand
    exact (BitVec.zero_or.symm.trans hand.symm)
  · intro hb
    rw [hb]
    exact BitVec.or_zero.symm

theorem and_of_byte {a k : BitVec 64} (h : a &&& ~~~0xff = 0) (hk : 0xff &&& k = 0xff) :
    a &&& k = a := by
  have hbyte : a &&& 0xff = a := by
    conv_rhs => rw [← and_allOnes (x := a),
      show BitVec.allOnes 64 = 0xff ||| ~~~0xff from by decide, and_or_distrib_left, h]
    exact BitVec.or_zero.symm
  rw [← hbyte, BitVec.and_assoc, hk]

theorem splits_menvcfg_iff {m : Machine D} (hpriv : ¬m.rs.priv < csrPriv menvcfg.lowAddr)
    (lo hi : BitVec 32) (nextPc : BitVec 64) :
    menvcfg.Splits m lo hi nextPc ↔
      m.rs.menvcfg &&& ~~~0xff = 0 ∧ hi.setWidth 64 <<< 32 &&& kMenvcfgWmask = 0 := by
  have hlow : menvcfg.writeLow m.rs lo nextPc = some (menvcfg.set m.rs
        (replaced (menvcfg.wmask &&& kXlenMask) (menvcfg.get m.rs) (lo.setWidth 64))) ↔
      m.rs.menvcfg &&& ~~~0xff = 0 := by
    rw [writeLow_eq hpriv, Option.some_inj, set_inj, and_menvcfg_low]
    exact clears_iff ..
  have hback : lo.setWidth 64 &&& kMenvcfgWmask = (hi ++ lo) &&& kMenvcfgWmask ↔
      hi.setWidth 64 <<< 32 &&& kMenvcfgWmask = 0 := by
    rw [append_eq, and_or_distrib_right]
    refine eq_or_iff_of_disjoint (eq_of_getLsbD_eq fun k hk => ?_)
    grind
  constructor
  · intro h
    have hread := h.highLow
    rw [highLow_eq hpriv, Option.some_inj] at hread
    exact ⟨hlow.mp h.low, hback.mp hread⟩
  · rintro ⟨hzero, hhi⟩
    refine ⟨hlow.mpr hzero, ?_, ?_, ?_⟩
    · have hnone : hi.setWidth 64 <<< 32 &&& (kMenvcfgWmask &&& ~~~kXlenMask) = 0 := by
        rw [← BitVec.and_assoc, hhi]
        exact zero_and
      rw [writeHigh_eq hpriv, if_pos rfl, low_setWidth, replaced, wmask, hnone, hhi, get,
        and_of_byte hzero (by decide), and_of_byte hzero (by decide)]
    · have hlo : lo.setWidth 64 &&& kMenvcfgWmask &&& kXlenMask =
          lo.setWidth 64 &&& kMenvcfgWmask := by
        rw [BitVec.and_assoc, BitVec.and_comm kMenvcfgWmask, ← BitVec.and_assoc]
        exact congrArg (· &&& kMenvcfgWmask) (low_setWidth lo)
      rw [lowHigh_eq hpriv, hlo, hhi, wmask, ← hback.mpr hhi]
      exact congrArg some or_zero
    · rw [highLow_eq hpriv, Option.some_inj]
      exact hback.mpr hhi

end SplitCsr

/-- A register with two CSRs has halves of its own for every software that may write it, unless it
is `menvcfg`: there it takes that nothing but the low byte is set and that the high half written
has none of its writable bits. -/
theorem split_csr_iff (r : SplitCsr) (m : Machine D) (lo hi : BitVec 32) (nextPc : BitVec 64) :
    (csrPriv r.lowAddr ≤ m.rs.priv → r.Splits m lo hi nextPc) ↔
      (csrPriv r.lowAddr ≤ m.rs.priv → r = .menvcfg →
        m.rs.menvcfg &&& ~~~0xff = 0 ∧ hi.setWidth 64 <<< 32 &&& kMenvcfgWmask = 0) := by
  refine imp_congr_right fun hpriv => ?_
  have hpriv' := BitVec.not_lt.mpr hpriv
  by_cases hr : r = .menvcfg
  · subst hr
    rw [SplitCsr.splits_menvcfg_iff hpriv']
    exact ⟨fun h _ => h, fun h => h rfl⟩
  · exact ⟨fun _ h => absurd h hr, fun _ => SplitCsr.splits_of_ne hpriv' lo hi nextPc hr⟩

/-- Machine mode has hardware A/D updates on in `menvcfgh`; a write of zero to `menvcfg` turns them
off. -/
theorem menvcfg_low_clears_high :
    let s := { riscv32Init with menvcfg := kMenvcfgAdue }
    s.menvcfg &&& kMenvcfgAdue = kMenvcfgAdue ∧
      (SplitCsr.menvcfg.writeLow s 0 4).map (·.menvcfg) = some 0 := by
  decide +kernel

end Cemu.Rv32
