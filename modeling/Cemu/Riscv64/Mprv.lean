import Cemu.Riscv64.PmpBytes
import Cemu.Riscv64.PureWalk

/-!
# riscv64: accesses under MPRV

With `mstatus.MPRV` set, a data access of machine mode is to be translated and protected as
in the mode named by MPP. The walk and its permission check are done with that mode; the
final PMP check is done with the mode the machine really is in. The main result says for
which accesses the two modes are told apart.
-/

namespace Cemu.Rv64

variable {D : Type}

def mppOf (s : RiscvState) : BitVec 8 := ((s.mstatus &&& kMstatusMppMask) >>> 11).setWidth 8

/-- The same state in the mode of MPP, with MPRV clear. -/
def dropMprv (s : RiscvState) : RiscvState :=
  { s with priv := mppOf s, mstatus := s.mstatus &&& ~~~kMstatusMprv }

/-- The physical address of a translation, or the cause and trap value of its fault. -/
def paddrOrFault {σ : Type} :
    Outcome TrapRec σ (BitVec 64 × Option HostPtr) →
      Option (Except (BitVec 64 × BitVec 64) (BitVec 64))
  | .ok a _ => some (.ok a.1)
  | .raise t _ => some (.error (t.cause, t.tval))
  | .fatal => none

theorem effPriv_of_mprv {s : RiscvState} {acc : Acc} (hmprv : s.mstatus &&& kMstatusMprv ≠ 0)
    (hacc : acc ≠ .ifetch) : effPriv s acc = mppOf s := by
  rw [effPriv, if_pos ⟨hmprv, hacc⟩, mppOf]

theorem effPriv_dropMprv (s : RiscvState) (acc : Acc) : effPriv (dropMprv s) acc = mppOf s := by
  have hclear : (dropMprv s).mstatus &&& kMstatusMprv = 0 := by
    rw [dropMprv, BitVec.and_assoc, BitVec.and_comm (~~~kMstatusMprv),
      show kMstatusMprv &&& ~~~kMstatusMprv = 0 by decide]
    exact BitVec.and_zero
  rw [effPriv, if_neg fun h => h.1 hclear, dropMprv]

theorem sameWalk_dropMprv (s : RiscvState) : SameWalk s (dropMprv s) where
  cfg := rfl
  addr := rfl
  satp := rfl
  status := by
    rw [dropMprv, BitVec.and_assoc]
    congr 1
  menvcfg := rfl

section

variable (m : Machine D) (vaddr : BitVec 64) (size : Nat) (acc : Acc)

/-- The PMP entries tell machine mode and `mode` alike: the entry that decides the access is
locked, grants it or holds only a part of it; where none decides, none is active. -/
def PmpAlike (s : RiscvState) (mode : BitVec 8) (addr : BitVec 64) : Prop :=
  mode = kPrivMachine ∨ match pmpDecider s addr size with
    | some i => pmpCfg s i &&& kPmpL ≠ 0 ∨ pmpGrants (pmpCfg s i) acc ∨
        ∀ base len, pmpRegion s i = some (base, len) →
          ¬ (base ≤ addr ∧ addr + .ofNat 64 size ≤ base + len)
    | none => ∀ i < kPmpCount, pmpRegion s i = none

/-- The condition under which machine mode with MPRV and the mode of MPP see the same
translation. Without paging, the PMP entries must tell both modes alike on the access itself;
with paging, on the physical range that `maps` gives for it. A translation either mode has
cached must be the one the other finds. -/
def MprvAgrees (maps : BitVec 64 → Prop) : Prop :=
  let p := mppOf m.rs
  let off := vaddr &&& 0xfff
  if p = kPrivMachine ∨ satpMode m.rs = kSatpModeBare then PmpAlike size acc m.rs p vaddr
  else
    match tlbLookup m.rs vaddr acc, tlbLookup (dropMprv m.rs) vaddr acc with
    | none, none => ∀ paddr, maps paddr → PmpAlike size acc m.rs p paddr
    | some e, none =>
      maps (e.pbase ||| off) ∧ riscvPmpAllowed m.rs (e.pbase ||| off) size acc p
    | none, some e =>
      maps (e.pbase ||| off) ∧ riscvPmpAllowed m.rs (e.pbase ||| off) size acc kPrivMachine
    | some e, some e' => e.pbase ||| off = e'.pbase ||| off

theorem pmpAlike_iff (s : RiscvState) (mode : BitVec 8) (addr : BitVec 64) :
    riscvPmpAllowed s addr size acc kPrivMachine = riscvPmpAllowed s addr size acc mode ↔
      PmpAlike size acc s mode addr := by
  rw [PmpAlike, riscvPmpAllowed_eq_verdict, riscvPmpAllowed_eq_verdict]
  by_cases hmode : mode = kPrivMachine
  · simp [hmode]
  cases pmpDecider s addr size with
  | none => simp [hmode]
  | some i =>
    simp only [pmpVerdict, hmode, false_and, true_and, false_or, decide_false, Bool.false_or]
    cases hregion : pmpRegion s i with
    | none => simp
    | some r =>
      obtain ⟨base, len⟩ := r
      simp only [Option.some.injEq, Prod.mk.injEq]
      by_cases hin : base ≤ addr ∧ addr + .ofNat 64 size ≤ base + len
      · cases pmpGrants (pmpCfg s i) acc <;> simp [hin]
      · have hpart : ∀ b l, base = b ∧ len = l → ¬ (b ≤ addr ∧ addr + .ofNat 64 size ≤ b + l) := by
          rintro b l ⟨rfl, rfl⟩
          exact hin
        simp only [hin, decide_false, Bool.false_and, true_iff]
        exact .inr (.inr hpart)

theorem paddrOrFault_bare :
    paddrOrFault (translateBare vaddr size acc m) =
      some (if riscvPmpAllowed m.rs vaddr size acc m.rs.priv then .ok vaddr
        else .error (accessFaultCause acc, vaddr)) := by
  rw [translateBare_apply]
  split <;> rfl

/-- The answer of a translation that misses the cache: the walk's, cut down by the PMP
check in the mode the machine is in. -/
theorem paddrOrFault_miss (eff : BitVec 8) :
    paddrOrFault (translateMiss vaddr size acc eff m) = match walkPage m.rs vaddr acc eff m.w with
      | .ok paddr _ => some (if riscvPmpAllowed m.rs paddr size acc m.rs.priv then .ok paddr
          else .error (accessFaultCause acc, vaddr))
      | .raise t _ => some (.error (t.cause, t.tval))
      | .fatal => none := by
  rw [translateMiss_apply]
  cases walkPage m.rs vaddr acc eff m.w with
  | ok paddr w =>
    simp only
    split <;> rfl
  | raise t w => rfl
  | fatal => rfl

end

private theorem verdict_inj {α β : Type} (a b : Bool) (x : β) (t : α) :
    (some (if a then .ok x else .error t) : Option (Except α β))
        = some (if b then .ok x else .error t) ↔ a = b := by
  cases a <;> cases b <;> simp

/-- A cached address is the answer of a miss exactly when the walk finds it and the PMP
check lets it through. -/
private theorem hit_eq_miss_iff (o : Outcome TrapRec (World D) (BitVec 64))
    (allowed : BitVec 64 → Bool) (x : BitVec 64) (t : BitVec 64 × BitVec 64) :
    some (Except.ok x) = (match o with
        | .ok paddr _ => some (if allowed paddr then .ok paddr else .error t)
        | .raise t _ => some (.error (t.cause, t.tval))
        | .fatal => none) ↔ (∃ w, o = .ok x w) ∧ allowed x := by
  cases o with
  | ok paddr w =>
    constructor
    · intro h
      cases ha : allowed paddr
      · simp [ha] at h
      · simp only [ha, if_pos, Option.some.injEq, Except.ok.injEq] at h
        exact ⟨⟨w, by rw [h]⟩, by rw [h]; exact ha⟩
    · rintro ⟨⟨w', ho⟩, ha⟩
      obtain ⟨rfl, rfl⟩ := Outcome.ok.inj ho
      simp [ha]
  | raise t w => simp
  | fatal => simp

section

variable (m : Machine D) (vaddr : BitVec 64) (size : Nat) (acc : Acc)
  (hpriv : m.rs.priv = kPrivMachine) (hmprv : m.rs.mstatus &&& kMstatusMprv ≠ 0)
  (hacc : acc ≠ .ifetch)

include hpriv hmprv hacc

theorem paddrOrFault_mprv_iff :
    paddrOrFault (riscvTranslate vaddr size acc m)
        = paddrOrFault (riscvTranslate vaddr size acc (m.setRs (dropMprv m.rs))) ↔
      MprvAgrees m vaddr size acc fun paddr =>
        ∃ w, walkPage m.rs vaddr acc (mppOf m.rs) m.w = .ok paddr w := by
  have hsame := sameWalk_dropMprv m.rs
  have hbareEq : isBare (dropMprv m.rs) acc = isBare m.rs acc := by
    rw [isBare, isBare, effPriv_dropMprv, effPriv_of_mprv hmprv hacc, hsame.satpMode]
  have hbareIff : isBare m.rs acc ↔ mppOf m.rs = kPrivMachine ∨ satpMode m.rs = kSatpModeBare := by
    rw [isBare, effPriv_of_mprv hmprv hacc]
    simp
  rw [riscvTranslate_apply, riscvTranslate_apply, setRs_rs, hbareEq, MprvAgrees]
  by_cases hbare : isBare m.rs acc
  · simp only [hbare, if_true, if_pos (hbareIff.1 hbare)]
    rw [paddrOrFault_bare, paddrOrFault_bare, setRs_rs, hsame.pmpAllowed, hpriv]
    exact (verdict_inj _ _ _ _).trans (pmpAlike_iff ..)
  simp only [hbare, Bool.false_eq_true, if_false, if_neg (mt hbareIff.2 hbare)]
  rw [effPriv_dropMprv, effPriv_of_mprv hmprv hacc]
  cases tlbLookup m.rs vaddr acc with
  | none =>
    cases tlbLookup (dropMprv m.rs) vaddr acc with
    | none =>
      rw [paddrOrFault_miss, paddrOrFault_miss, setRs_rs, setRs_w, hsame.walkPage]
      simp only [hsame.pmpAllowed, hpriv]
      cases walkPage m.rs vaddr acc (mppOf m.rs) m.w with
      | ok paddr w =>
        refine ((verdict_inj _ _ _ _).trans (pmpAlike_iff ..)).trans ⟨?_, fun h => h paddr ⟨w, rfl⟩⟩
        rintro h paddr' ⟨w', ho⟩
        obtain ⟨rfl, rfl⟩ := Outcome.ok.inj ho
        exact h
      | raise t w => simp
      | fatal => simp
    | some e =>
      rw [paddrOrFault_miss, hpriv, eq_comm]
      exact hit_eq_miss_iff _ (riscvPmpAllowed m.rs · size acc kPrivMachine) _ _
  | some e =>
    cases tlbLookup (dropMprv m.rs) vaddr acc with
    | none =>
      rw [paddrOrFault_miss, setRs_rs, hsame.walkPage]
      simp only [hsame.pmpAllowed]
      exact hit_eq_miss_iff _ (riscvPmpAllowed m.rs · size acc (mppOf m.rs)) _ _
    | some e' => simp [paddrOrFault]

/-- For a data access of machine mode under MPRV: the outcome is that of the mode in MPP
exactly under `MprvAgrees` with what the walker maps, which for tables in RAM is what the words
of the tables say. -/
theorem riscvTranslate_mprv_iff :
    (paddrOrFault (riscvTranslate vaddr size acc m)
        = paddrOrFault (riscvTranslate vaddr size acc (m.setRs (dropMprv m.rs))) ↔
      MprvAgrees m vaddr size acc fun paddr =>
        ∃ w, walkPage m.rs vaddr acc (mppOf m.rs) m.w = .ok paddr w) ∧
    ((∀ a ∈ tableWords m.rs m.w vaddr, InRam m.w a) →
      (paddrOrFault (riscvTranslate vaddr size acc m)
          = paddrOrFault (riscvTranslate vaddr size acc (m.setRs (dropMprv m.rs))) ↔
        MprvAgrees m vaddr size acc (TablesMap m.rs m.w vaddr acc (mppOf m.rs)))) := by
  have hiff := paddrOrFault_mprv_iff m vaddr size acc hpriv hmprv hacc
  refine ⟨hiff, fun hram => hiff.trans (iff_of_eq (congrArg _ (funext fun paddr => ?_)))⟩
  exact propext (walks_iff_tablesMap hram)

end

/-- Machine mode with MPRV set and MPP = U, no paging, and one PMP entry over the whole
address space with configuration byte `cfg`. -/
def mprvMachine (cfg : BitVec 64) : Machine Unit :=
  (Machine.init World.unmapped 0).setRs
    { riscvInit with
      mstatus := kMstatusUxlValue ||| kMstatusMprv
      pmpcfg := fun i => if i = 0 then cfg else 0
      pmpaddr := fun i => if i = 0 then ~~~0 else 0 }

-- 0x1f: NAPOT, readable, writable and executable, not locked
theorem riscvTranslate_mprv_iff_granted :
    paddrOrFault (riscvTranslate 0x80000000 8 .read (mprvMachine 0x1f))
      = paddrOrFault (riscvTranslate 0x80000000 8 .read
          ((mprvMachine 0x1f).setRs (dropMprv (mprvMachine 0x1f).rs))) :=
  (riscvTranslate_mprv_iff _ _ _ _ rfl (by decide) (by decide)).1.2 (by
    rw [MprvAgrees, if_pos (by decide), ← pmpAlike_iff]
    decide)

/-- An entry that grants nothing and is not locked: user mode is denied, machine mode
loading on its behalf is not. -/
theorem riscvTranslate_mprv_bypasses_pmp :
    (mprvMachine 0x18).rs.priv = kPrivMachine ∧
      (mprvMachine 0x18).rs.mstatus &&& kMstatusMprv ≠ 0 ∧
      mppOf (mprvMachine 0x18).rs = kPrivUser ∧
      paddrOrFault (riscvTranslate 0x80000000 8 .read (mprvMachine 0x18))
        = some (.ok 0x80000000) ∧
      paddrOrFault (riscvTranslate 0x80000000 8 .read
          ((mprvMachine 0x18).setRs (dropMprv (mprvMachine 0x18).rs)))
        = some (.error (kExLoadFault, 0x80000000)) := by
  refine ⟨rfl, by decide, by decide, ?_, ?_⟩
  · rw [riscvTranslate_apply, if_pos (by decide), paddrOrFault_bare, if_pos (by decide)]
  · rw [riscvTranslate_apply, if_pos (by decide), paddrOrFault_bare, if_neg (by decide)]
    rfl

end Cemu.Rv64
