import Cemu.Lib.BitMask
import Cemu.Riscv64.Mmu

/-!
# riscv64: what a translation depends on

One equation for the whole of `riscvTranslate`, and the fields of the control state that
the walk and the PMP check read. Everything later says about translation goes through
these two.
-/

namespace Cemu.Rv64

variable {D : Type} {s s' : RiscvState}

@[simp] theorem onWorld_apply {α : Type} (c : RiscvState → WorldM D α) (m : Machine D) :
    onWorld c m = match c m.rs m.w with
      | .ok a w => .ok a (m.setWorld w)
      | .raise t w => .raise t (m.setWorld w)
      | .fatal => .fatal := rfl

@[simp] theorem raiseTrap_apply {σ α : Type} (cause tval : BitVec 64) (s : σ) :
    (raiseTrap cause tval : RaiseM TrapRec σ α) s = .raise ⟨cause, tval, none⟩ s := rfl

@[simp] theorem raisePaddr_apply {σ α : Type} (cause tval paddr : BitVec 64) (s : σ) :
    (raisePaddr cause tval paddr : RaiseM TrapRec σ α) s = .raise ⟨cause, tval, some paddr⟩ s :=
  rfl

section

variable (m : Machine D)

@[simp] theorem setWorld_rs (w : World D) : (m.setWorld w).rs = m.rs := rfl
@[simp] theorem setWorld_w (w : World D) : (m.setWorld w).w = w := rfl
@[simp] theorem setRs_rs (s : RiscvState) : (m.setRs s).rs = s := rfl
@[simp] theorem setRs_w (s : RiscvState) : (m.setRs s).w = m.w := rfl
end

def hostOf (w : World D) (paddr : BitVec 64) : Option HostPtr :=
  busRamPage w.bus (paddr &&& ~~~0xfff)

section

variable (vaddr : BitVec 64) (size : Nat) (acc : Acc)

theorem translateBare_apply (m : Machine D) :
    translateBare vaddr size acc m =
      if riscvPmpAllowed m.rs vaddr size acc m.rs.priv then .ok (vaddr, hostOf m.w vaddr) m
      else .raise ⟨accessFaultCause acc, vaddr, some vaddr⟩ m := by
  unfold translateBare
  cases h : riscvPmpAllowed m.rs vaddr size acc m.rs.priv <;>
    simp [h, hostOf]

theorem translateMiss_apply (eff : BitVec 8) (m : Machine D) :
    translateMiss vaddr size acc eff m =
      match walkPage m.rs vaddr acc eff m.w with
      | .ok paddr w =>
        if riscvPmpAllowed m.rs paddr size acc m.rs.priv then
          .ok (paddr, hostOf w paddr)
            ((m.setWorld w).setRs (tlbFill m.rs vaddr acc paddr (hostOf w paddr)))
        else .raise ⟨accessFaultCause acc, vaddr, some paddr⟩ (m.setWorld w)
      | .raise t w => .raise t (m.setWorld w)
      | .fatal => .fatal := by
  unfold translateMiss
  simp only [RaiseM.bind_apply, onWorld_apply]
  cases walkPage m.rs vaddr acc eff m.w with
  | ok paddr w =>
    cases h : riscvPmpAllowed m.rs paddr size acc m.rs.priv <;> simp [h, hostOf]
  | raise t w => rfl
  | fatal => rfl

theorem riscvTranslate_apply (m : Machine D) :
    riscvTranslate vaddr size acc m =
      if isBare m.rs acc then translateBare vaddr size acc m
      else
        match tlbLookup m.rs vaddr acc with
        | some e => .ok (e.pbase ||| (vaddr &&& 0xfff), e.host) m
        | none => translateMiss vaddr size acc (effPriv m.rs acc) m := by
  unfold riscvTranslate
  cases h : isBare m.rs acc
  · cases hl : tlbLookup m.rs vaddr acc <;> simp [h, hl]
  · simp [h]

end

/-! ### What the PMP check and the walk read -/

structure SamePmp (s s' : RiscvState) : Prop where
  cfg : s'.pmpcfg = s.pmpcfg
  addr : s'.pmpaddr = s.pmpaddr

theorem SamePmp.pmpScan (h : SamePmp s s') (addr len : BitVec 64) (acc : Acc) (mode : BitVec 8)
    (is : List Nat) (active : Bool) :
    pmpScan s' addr len acc mode is active = pmpScan s addr len acc mode is active := by
  have hcfg : pmpCfg s' = pmpCfg s := by
    funext i
    rw [pmpCfg, pmpCfg, h.cfg]
  have hreg : pmpRegion s' = pmpRegion s := by
    funext i
    rw [pmpRegion, pmpRegion, hcfg, h.addr]
  induction is generalizing active with
  | nil => rfl
  | cons i rest ih =>
    rw [Rv64.pmpScan, Rv64.pmpScan, hreg, hcfg]
    split
    · exact ih active
    · rw [ih true]

theorem SamePmp.pmpAllowed (h : SamePmp s s') (addr : BitVec 64) (len : Nat) (acc : Acc)
    (mode : BitVec 8) :
    riscvPmpAllowed s' addr len acc mode = riscvPmpAllowed s addr len acc mode :=
  h.pmpScan _ _ _ _ _ _

theorem SamePmp.pteRead (h : SamePmp s s') (pteAddr : BitVec 64) (acc : Acc) :
    (pteRead s' pteAddr acc : WorldM D (BitVec 64)) = pteRead s pteAddr acc := by
  rw [Rv64.pteRead, Rv64.pteRead, h.pmpAllowed]

theorem SamePmp.walkFrom (h : SamePmp s s') (vaddr : BitVec 64) (acc : Acc) (n : Nat)
    (ppnBase pteAddr pte : BitVec 64) :
    (walkFrom s' vaddr acc n ppnBase pteAddr pte : WorldM D Walk)
      = walkFrom s vaddr acc n ppnBase pteAddr pte := by
  induction n generalizing ppnBase pteAddr pte with
  | zero => rfl
  | succ n ih => simp only [Rv64.walkFrom, h.pteRead, ih]

structure SameCtx (s s' : RiscvState) : Prop where
  satp : s'.satp = s.satp
  status : s'.mstatus &&& (kMstatusSum ||| kMstatusMxr) =
    s.mstatus &&& (kMstatusSum ||| kMstatusMxr)
  menvcfg : s'.menvcfg &&& kMenvcfgAdue = s.menvcfg &&& kMenvcfgAdue

namespace SameCtx

variable {s s' : RiscvState} (h : SameCtx s s')

include h

theorem ptePermits (eff : BitVec 8) (acc : Acc) (pte : BitVec 64) :
    ptePermits s' eff acc pte = ptePermits s eff acc pte := by
  have hsum : s'.mstatus &&& kMstatusSum = s.mstatus &&& kMstatusSum :=
    BitMask.and_congr h.status (by decide)
  have hmxr : s'.mstatus &&& kMstatusMxr = s.mstatus &&& kMstatusMxr :=
    BitMask.and_congr h.status (by decide)
  simp only [Rv64.ptePermits, hsum, hmxr]

theorem adUpdate (acc : Acc) (pte : BitVec 64) : adUpdate s' acc pte = adUpdate s acc pte := by
  simp only [Rv64.adUpdate, h.menvcfg]

theorem satpMode : satpMode s' = satpMode s := by
  rw [Rv64.satpMode, Rv64.satpMode, h.satp]

theorem isCanonical (vaddr : BitVec 64) : isCanonical s' vaddr = isCanonical s vaddr := by
  simp only [Rv64.isCanonical, h.satpMode]

theorem walkLevels : walkLevels s' = walkLevels s := by
  simp only [Rv64.walkLevels, h.satpMode]

theorem satpRoot : satpRoot s' = satpRoot s := by
  rw [Rv64.satpRoot, Rv64.satpRoot, h.satp]

end SameCtx

structure SameWalk (s s' : RiscvState) : Prop extends SamePmp s s', SameCtx s s'

/-- The walk is a function of the fields named in `SameWalk`, the effective privilege and
the world. -/
theorem SameWalk.walkPage {s s' : RiscvState} (h : SameWalk s s') (vaddr : BitVec 64) (acc : Acc)
    (eff : BitVec 8) :
    (walkPage s' vaddr acc eff : WorldM D (BitVec 64)) = walkPage s vaddr acc eff := by
  simp only [Rv64.walkPage, useLeaf, h.isCanonical, h.walkLevels, h.satpRoot,
    h.toSamePmp.walkFrom, h.ptePermits, h.adUpdate]

end Cemu.Rv64
