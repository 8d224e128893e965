import Cemu.Riscv.Walker
import Cemu.Riscv32.Mmu

/-!
# riscv32: the walk

`walkPage` and `riscv32Translate` are the walk and the translation of a `Walker` of 32-bit entries.
Those are four bytes wide, the width at which a device register may start a transfer into memory.
-/

namespace Cemu.Rv32

open RadixWalk Riscv
open Rv64 (Acc TrapRec WorldM accessFaultCause probedRead raisePaddr kPrivSupervisor)

variable {D : Type}

section

variable {s : Riscv32State} {acc : Acc} {pte new : BitVec 32}

theorem adUpdate_ppn (h : adUpdate s acc pte = some new) : ptePpn new = ptePpn pte := by
  have hor (x b : BitVec 32) (hb : b >>> 10 = 0) : (x ||| b) >>> 10 = x >>> 10 := by
    rw [BitVec.ushiftRight_or_distrib, hb]
    exact BitVec.or_zero
  have hshift : new >>> 10 = pte >>> 10 := by
    simp only [adUpdate] at h
    split at h
    · cases h
    · cases h
      split <;> split
      · rw [hor _ _ (by decide), hor _ _ (by decide)]
      · rw [hor _ _ (by decide)]
      · rw [hor _ _ (by decide)]
      · rfl
  rw [ptePpn, hshift, ptePpn]

end

/-- The walk of `walkPage` for the privilege the access has in effect. -/
def walker (s : Riscv32State) (vaddr : BitVec 64) (acc : Acc) : Walker 32 where
  vaddr := vaddr
  acc := acc
  size := kSv32PteSize
  canonical := true
  lookup := ⟨pteAddrAt vaddr, pteInvalid, pteLeaf, ptePpn⟩
  levels := kSv32Levels
  root := satpRoot s
  allowed a := riscv32PmpAllowed s a kSv32PteSize .read kPrivSupervisor
  permits := ptePermits s (effPriv s acc) acc
  update := adUpdate s acc
  place := leafPaddr vaddr
  size_bits := rfl
  size_le := by decide
  size_ne := by decide
  place_update _ _ level h := by simp only [leafPaddr, adUpdate_ppn h]
  place_last _ := by simp [leafPaddr]

section

variable (s : Riscv32State) (vaddr : BitVec 64) (acc : Acc)

theorem pteRead_eq (a : BitVec 64) :
    (pteRead s a acc : WorldM D _) = (walker s vaddr acc).readEntry a := by
  have hread : (walker s vaddr acc).readEntry a =
      (if !riscv32PmpAllowed s a kSv32PteSize .read kPrivSupervisor then
          raisePaddr (accessFaultCause acc) a a
        else probedRead ⟨accessFaultCause acc, a, some a⟩ a kSv32PteSize >>= fun v =>
          pure (v.setWidth 32) : WorldM D _) := rfl
  rw [hread, pteRead]
  split
  · rfl
  · funext w
    simp only [probedRead, RaiseM.bind_apply, Rv64.probe]
    cases (w.busProbe a kSv32PteSize).1 <;> rfl

theorem walkFrom_follows : Follows (walker s vaddr acc).lookup
    (fun a => ((walker s vaddr acc).readEntry a : WorldM D _)) (walker s vaddr acc).pageFault .mk
    (walkFrom s vaddr acc) := by
  refine ⟨fun _ _ _ => rfl, fun _ _ _ _ => ?_⟩
  rw [← pteRead_eq]
  rfl

theorem useLeaf_eq (a : BitVec 64) (pte : BitVec 32) (level : Int) :
    useLeaf s vaddr acc (effPriv s acc) ⟨a, pte, level⟩ =
      ((walker s vaddr acc).leafUse : Use _ _ _ (World D) _).run a pte level := by
  simp only [useLeaf, Use.run]
  simp only [Walker.leafUse, walker]
  cases adUpdate s acc pte with
  | none => rfl
  | some new =>
    dsimp only
    cases leafPaddr vaddr new level <;> rfl

theorem walkPage_eq (w : World D) :
    walkPage s vaddr acc (effPriv s acc) w = (walker s vaddr acc).run w :=
  (walker s vaddr acc).loop_eq_run (walkFrom_follows s vaddr acc) (useLeaf_eq s vaddr acc) rfl w

end

/-! ## The whole translation -/

@[simp] theorem onWorld_apply {α : Type} (c : Riscv32State → WorldM D α) (m : Machine D) :
    onWorld c m = match c m.rs m.w with
      | .ok a w => .ok a (m.setWorld w)
      | .raise t w => .raise t (m.setWorld w)
      | .fatal => .fatal := rfl

@[simp] theorem setWorld_rs (m : Machine D) (w : World D) : (m.setWorld w).rs = m.rs := rfl
@[simp] theorem setWorld_w (m : Machine D) (w : World D) : (m.setWorld w).w = w := rfl
@[simp] theorem setRs_rs (m : Machine D) (s : Riscv32State) : (m.setRs s).rs = s := rfl
@[simp] theorem setRs_w (m : Machine D) (s : Riscv32State) : (m.setRs s).w = m.w := rfl

def hostOf (w : World D) (paddr : BitVec 64) : Option HostPtr :=
  busRamPage w.bus (paddr &&& ~~~kSv32OffsetMask)

section

variable (vaddr : BitVec 64) (size : Nat) (acc : Acc)

theorem translateBare_apply (m : Machine D) :
    translateBare vaddr size acc m =
      if riscv32PmpAllowed m.rs vaddr size acc m.rs.priv then .ok (vaddr, hostOf m.w vaddr) m
      else .raise ⟨accessFaultCause acc, vaddr, some vaddr⟩ m := by
  unfold translateBare
  cases h : riscv32PmpAllowed m.rs vaddr size acc m.rs.priv <;> simp [h, hostOf]

theorem translateMiss_apply (eff : BitVec 8) (m : Machine D) :
    translateMiss vaddr size acc eff m = match walkPage m.rs vaddr acc eff m.w with
      | .ok paddr w =>
        if riscv32PmpAllowed m.rs paddr size acc m.rs.priv then
          .ok (paddr, hostOf w paddr)
            ((m.setWorld w).setRs (tlbFill m.rs vaddr acc paddr (hostOf w paddr)))
        else .raise ⟨accessFaultCause acc, vaddr, some paddr⟩ (m.setWorld w)
      | .raise t w => .raise t (m.setWorld w)
      | .fatal => .fatal := by
  unfold translateMiss
  simp only [RaiseM.bind_apply, onWorld_apply]
  cases walkPage m.rs vaddr acc eff m.w with
  | ok paddr w =>
    cases h : riscv32PmpAllowed m.rs paddr size acc m.rs.priv <;> simp [h, hostOf]
  | raise t w => rfl
  | fatal => rfl

theorem riscv32Translate_apply (m : Machine D) :
    riscv32Translate vaddr size acc m = if isBare m.rs acc then translateBare (low vaddr) size acc m
      else
        match tlbLookup m.rs (low vaddr) acc with
        | some e => .ok (e.pbase ||| (low vaddr &&& kSv32OffsetMask), e.host) m
        | none => translateMiss (low vaddr) size acc (effPriv m.rs acc) m := by
  unfold riscv32Translate translateLow low
  cases h : isBare m.rs acc
  · cases hl : tlbLookup m.rs (vaddr &&& kXlenMask) acc <;> simp [h, hl]
  · simp [h]

end

theorem riscv32Translate_eq (vaddr : BitVec 64) (size : Nat) (acc : Acc) (m : Machine D) :
    riscv32Translate vaddr size acc m = (walker m.rs (low vaddr) acc).translate (isBare m.rs acc)
      ((tlbLookup m.rs (low vaddr) acc).map fun e =>
        (e.pbase ||| (low vaddr &&& kSv32OffsetMask), e.host))
      (fun p => riscv32PmpAllowed m.rs p size acc m.rs.priv) hostOf m.setWorld
      (fun w p => (m.setWorld w).setRs (tlbFill m.rs (low vaddr) acc p (hostOf w p))) m m.w := by
  rw [riscv32Translate_apply, translateBare_apply, translateMiss_apply, walkPage_eq]
  cases tlbLookup m.rs (low vaddr) acc <;> rfl

end Cemu.Rv32
