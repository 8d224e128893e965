import Cemu.Riscv.Walker

/-!
# riscv64: the walk

`walkPage` and `riscvTranslate` are the walk and the translation of a `Walker` of 64-bit entries.
-/

namespace Cemu.Rv64

open RadixWalk Riscv

variable {D : Type}

/-- The walk of `walkPage` for the privilege the access has in effect. -/
def walker (s : RiscvState) (vaddr : BitVec 64) (acc : Acc) : Walker 64 where
  vaddr := vaddr
  acc := acc
  size := 8
  canonical := isCanonical s vaddr
  lookup := ⟨pteAddrAt vaddr, pteInvalid, pteLeaf, fun pte => pte >>> 10⟩
  levels := walkLevels s
  root := satpRoot s
  allowed a := riscvPmpAllowed s a 8 .read kPrivSupervisor
  permits := ptePermits s (effPriv s acc) acc
  update := adUpdate s acc
  place := leafPaddr vaddr
  size_bits := rfl
  size_le := le_refl 8
  size_ne := by decide
  place_update _ _ level h := by
    obtain ⟨hsub, hrest⟩ := adUpdate_eq_some h
    exact AdGrown.leafPaddr ⟨hsub, hrest⟩ vaddr level
  place_last _ := by simp [leafPaddr]

variable (s : RiscvState) (vaddr : BitVec 64) (acc : Acc)

theorem pteRead_eq (a : BitVec 64) :
    (pteRead s a acc : WorldM D _) = (walker s vaddr acc).readEntry a := by
  have hread : (walker s vaddr acc).readEntry a =
      (if !riscvPmpAllowed s a 8 .read kPrivSupervisor then raisePaddr (accessFaultCause acc) a a
        else probedRead ⟨accessFaultCause acc, a, some a⟩ a 8 >>= fun v =>
          pure (v.setWidth 64) : WorldM D _) := rfl
  rw [hread, pteRead]
  simp only [BitVec.setWidth_eq, bind_pure]
  rfl

theorem walkFrom_follows : Follows (walker s vaddr acc).lookup
    (fun a => ((walker s vaddr acc).readEntry a : WorldM D _)) (walker s vaddr acc).pageFault .mk
    (walkFrom s vaddr acc) := by
  refine ⟨fun _ _ _ => rfl, fun _ _ _ _ => ?_⟩
  rw [← pteRead_eq]
  rfl

theorem useLeaf_eq (a pte : BitVec 64) (level : Int) :
    useLeaf s vaddr acc (effPriv s acc) ⟨a, pte, level⟩ =
      ((walker s vaddr acc).leafUse : Use _ _ _ (World D) _).run a pte level := by
  simp only [useLeaf, Use.run]
  simp only [Walker.leafUse, walker]
  cases adUpdate s acc pte with
  | none => rfl
  | some new =>
    dsimp only
    cases leafPaddr vaddr new level <;> rfl

theorem walkPage_eq (w : World D) :
    walkPage s vaddr acc (effPriv s acc) w = (walker s vaddr acc).run w := by
  cases hcan : isCanonical s vaddr with
  | false => simp [walkPage, Walker.run, walker, hcan, Walker.pageFault]
  | true =>
    rw [walkPage, hcan]
    exact (walker s vaddr acc).loop_eq_run (walkFrom_follows s vaddr acc) (useLeaf_eq s vaddr acc)
      hcan w

theorem riscvTranslate_eq (size : Nat) (m : Machine D) :
    riscvTranslate vaddr size acc m = (walker m.rs vaddr acc).translate (isBare m.rs acc)
      ((tlbLookup m.rs vaddr acc).map fun e => (e.pbase ||| (vaddr &&& 0xfff), e.host))
      (fun p => riscvPmpAllowed m.rs p size acc m.rs.priv) hostOf m.setWorld
      (fun w p => (m.setWorld w).setRs (tlbFill m.rs vaddr acc p (hostOf w p))) m m.w := by
  rw [riscvTranslate_apply, translateBare_apply, translateMiss_apply, walkPage_eq]
  cases tlbLookup m.rs vaddr acc <;> rfl

end Cemu.Rv64
