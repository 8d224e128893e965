import Cemu.X86.OneDevice
import Cemu.X86.PageStores

/-!
# x86: real mode on a board with one device

With CR0 clear nothing is checked and nothing translated: an operand's bytes are those of its
linear address on the bus. What the device answers is then what an instruction sees, and what it
records is what an instruction wrote.
-/

namespace Cemu.X86

open RaiseM BitVec

structure RealMode {D : Type} (f : BitVec 64 → BitVec 64) (m : Machine D) : Prop where
  fast : m.gMemSlow = false
  cr0 : m.s.cr0 = 0
  a20 : m.s.a20 = true
  answers : Answers f m.w

namespace RealMode

variable {D : Type} {f : BitVec 64 → BitVec 64} {m m' : Machine D} {lin : BitVec 64} {size : Nat}

section

variable (h : RealMode f m)
include h

theorem setD (d : Dec) : RealMode f (m.setD d) := ⟨h.fast, h.cr0, h.a20, h.answers⟩

theorem setWorld {w : World D} (hw : Answers f w) : RealMode f (m.setWorld w) :=
  ⟨h.fast, h.cr0, h.a20, hw⟩

theorem pg : m.s.pg = false := by
  rw [X86State.pg, h.cr0]
  rfl

theorem segUse (seg : Seg) (off : BitVec 32) (size : Nat) (write : Bool) :
    segUse seg off size write m = .ok () m := by
  have hpe : m.s.pe = false := by
    rw [X86State.pe, h.cr0]
    rfl
  rw [segUse_apply, hpe]
  rfl

theorem acRefused : acRefused m.s lin size m.s.user false = false := by
  rw [X86.acRefused, h.cr0]
  rfl

end

/-- The context behind the checks of a memory operand: only the watchpoints are noted. -/
def watched (m : Machine D) (size : Nat) (write : Bool) : Dec :=
  { m.d with watchHit := m.d.watchHit ||| watchBits m.s (watches m.s m.d.mlin size write) }

section

variable (h : RealMode f m)
include h

theorem memOperand (size : Nat) (write : Bool) :
    memOperand size write m = .ok () (m.setD (watched m size write)) := by
  have hd : getD m = .ok m.d m := rfl
  rw [X86.memOperand, bind_of_ok hd, bind_of_ok (h.segUse ..)]
  rfl

theorem loadOne (hsize : 0 < size) (hlin : lin.toNat + size ≤ 0x200000000) (user : Bool) :
    ∃ w, loadOne lin size user false m = .ok (f lin) (m.setWorld w) ∧ Answers f w := by
  obtain ⟨w, hload, hw⟩ := physLoad_answers h.answers hsize hlin
  have hgate : a20Gate m.s lin = lin := by
    rw [a20Gate, h.a20]
    rfl
  rw [hgate] at hload
  refine ⟨w, ?_, hw⟩
  show (if m.gMemSlow then _ else if !m.s.pg then _ else _ : X86M D (BitVec 64)) m = _
  rw [h.fast, h.pg]
  exact hload

theorem busLoad (hsize : 0 < size) (hlin : lin.toNat + size ≤ 0x200000000) {c : BitVec 64}
    (hc : c = 0#64 ∨ c = .allOnes 64)
    (hf : ∀ a : BitVec 64, lin.toNat ≤ a.toNat → a.toNat < lin.toNat + size → f a = c) :
    ∃ w, busLoad lin size m = .ok c (m.setWorld w) ∧ Answers f w := by
  show ∃ w, linLoad lin size m.s.user false m = .ok c (m.setWorld w) ∧ _
  rw [linLoad, bind_of_ok (acCheckSlow_of_aligned h.acRefused)]
  cases hcross : crosses lin size with
  | false =>
    obtain ⟨w, hload, hw⟩ := h.loadOne hsize hlin m.s.user
    rw [hf lin le_rfl (by omega)] at hload
    exact ⟨w, hload, hw⟩
  | true =>
    have hover : ¬lin.toNat % 4096 + size ≤ 4096 := fun hle => by
      rw [crosses_eq_false.mpr hle] at hcross
      cases hcross
    have hpart : firstPart lin = 4096 - lin.toNat % 4096 := by rw [firstPart, toNat_pageOff]
    have hnext : (lin + .ofNat 64 (firstPart lin)).toNat = lin.toNat + firstPart lin := by
      rw [toNat_add, toNat_ofNat]
      omega
    obtain ⟨w, hlo, hw⟩ := h.loadOne (show 0 < firstPart lin by omega)
      (show lin.toNat + _ ≤ _ by omega) m.s.user
    obtain ⟨w', hhi, hw'⟩ := (h.setWorld hw).loadOne (show 0 < size - firstPart lin by omega)
      (show (lin + .ofNat 64 (firstPart lin)).toNat + _ ≤ _ by omega) m.s.user
    rw [hf lin le_rfl (by omega)] at hlo
    rw [hf _ (by omega) (by omega)] at hhi
    refine ⟨w', ?_, hw'⟩
    rw [if_pos rfl, bind_of_ok hlo, bind_of_ok hhi]
    rcases hc with rfl | rfl
    · rw [zero_shiftLeft]
      rfl
    · rw [allOnes_or]
      rfl

theorem storeOne (lin : BitVec 64) (size : Nat) (user : Bool) (v : BitVec 64) :
    ∃ w, storeOne lin size user v m = .ok () (m.setWorld w) ∧ Answers f w := by
  rw [storeOne_apply, h.fast, h.pg]
  exact ⟨_, rfl, h.answers.of_sameBoard (writePhys_sameBoard ..)⟩

theorem busStore (lin : BitVec 64) (size : Nat) (v : BitVec 64) :
    ∃ w, busStore lin size v m = .ok () (m.setWorld w) ∧ Answers f w := by
  show ∃ w, linStore lin size m.s.user v m = .ok () (m.setWorld w) ∧ _
  rw [linStore, bind_of_ok (acCheckSlow_of_aligned h.acRefused)]
  cases crosses lin size with
  | false => exact h.storeOne lin size m.s.user v
  | true =>
    obtain ⟨w, hlo, hw⟩ := h.storeOne lin (firstPart lin) m.s.user
      (v &&& (1#64 <<< (firstPart lin * 8) - 1))
    obtain ⟨w', hhi, hw'⟩ := (h.setWorld hw).storeOne (lin + BitVec.ofNat 64 (firstPart lin))
      (size - firstPart lin) m.s.user (v >>> (firstPart lin * 8))
    refine ⟨w', ?_, hw'⟩
    rw [if_pos rfl, bind_of_ok hlo, hhi]
    rfl

end

end RealMode

end Cemu.X86
