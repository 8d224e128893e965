import Cemu.X86.WriteFault
import Cemu.X86.Stores

/-!
# x86: stores of several parts in one page

When every part of a store lies in one page, only the first can fault: it leaves a cached
translation under which the others succeed. The alignment check does not disturb this, because a
part that is misaligned follows a first part that is.
-/

namespace Cemu.X86

open List

open RaiseM BitVec X86State

variable {D : Type}

/-! ### A page that is warm for the parts to come -/

/-- The access is of a size the alignment check looks at, at an address that is no multiple. -/
def misaligned (lin : BitVec 64) (size : Nat) : Bool :=
  (size == 2 || size == 4 || size == 8) && decide (lin &&& (BitVec.ofNat 64 size - 1) ≠ 0)

def acOn (s : X86State) (user : Bool) : Bool := has s.cr0 kCr0Am && user && s.ac

structure Warm (vpn : BitVec 32) (mis : Bool) (s : X86State) : Prop where
  ready : Ready s.user vpn s
  aligned : (acOn s s.user && mis) = false

theorem Warm.congr {vpn : BitVec 32} {mis : Bool} {s s' : X86State} (h : Warm vpn mis s)
    (htlb : s'.tlb = s.tlb) (hgen : s'.tlbGen = s.tlbGen) (hcr0 : s'.cr0 = s.cr0)
    (hseg : s'.seg = s.seg) (hfl : s'.fl = s.fl) : Warm vpn mis s' := by
  have huser : s'.user = s.user := by rw [user, user, cpl,
    cpl, hseg]
  refine ⟨?_, ?_⟩
  · rw [huser]
    exact h.ready.congr htlb hgen hcr0
  · rw [huser, acOn, ac, hcr0, hfl]
    exact h.aligned

section Parts

variable {m m' : Machine D} {vpn : BitVec 32} {mis : Bool} {p : StorePart} {parts : List StorePart}
  {lin v : BitVec 64} {size : Nat}
  {e : TrapRec} {u : Unit}

theorem MemFrame.pg (h : MemFrame m m') : m'.s.pg = m.s.pg := by
  rw [X86State.pg, X86State.pg, h.cr0]

theorem MemFrame.user (h : MemFrame m m') : m'.s.user = m.s.user := by
  rw [X86State.user, X86State.user, X86State.cpl, X86State.cpl, h.seg]

section

variable (hfast : m.gMemSlow = false) (hpg : m.s.pg = true)

include hfast hpg

end

end Parts

/-! ### Addresses of one page -/

theorem toNat_and_low (lin : BitVec 64) {mask : BitVec 64} {n : Nat}
    (hmask : mask.toNat = 2 ^ n - 1) : (lin &&& mask).toNat = lin.toNat % 2 ^ n := by
  rw [toNat_and, hmask, Nat.and_two_pow_sub_one_eq_mod]

theorem toNat_pageOff (lin : BitVec 64) : (pageOff lin).toNat = lin.toNat % 4096 :=
  toNat_and_low lin (n := 12) rfl

variable {lin : BitVec 64}

theorem crosses_eq_false {size : Nat} :
    crosses lin size = false ↔ lin.toNat % 4096 + size ≤ 4096 := by
  rw [crosses, toNat_pageOff, decide_eq_false_iff_not, Nat.not_lt]

variable {lin : BitVec 64}

/-- The instructions that store more than one part through their modrm operand. CMPXCHG8B enters
behind its comparison and FSTP behind its read of the register. -/
inductive WideStore where
  | cmpxchg8b (nv : BitVec 64)
  | fxsave
  | fnsave (wide : Bool)
  | fnstenv (wide : Bool)
  | fstp80 (v : ExtFloat80)
  deriving DecidableEq, Repr

namespace WideStore

def run : WideStore → X86M D Unit
  | cmpxchg8b nv => cmpxchg8bStore nv
  | fxsave => X86.fxsave
  | fnsave wide => x87StoreState wide
  | fnstenv wide => x87StoreEnv wide
  | fstp80 v => wrF80 v

def size : WideStore → Nat
  | cmpxchg8b _ => 8
  | fxsave => 512
  | fnsave wide => if wide then 108 else 94
  | fnstenv wide => if wide then 28 else 14
  | fstp80 _ => 10

end WideStore

/-! ### The checks in front of a store -/

/-- The machine whose data watchpoints have seen the access. -/
def Machine.watched (m : Machine D) (lin : BitVec 64) (size : Nat) (write : Bool) : Machine D :=
  m.setD { m.d with watchHit := m.d.watchHit ||| watchBits m.s (watches m.s lin size write) }

section Checks

variable {m m' : Machine D} {seg : Seg} {off : BitVec 32} {size : Nat} {write : Bool}
  {e : TrapRec} {u : Unit}

def segAdmits (g : SegReg) (size : Nat) (write : Bool) (off : BitVec 32) : Bool :=
  decide (g.ar ≠ 0) && !typeRefused g.ar write && !limitRefused g off size

section

variable (seg : Seg) (off : BitVec 32) (size : Nat) (write : Bool) (m : Machine D)

theorem segUse_apply :
    segUse seg off size write m = if !m.s.pe then .ok () m
      else if (m.s.seg seg).ar = 0 then gpFault 0 m
      else if typeRefused (m.s.seg seg).ar write then segFault seg 0 m
      else if limitRefused (m.s.seg seg) off size then segFault seg 0 m
      else .ok () m := by
  show (if _ then _ else _ : X86M D Unit) m = _
  repeat (split; rfl)
  rfl

/-- The segment check lets the access through; real mode has none. -/
def SegAllows (s : X86State) (seg : Seg) (off : BitVec 32) (size : Nat) (write : Bool) : Prop :=
  s.pe = true → segAdmits (s.seg seg) size write off = true

theorem segUse_of_allows (h : SegAllows m.s seg off size write) :
    segUse seg off size write m = .ok () m := by
  rw [segUse_apply]
  cases hpe : m.s.pe with
  | false => rfl
  | true =>
    have hadm := h hpe
    simp only [segAdmits, Bool.and_eq_true, decide_eq_true_eq, Bool.not_eq_true'] at hadm
    obtain ⟨⟨har, htype⟩, hlimit⟩ := hadm
    rw [htype, hlimit, if_neg har]
    rfl

end

theorem segUse_of_admits (h : segAdmits (m.s.seg seg) size write off = true) :
    segUse seg off size write m = .ok () m :=
  segUse_of_allows _ _ _ _ _ fun _ => h

variable {Q : TrapRec → Machine D → Prop} (hQ : ∀ e m', Q e m' → e.cause = vecPf)

include hQ

end Checks

/-! ### All or nothing -/

namespace WideStore

variable {m m' : Machine D} {e : TrapRec} {k : WideStore}

/-- The checks in front of the parts let the operand through. -/
def Admits : WideStore → Machine D → Prop
  | cmpxchg8b _, _ => True
  | fxsave, m => has m.s.cr4 kCr4Osfxsr = true ∧ m.d.isMem = true ∧ has m.d.mlin 15 = false ∧
      SegAllows m.s m.d.mseg m.d.moff 512 true
  | k, m => SegAllows m.s m.d.mseg m.d.moff k.size true

section

variable {Q : TrapRec → Machine D → Prop}

variable (hQ : ∀ e m', Q e m' → e.cause = vecPf)

include hQ

end

end WideStore

end Cemu.X86
