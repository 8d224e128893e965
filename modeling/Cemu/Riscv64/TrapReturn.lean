import Cemu.Riscv64.PrivInv

/-!
# riscv64: a return undoes a trap

Trap entry pushes the interrupt enable and the mode onto a two-bit stack in `mstatus`, and
the return instruction of the same level pops them. Both levels are the same two records of
facts, `Entered` and `Returned`, and the round trip follows from the records alone.
-/

namespace Cemu.Rv64

open BitMask

inductive Level where
  | supervisor
  | machine
  deriving DecidableEq, Repr

namespace Level

def priv : Level → BitVec 8
  | supervisor => kPrivSupervisor
  | machine => kPrivMachine

def ie : Level → BitVec 64
  | supervisor => kMstatusSie
  | machine => kMstatusMie

def pie : Level → BitVec 64
  | supervisor => kMstatusSpie
  | machine => kMstatusMpie

def pp : Level → BitVec 64
  | supervisor => kMstatusSpp
  | machine => kMstatusMppMask

def stack (x : Level) : BitVec 64 := x.ie ||| x.pie ||| x.pp

def epc : Level → RiscvState → BitVec 64
  | supervisor, s => s.sepc
  | machine, s => s.mepc

def ret : Level → RiscvState → BitVec 64 × RiscvState
  | supervisor => riscvSret
  | machine => riscvMret

def encodeMode : Level → BitVec 8 → BitVec 64
  | supervisor, p => if p = kPrivSupervisor then kMstatusSpp else 0
  | machine, p => p.setWidth 64 <<< 11

def decodeMode : Level → BitVec 64 → BitVec 8
  | supervisor, f => if f ≠ 0 then kPrivSupervisor else kPrivUser
  | machine, f => (f >>> 11).setWidth 8

theorem decodeMode_encodeMode {x : Level} {p : BitVec 8} (hp : IsMode p)
    (hle : p ≤ x.priv) : x.decodeMode (x.encodeMode p) = p := by
  cases x <;> rcases hp with rfl | rfl | rfl
  · decide
  · decide
  · exact absurd hle (by decide)
  · decide
  · decide
  · decide

end Level

/-! ### One push and one pop -/

structure Entered (x : Level) (pc : BitVec 64) (s t : RiscvState) : Prop where
  priv : t.priv = x.priv
  epc : x.epc t = pc
  pie : t.mstatus &&& x.pie = if s.mstatus &&& x.ie ≠ 0 then x.pie else 0
  pp : t.mstatus &&& x.pp = x.encodeMode s.priv
  outside : t.mstatus &&& ~~~x.stack = s.mstatus &&& ~~~x.stack

structure Returned (x : Level) (h r : RiscvState) : Prop where
  ie : r.mstatus &&& x.ie = if h.mstatus &&& x.pie ≠ 0 then x.ie else 0
  priv : r.priv = x.decodeMode (h.mstatus &&& x.pp)
  outside : r.mstatus &&& ~~~(x.stack ||| kMstatusMprv) =
    h.mstatus &&& ~~~(x.stack ||| kMstatusMprv)

theorem copyFlag_dst (st src dst : BitVec 64) :
    copyFlag st src dst &&& dst = if st &&& src ≠ 0 then dst else 0 := by
  apply replace_and
  split
  · exact BitVec.and_self
  · exact BitVec.zero_and

theorem ite_and_self (p : Prop) [Decidable p] (c : BitVec 64) :
    (if p then c else 0) &&& c = if p then c else 0 := by
  split
  · exact BitVec.and_self
  · exact BitVec.zero_and

theorem encodeMode_and_pp {p : BitVec 8} (hp : IsMode p) :
    p.setWidth 64 <<< 11 &&& kMstatusMppMask = p.setWidth 64 <<< 11 := by
  rcases hp with rfl | rfl | rfl <;> decide

variable {s t h : RiscvState} {cause pc : BitVec 64}

theorem trapToS_lt (h : trapToS s cause = true) : s.priv < kPrivMachine := by
  simp only [trapToS, Bool.and_eq_true, decide_eq_true_eq] at h
  exact h.2

theorem entered_supervisor (hto : trapToS s cause = true) (pc tval : BitVec 64) :
    Entered .supervisor pc s (riscvTrap pc s cause tval).2 := by
  unfold riscvTrap
  rw [if_pos hto]
  constructor
  · rfl
  · rfl
  · show (_ ||| _) &&& kMstatusSpie = _
    rw [set_and (ite_and (by decide) _), clear_and (by decide), clear_and (by decide), copyFlag_dst]
    rfl
  · exact replace_and (ite_and_self _ _) _
  · rw [set_and (ite_and (by decide) _), clear_and (by decide),
      clear_and (by decide), copyFlag_and (by decide)]

theorem entered_machine (hto : ¬trapToS s cause = true) (hp : IsMode s.priv) (pc tval : BitVec 64) :
    Entered .machine pc s (riscvTrap pc s cause tval).2 := by
  -- the pushed mode touches nothing but its own field
  have hout (k : BitVec 64) (hk : kMstatusMppMask &&& k = 0#64) :
      s.priv.setWidth 64 <<< 11 &&& k = 0#64 := by
    rw [← encodeMode_and_pp hp]
    exact and_and_eq_zero hk _
  unfold riscvTrap
  rw [if_neg hto]
  constructor
  · rfl
  · rfl
  · show (_ ||| _) &&& kMstatusMpie = _
    rw [set_and (hout _ (by decide)), clear_and (by decide), clear_and (by decide), copyFlag_dst]
    rfl
  · exact replace_and (encodeMode_and_pp hp) _
  · rw [set_and (hout _ (by decide)), clear_and (by decide),
      clear_and (by decide), copyFlag_and (by decide)]

theorem returned_supervisor (h : RiscvState) : Returned .supervisor h (riscvSret h).2 := by
  unfold riscvSret
  constructor
  · show _ &&& kMstatusSie = _
    rw [clear_and (by decide), clear_and (by decide), set_and (by decide), copyFlag_dst]
    rfl
  · show (if _ &&& kMstatusSpp ≠ 0 then _ else _) = _
    rw [clear_and (by decide), set_and (by decide), copyFlag_and (by decide)]
    rfl
  · rw [clear_and (by decide), clear_and (by decide), set_and (by decide), copyFlag_and (by decide)]

theorem returned_machine (h : RiscvState) : Returned .machine h (riscvMret h).2 := by
  -- the conditional clear of MPRV is a clear of some of its bits
  have hmprv (p : Prop) [Decidable p] (st k) (hk : kMstatusMprv &&& k = 0#64) :
      (if p then st &&& ~~~kMstatusMprv else st) &&& k = st &&& k := by
    split
    · exact clear_and hk st
    · rfl
  unfold riscvMret
  constructor
  · show _ &&& kMstatusMie = _
    rw [clear_and (by decide), hmprv _ _ _ (by decide), set_and (by decide), copyFlag_dst]
    rfl
  · show ((_ &&& kMstatusMppMask) >>> 11).setWidth 8 = _
    rw [set_and (by decide), copyFlag_and (by decide)]
    rfl
  · rw [clear_and (by decide), hmprv _ _ _ (by decide), set_and (by decide),
      copyFlag_and (by decide)]

theorem returned (x : Level) (h : RiscvState) : Returned x h (x.ret h).2 := by
  cases x with
  | supervisor => exact returned_supervisor h
  | machine => exact returned_machine h

/-! ### The round trip -/

def Delegated (s : RiscvState) (cause : BitVec 64) : Prop :=
  (if cause.msb then s.mideleg else s.medeleg).getLsbD (cause &&& 0xfff).toNat = true

instance (s : RiscvState) (cause : BitVec 64) : Decidable (Delegated s cause) :=
  inferInstanceAs (Decidable (_ = true))

def AlignedPc (s : RiscvState) (pc : BitVec 64) : Prop :=
  pc.getLsbD 0 = false ∧ (s.misa &&& kMisaC = 0 → pc.getLsbD 1 = false)

instance (s : RiscvState) (pc : BitVec 64) : Decidable (AlignedPc s pc) :=
  inferInstanceAs (Decidable (_ ∧ (_ → _)))

theorem intBit_iff (cause : BitVec 64) : cause &&& kIntBit ≠ 0 ↔ cause.msb = true := by
  rw [show kIntBit = 1#64 <<< 63 from rfl, ne_eq]
  rw [show 0 = 0#64 from rfl, and_bit_eq_zero, BitVec.msb_eq_getLsbD_last]
  simp

theorem trapToS_iff (s : RiscvState) (cause : BitVec 64) :
    trapToS s cause = true ↔ Delegated s cause ∧ s.priv < kPrivMachine := by
  have hbit (x : BitVec 64) n : x >>> n &&& 1 ≠ 0 ↔ x.getLsbD n = true := by
    rw [show (1 : BitVec 64) = 1#64 <<< 0 from rfl, ne_eq, show 0 = 0#64 from rfl, and_bit_eq_zero]
    simp
  simp only [trapToS, Delegated, Bool.and_eq_true, decide_eq_true_eq, intBit_iff, hbit]

theorem returnTarget_aligned (h : AlignedPc s pc) : returnTarget s pc = pc := by
  unfold returnTarget
  rw [show ~~~(1 : BitVec 64) = ~~~(1#64 <<< 0) from rfl, clear_bit_of_unset h.1]
  split
  · next hc => exact clear_bit_of_unset (h.2 hc)
  · rfl

theorem ie_eq_ite (x : Level) (st : BitVec 64) :
    (if st &&& x.ie ≠ 0 then x.ie else 0) = st &&& x.ie := by
  obtain ⟨k, hk⟩ : ∃ k, x.ie = 1#64 <<< k := by
    cases x
    · exact ⟨1, rfl⟩
    · exact ⟨3, rfl⟩
  rw [hk]
  split
  · next hne =>
    rw [ne_eq, show 0 = 0#64 from rfl, and_bit_eq_zero, Bool.not_eq_false] at hne
    exact (and_bit_of_set hne).symm
  · next hz => exact (not_not.mp hz).symm

theorem Entered.returns {x : Level} {r : RiscvState} (he : Entered x pc s t) (hr : Returned x h r)
    (hp : IsMode s.priv) (hle : s.priv ≤ x.priv)
    (hstack : h.mstatus &&& x.stack = t.mstatus &&& x.stack) :
    r.priv = s.priv ∧ r.mstatus &&& x.ie = s.mstatus &&& x.ie := by
  have hpie : h.mstatus &&& x.pie = t.mstatus &&& x.pie :=
    BitMask.and_congr hstack (by cases x <;> decide)
  have hpp : h.mstatus &&& x.pp = t.mstatus &&& x.pp :=
    BitMask.and_congr hstack (by cases x <;> decide)
  constructor
  · rw [hr.priv, hpp, he.pp, Level.decodeMode_encodeMode hp hle]
  · have hset : x.pie ≠ 0 := by cases x <;> decide
    rw [hr.ie, hpie, he.pie]
    refine .trans ?_ (ie_eq_ite x s.mstatus)
    by_cases hie : s.mstatus &&& x.ie ≠ 0
    · rw [if_pos hie, if_pos hset, if_pos hie]
    · rw [if_neg hie, if_neg (not_not_intro rfl), if_neg hie]

/-- What the return of level `x` from `h` restores of the interrupted state `s` at `pc`. -/
structure Undone (x : Level) (pc : BitVec 64) (s h : RiscvState) : Prop where
  priv : (x.ret h).2.priv = s.priv
  ie : (x.ret h).2.mstatus &&& x.ie = s.mstatus &&& x.ie
  pc : AlignedPc h pc → (x.ret h).1 = pc
  outside : (x.ret h).2.mstatus &&& ~~~(x.stack ||| kMstatusMprv) =
    h.mstatus &&& ~~~(x.stack ||| kMstatusMprv)

theorem Entered.undone {x : Level} (he : Entered x pc s t) (hp : IsMode s.priv)
    (hle : s.priv ≤ x.priv) (hepc : x.epc h = x.epc t)
    (hstack : h.mstatus &&& x.stack = t.mstatus &&& x.stack) : Undone x pc s h := by
  obtain ⟨hpriv, hie⟩ := he.returns (returned x h) hp hle hstack
  refine ⟨hpriv, hie, fun hal => ?_, (returned x h).outside⟩
  have htarget : (x.ret h).1 = returnTarget h (x.epc h) := by cases x <;> rfl
  rw [htarget, hepc, he.epc, returnTarget_aligned hal]

/-- From a state in one of the three modes, for every cause: the trap enters S exactly when the
cause is delegated and the trap comes from below M. Whatever state `h` the handler of that level
returns from, with its `xepc` and its stack bits as the trap left them, the return restores the
mode, the interrupt enable and every `pc` aligned to IALIGN; and neither the trap nor the return
changes a status bit outside the stack, but for MPRV. -/
theorem trap_return_inverse (s : RiscvState) (pc cause tval : BitVec 64) (hp : IsMode s.priv) :
    ∃ x : Level, Entered x pc s (riscvTrap pc s cause tval).2 ∧
      (x = .supervisor ↔ Delegated s cause ∧ s.priv < kPrivMachine) ∧
      ∀ h : RiscvState, x.epc h = x.epc (riscvTrap pc s cause tval).2 →
        h.mstatus &&& x.stack = (riscvTrap pc s cause tval).2.mstatus &&& x.stack →
        Undone x pc s h := by
  by_cases hto : trapToS s cause = true
  · have he := entered_supervisor hto pc tval
    have hlow := trapToS_lt hto
    have hle : s.priv ≤ Level.priv .supervisor := by
      rcases hp with hp | hp | hp <;> rw [hp] at hlow ⊢
      · decide
      · decide
      · exact absurd hlow (by decide)
    exact ⟨.supervisor, he, iff_of_true rfl ((trapToS_iff s cause).mp hto),
      fun _ => he.undone hp hle⟩
  · have he := entered_machine hto hp pc tval
    have hle : s.priv ≤ Level.priv .machine := by
      rcases hp with hp | hp | hp <;> rw [hp] <;> decide
    exact ⟨.machine, he, iff_of_false (by decide) (mt (trapToS_iff s cause).mpr hto),
      fun _ => he.undone hp hle⟩

/-- An ecall of a user program that is delegated. -/
theorem trap_return_inverse_userEcall :
    let s := { riscvInit with priv := kPrivUser, medeleg := 1#64 <<< 8, mstatus := kMstatusSie }
    let t := (riscvTrap 0x80000002 s kExUserEcall 0).2
    ∃ x : Level, Entered x 0x80000002 s t ∧
      (x = .supervisor ↔ Delegated s kExUserEcall ∧ s.priv < kPrivMachine) ∧
      ∀ h : RiscvState, x.epc h = x.epc t → h.mstatus &&& x.stack = t.mstatus &&& x.stack →
        Undone x 0x80000002 s h :=
  trap_return_inverse _ _ _ _ (by decide)

end Cemu.Rv64
