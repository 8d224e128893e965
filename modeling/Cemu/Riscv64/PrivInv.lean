import Cemu.Riscv64.Moves

/-!
# riscv64: the privileged-state invariant

The control registers whose values later code relies on without checking: the privilege
mode and its copies in `mstatus`, the translation mode, the delegation masks, the trap
vectors and the triggers. The invariant holds at reset and every move keeps it, so it
holds in every state a run of steps reaches.
-/

namespace Cemu.Rv64

open RaiseM Relation BitVec BitMask Function

variable {D : Type}

structure PrivRegs where
  priv : BitVec 8
  mstatus : BitVec 64
  satp : BitVec 64
  medeleg : BitVec 64
  mideleg : BitVec 64
  misa : BitVec 64
  stvec : BitVec 64
  mtvec : BitVec 64
  tselect : BitVec 64
  tdata1 : Nat → BitVec 64

def privRegs (s : RiscvState) : PrivRegs :=
  ⟨s.priv, s.mstatus, s.satp, s.medeleg, s.mideleg, s.misa, s.stvec, s.mtvec, s.tselect, s.tdata1⟩

def IsMode (priv : BitVec 8) : Prop :=
  priv = kPrivUser ∨ priv = kPrivSupervisor ∨ priv = kPrivMachine

instance (priv : BitVec 8) : Decidable (IsMode priv) := inferInstanceAs (Decidable (_ ∨ _ ∨ _))

structure StatusWf (st : BitVec 64) : Prop where
  mask : st &&& ~~~(kMstatusWmask ||| kMstatusUxlMask) = 0
  uxl : st &&& kMstatusUxlMask = kMstatusUxlValue
  mpp : st &&& kMstatusMppMask ≠ 2#64 <<< 11

structure TrigWf (t1 : BitVec 64) : Prop where
  type : t1 >>> 60 &&& 0xf = 6
  mode : t1 >>> 7 &&& 0xf = kMc6MatchEq ∨ t1 >>> 7 &&& 0xf = kMc6MatchGe ∨
    t1 >>> 7 &&& 0xf = kMc6MatchLt

structure PrivInv (p : PrivRegs) : Prop where
  priv : IsMode p.priv
  status : StatusWf p.mstatus
  mprv : p.priv < kPrivMachine → p.mstatus &&& kMstatusMprv = 0
  satp : p.satp >>> 60 &&& 0xf = kSatpModeBare ∨ p.satp >>> 60 &&& 0xf = kSatpModeSv39 ∨
    p.satp >>> 60 &&& 0xf = kSatpModeSv48
  medeleg : p.medeleg &&& 1#64 <<< 11 = 0
  mideleg : p.mideleg &&& ~~~kIrqSLevelMask = 0
  misaI : p.misa &&& kMisaI = kMisaI
  misa : p.misa &&& ~~~kMisaSupported = 0
  stvec : p.stvec &&& 2 = 0
  mtvec : p.mtvec &&& 2 = 0
  tselect : p.tselect < 2
  trig : ∀ i < kTrigCount, TrigWf (p.tdata1 i)
  chain : p.tdata1 1 &&& kMc6Chain = 0

theorem privInv_init : PrivInv (privRegs riscvInit) where
  priv := by decide
  status := ⟨by decide, by decide, by decide⟩
  mprv := by decide
  satp := by decide
  medeleg := by decide
  mideleg := by decide
  misaI := by decide
  misa := by decide
  stvec := by decide
  mtvec := by decide
  tselect := by decide
  trig i hi := by
    have hval : (privRegs riscvInit).tdata1 i = kTrigTypeMcontrol6 := if_pos hi
    rw [hval]
    exact ⟨by decide, by decide⟩
  chain := by decide

/-! ### The status word -/

def kMstatusFixed : BitVec 64 := ~~~kMstatusWmask ||| kMstatusMppMask

variable {st st' k : BitVec 64}

theorem StatusWf.of_eq (h : StatusWf st) (heq : st' &&& ~~~kMstatusWmask = st &&& ~~~kMstatusWmask)
    (hmpp : st' &&& kMstatusMppMask ≠ 2#64 <<< 11) : StatusWf st' where
  mask := (BitMask.and_congr heq (by decide)).trans h.mask
  uxl := (BitMask.and_congr heq (by decide)).trans h.uxl
  mpp := hmpp

theorem StatusWf.congr (h : StatusWf st) (heq : st' &&& kMstatusFixed = st &&& kMstatusFixed) :
    StatusWf st' := by
  have hmpp : st' &&& kMstatusMppMask = st &&& kMstatusMppMask := BitMask.and_congr heq (by decide)
  exact h.of_eq (BitMask.and_congr heq (by decide)) (hmpp ▸ h.mpp)

theorem ite_and {c : BitVec 64} (h : c &&& k = 0#64) (p : Prop) [Decidable p] :
    (if p then c else 0) &&& k = 0#64 := by
  split
  · exact h
  · exact zero_and

theorem copyFlag_and {dst : BitVec 64} (h : dst &&& k = 0#64) (st src : BitVec 64) :
    copyFlag st src dst &&& k = st &&& k := by
  rw [copyFlag, set_and (ite_and h _), clear_and h]

theorem mpp_cases (st : BitVec 64) :
    st &&& kMstatusMppMask = 0#64 <<< 11 ∨ st &&& kMstatusMppMask = 1#64 <<< 11 ∨
      st &&& kMstatusMppMask = 2#64 <<< 11 ∨ st &&& kMstatusMppMask = 3#64 <<< 11 := by
  have hlt : (st >>> 11 &&& 3#64).toNat < 4 := by
    exact Nat.lt_of_le_of_lt Nat.and_le_right (by decide)
  rw [kMstatusMppMask, and_shiftLeft]
  generalize st >>> 11 &&& 3#64 = mpp at hlt
  have : mpp = 0 ∨ mpp = 1 ∨ mpp = 2 ∨ mpp = 3 := by bv_omega
  rcases this with rfl | rfl | rfl | rfl <;> decide

/-! ### Traps and returns -/

section Traps

variable {s : RiscvState}

theorem PrivInv.setMode {p : PrivRegs} (h : PrivInv p) {priv : BitVec 8} {mstatus : BitVec 64}
    (hpriv : IsMode priv)
    (hstatus : StatusWf mstatus) (hmprv : priv < kPrivMachine → mstatus &&& kMstatusMprv = 0) :
    PrivInv { p with priv := priv, mstatus := mstatus } :=
  { h with priv := hpriv, status := hstatus, mprv := hmprv }

theorem PrivInv.trap (h : PrivInv (privRegs s)) (pc cause tval : BitVec 64) :
    PrivInv (privRegs (riscvTrap pc s cause tval).2) := by
  unfold riscvTrap
  cases hto : trapToS s cause with
  | true =>
    have hlow : s.priv < kPrivMachine := by
      simp only [trapToS, Bool.and_eq_true, decide_eq_true_eq] at hto
      exact hto.2
    have hst : ∀ k : BitVec 64, kMstatusSie &&& k = 0#64 → kMstatusSpie &&& k = 0#64 →
        kMstatusSpp &&& k = 0#64 →
        (copyFlag s.mstatus kMstatusSie kMstatusSpie &&& ~~~kMstatusSie &&& ~~~kMstatusSpp |||
          (if s.priv = kPrivSupervisor then kMstatusSpp else 0)) &&& k = s.mstatus &&& k := by
      intro k hsie hspie hspp
      rw [set_and (ite_and hspp _), clear_and hspp, clear_and hsie,
        copyFlag_and hspie]
    exact h.setMode (.inr (.inl rfl))
      (h.status.congr (hst _ (by decide) (by decide) (by decide)))
      fun _ => (hst _ (by decide) (by decide) (by decide)).trans (h.mprv hlow)
  | false =>
    have hmode : s.priv.setWidth 64 <<< 11 = 0#64 <<< 11 ∨
        s.priv.setWidth 64 <<< 11 = 1#64 <<< 11 ∨ s.priv.setWidth 64 <<< 11 = 3#64 <<< 11 := by
      rcases h.priv with hp | hp | hp <;> rw [show s.priv = _ from hp] <;> decide
    have hin : s.priv.setWidth 64 <<< 11 &&& kMstatusMppMask = s.priv.setWidth 64 <<< 11 := by
      rcases hmode with hp | hp | hp <;> rw [hp] <;> decide
    have hout : s.priv.setWidth 64 <<< 11 &&& ~~~kMstatusWmask = 0#64 := by
      rcases hmode with hp | hp | hp <;> rw [hp] <;> decide
    have hne : s.priv.setWidth 64 <<< 11 ≠ 2#64 <<< 11 := by
      rcases hmode with hp | hp | hp <;> rw [hp] <;> decide
    have hstatus : StatusWf (copyFlag s.mstatus kMstatusMie kMstatusMpie &&& ~~~kMstatusMie
        &&& ~~~kMstatusMppMask ||| s.priv.setWidth 64 <<< 11) := by
      refine h.status.of_eq ?_ ?_
      · rw [set_and hout, clear_and (by decide), clear_and (by decide),
          copyFlag_and (by decide)]
        rfl
      · rw [replace_and hin]
        exact hne
    exact h.setMode (.inr (.inr rfl)) hstatus fun hlt => absurd hlt (BitVec.lt_irrefl _)

theorem PrivInv.mret (h : PrivInv (privRegs s)) : PrivInv (privRegs (riscvMret s).2) := by
  have hkeep : ∀ k : BitVec 64, kMstatusMie &&& k = 0#64 → kMstatusMpie &&& k = 0#64 →
      (copyFlag s.mstatus kMstatusMpie kMstatusMie ||| kMstatusMpie) &&& k = s.mstatus &&& k := by
    intro k hmie hmpie
    rw [set_and hmpie, copyFlag_and hmie]
  have hmpp := hkeep kMstatusMppMask (by decide) (by decide)
  unfold riscvMret
  simp only
  generalize copyFlag s.mstatus kMstatusMpie kMstatusMie ||| kMstatusMpie = st at hkeep hmpp ⊢
  rw [hmpp]
  have hout : ∀ st' : BitVec 64, st' &&& ~~~kMstatusWmask = st &&& ~~~kMstatusWmask →
      StatusWf (st' &&& ~~~kMstatusMppMask) := by
    intro st' hst'
    refine h.status.of_eq ?_ ?_
    · rw [clear_and (by decide), hst']
      exact hkeep _ (by decide) (by decide)
    · rw [and_and_eq_zero (by decide)]
      decide
  have hpriv : IsMode (((s.mstatus &&& kMstatusMppMask) >>> 11).setWidth 8) := by
    rcases mpp_cases s.mstatus with hp | hp | hp | hp
    · rw [hp]; decide
    · rw [hp]; decide
    · exact absurd hp h.status.mpp
    · rw [hp]; decide
  by_cases hmach : (s.mstatus &&& kMstatusMppMask) >>> 11 = kPrivMachine.setWidth 64
  · rw [hmach]
    exact h.setMode (.inr (.inr rfl)) (hout st rfl) fun hlt => absurd hlt (BitVec.lt_irrefl _)
  rw [if_pos hmach]
  have hmprv : st &&& ~~~kMstatusMprv &&& ~~~kMstatusMppMask &&& kMstatusMprv = 0 := by
    rw [clear_and (by decide)]
    exact and_and_eq_zero (by decide) _
  exact h.setMode hpriv (hout _ (clear_and (by decide) _)) fun _ => hmprv

theorem PrivInv.sret (h : PrivInv (privRegs s)) : PrivInv (privRegs (riscvSret s).2) := by
  have hkeep : ∀ k : BitVec 64, kMstatusSie &&& k = 0#64 → kMstatusSpie &&& k = 0#64 →
      kMstatusMprv &&& k = 0#64 → kMstatusSpp &&& k = 0#64 →
      ((copyFlag s.mstatus kMstatusSpie kMstatusSie ||| kMstatusSpie) &&& ~~~kMstatusMprv)
        &&& ~~~kMstatusSpp &&& k = s.mstatus &&& k := by
    intro k hsie hspie hmprv hspp
    rw [clear_and hspp, clear_and hmprv, set_and hspie, copyFlag_and hsie]
  have hpriv : ∀ st : BitVec 64,
      IsMode (if st &&& kMstatusSpp ≠ 0 then kPrivSupervisor else kPrivUser) := by
    intro st
    split <;> decide
  have hmprv : (copyFlag s.mstatus kMstatusSpie kMstatusSie ||| kMstatusSpie) &&& ~~~kMstatusMprv
      &&& ~~~kMstatusSpp &&& kMstatusMprv = 0 := by
    rw [clear_and (by decide)]
    exact and_and_eq_zero (by decide) _
  exact h.setMode (hpriv _)
    (h.status.congr (hkeep _ (by decide) (by decide) (by decide) (by decide))) fun _ => hmprv

end Traps

/-! ### CSR writes -/

theorem modeBits_cases (mode : BitVec 64) :
    let kept := if mode = kMc6MatchEq ∨ mode = kMc6MatchGe ∨ mode = kMc6MatchLt
      then mode <<< 7 else 0
    kept = kMc6MatchEq <<< 7 ∨ kept = kMc6MatchGe <<< 7 ∨ kept = kMc6MatchLt <<< 7 := by
  intro kept
  by_cases h : mode = kMc6MatchEq ∨ mode = kMc6MatchGe ∨ mode = kMc6MatchLt
  · have hkept : kept = mode <<< 7 := if_pos h
    rw [hkept]
    rcases h with rfl | rfl | rfl
    · exact .inl rfl
    · exact .inr (.inl rfl)
    · exact .inr (.inr rfl)
  · exact .inl (if_neg h)

theorem actionBits_cases (action : BitVec 64) : let kept := if action ≤ 1 then action <<< 12 else 0
    kept = 0#64 <<< 12 ∨ kept = 1#64 <<< 12 := by
  by_cases h : action ≤ 1
  · have : action = 0 ∨ action = 1 := by bv_omega
    rcases this with rfl | rfl
    · exact .inl rfl
    · exact .inr rfl
  · exact .inl (if_neg h)

/-- A field of a written `tdata1` that the copied bits miss comes from the type, the match
bits and the action bits. -/
theorem tdata1Value_field (lo : Nat) (m : BitVec 64) (idx : Nat) (cur val : BitVec 64)
    (hdmode : BitMask.field kMc6Dmode lo m = 0#64)
    (hlow : BitMask.field (kMc6Load ||| kMc6Store ||| kMc6Execute ||| kMc6U ||| kMc6S ||| kMc6M)
      lo m = 0#64)
    (hchain : BitMask.field (if idx < kTrigCount - 1 ∨ val &&& kMc6Chain = 0
      then val &&& kMc6Chain else 0) lo m = 0#64) :
    ∃ mode act : BitVec 64, (mode = kMc6MatchEq <<< 7 ∨ mode = kMc6MatchGe <<< 7 ∨
        mode = kMc6MatchLt <<< 7) ∧ (act = 0#64 <<< 12 ∨ act = 1#64 <<< 12) ∧
      BitMask.field (tdata1Value idx cur val) lo m =
        BitMask.field (kTrigTypeMcontrol6 ||| mode ||| act) lo m := by
  refine ⟨_, _, modeBits_cases (val >>> 7 &&& 0xf), actionBits_cases (val >>> 12 &&& 0xf), ?_⟩
  simp only [tdata1Value, field_or, field_and_eq_zero hdmode,
    field_and_eq_zero hlow, hchain, or_zero]

theorem trigWf_tdata1Value (idx : Nat) (cur val : BitVec 64) :
    TrigWf (tdata1Value idx cur val) := by
  have hchain : ∀ {lo : Nat} {m : BitVec 64}, BitMask.field kMc6Chain lo m = 0#64 →
      BitMask.field (if idx < kTrigCount - 1 ∨ val &&& kMc6Chain = 0
        then val &&& kMc6Chain else 0) lo m = 0#64 := by
    intro lo m h
    split
    · exact field_and_eq_zero h val
    · simp [BitMask.field]
  obtain ⟨mode, act, hm, ha, htype⟩ := tdata1Value_field 60 0xf idx cur val (by decide) (by decide)
    (hchain (by decide))
  obtain ⟨mode', act', hm', ha', hmode⟩ := tdata1Value_field 7 0xf idx cur val (by decide)
    (by decide) (hchain (by decide))
  rw [BitMask.field] at htype hmode
  refine ⟨?_, ?_⟩
  · rw [htype]
    rcases hm with rfl | rfl | rfl <;> rcases ha with rfl | rfl <;> decide
  · rw [hmode]
    rcases hm' with rfl | rfl | rfl <;> rcases ha' with rfl | rfl <;> decide

theorem tdata1Value_chain (cur val : BitVec 64) : tdata1Value 1 cur val &&& kMc6Chain = 0 := by
  have hchain : (if 1 < kTrigCount - 1 ∨ val &&& kMc6Chain = 0
      then val &&& kMc6Chain else 0) = 0#64 := by
    split
    · next h => exact h.resolve_left (by decide)
    · rfl
  obtain ⟨mode, act, hm, ha, heq⟩ := tdata1Value_field 0 kMc6Chain 1 cur val (by decide)
    (by decide) (by rw [hchain]; decide)
  rw [BitMask.field, ushiftRight_zero] at heq
  rw [heq]
  rcases hm with rfl | rfl | rfl <;> rcases ha with rfl | rfl <;> decide

variable {s s' : RiscvState} {val nextPc addr : BitVec 64} {m m' : Machine D}

theorem PrivInv.writeTdata1 (h : PrivInv (privRegs s)) (val : BitVec 64) :
    PrivInv (privRegs (riscvTriggerWriteTdata1 s val)) := by
  refine { h with trig := fun i hi => ?_, chain := ?_ }
  · change TrigWf (update s.tdata1 _ _ i)
    by_cases hi' : i = s.tselect.toNat
    · rw [hi', update_self]
      exact trigWf_tdata1Value _ _ _
    · rw [update_of_ne hi']
      exact h.trig i hi
  · change update s.tdata1 _ _ 1 &&& kMc6Chain = 0
    by_cases hi' : 1 = s.tselect.toNat
    · rw [← hi']
      exact tdata1Value_chain _ _
    · rw [update_of_ne hi']
      exact h.chain

def Csr.isPriv : Csr → Bool
  | .sstatus | .mstatus | .satp | .medeleg | .mideleg | .misa | .stvec | .mtvec | .tselect
  | .tdata1 => true
  | _ => false

theorem writePmpCfg_privRegs (s : RiscvState) (which : Nat) (val : BitVec 64) :
    privRegs (writePmpCfg s which val) = privRegs s := by
  unfold writePmpCfg setPmpcfgWord
  split <;> rfl

theorem writePmpAddr_privRegs (s : RiscvState) (i : Nat) (val : BitVec 64) :
    privRegs (writePmpAddr s i val) = privRegs s := by
  unfold writePmpAddr
  split
  · rfl
  split <;> rfl

theorem csrWrite_privRegs {c : Csr} (hc : c.isPriv = false)
    (h : csrWrite s c val nextPc = some s') :
    privRegs s' = privRegs s := by
  cases c <;> first
    | (cases hc; done)
    | (cases h; done)
    | (cases h; rfl)
    | (cases h; exact writePmpCfg_privRegs _ _ _)
    | (cases h; exact writePmpAddr_privRegs _ _ _)

theorem csrPriv_mstatus (h : csrOf addr = some .mstatus) : csrPriv addr = kPrivMachine := by
  have htable : ∀ p ∈ csrTable, p.2 = .mstatus → p.1 = 0x300 := by decide
  unfold csrOf at h
  split at h
  · next c hc =>
    cases h
    obtain ⟨l1, l2, hl, -⟩ := List.lookup_eq_some_iff.mp hc
    have hmem : (addr, .mstatus) ∈ csrTable := by rw [hl]; simp
    rw [show addr = 0x300 from htable _ hmem rfl]
    decide
  · unfold csrRange at h
    split at h
    · cases h
    split at h
    · cases h
    split at h
    · cases h
    split at h <;> cases h

theorem statusWf_write {st : BitVec 64} (h : StatusWf st) (val : BitVec 64) :
    StatusWf ((((st &&& ~~~kMstatusWmask) |||
      ((if val &&& kMstatusMppMask = 2#64 <<< 11 then val &&& ~~~kMstatusMppMask else val)
        &&& kMstatusWmask)) &&& ~~~kMstatusUxlMask) ||| kMstatusUxlValue) := by
  have hmpp : (if val &&& kMstatusMppMask = 2#64 <<< 11 then val &&& ~~~kMstatusMppMask else val)
      &&& kMstatusMppMask ≠ 2#64 <<< 11 := by
    split
    · rw [and_and_eq_zero (by decide)]
      decide
    · assumption
  refine ⟨?_, ?_, ?_⟩
  · rw [set_and (by decide), clear_and (by decide), merge_and_outside (by decide)]
    exact h.mask
  · exact replace_and (by decide) _
  · rw [set_and (by decide), clear_and (by decide), merge_and_inside (by decide)]
    exact hmpp

theorem misaWf_write (s : RiscvState) (val nextPc : BitVec 64) :
    let misa := (val &&& kMisaSupported) ||| kMisaI
    let keepC := s.misa &&& kMisaC ≠ 0 ∧ misa &&& kMisaC = 0 ∧ nextPc % 4 ≠ 0
    let written := if keepC then misa ||| kMisaC else misa
    written &&& kMisaI = kMisaI ∧ written &&& ~~~kMisaSupported = 0 := by
  intro misa keepC written
  have hI : misa &&& kMisaI = kMisaI := by
    rw [and_or_distrib_right, BitVec.and_self, BitVec.and_assoc,
      show kMisaSupported &&& kMisaI = kMisaI by decide]
    ext i
    simp
  have hsupp : misa &&& ~~~kMisaSupported = 0 := by
    rw [set_and (by decide)]
    exact and_and_eq_zero (by decide) val
  by_cases hC : keepC
  · have hw : written = misa ||| kMisaC := if_pos hC
    rw [hw]
    exact ⟨(set_and (by decide) misa).trans hI,
      (set_and (by decide) misa).trans hsupp⟩
  · have hw : written = misa := if_neg hC
    rw [hw]
    exact ⟨hI, hsupp⟩

theorem PrivInv.csrWrite (h : PrivInv (privRegs s)) {c : Csr}
    (hmach : c = .mstatus → s.priv = kPrivMachine) (hw : Rv64.csrWrite s c val nextPc = some s') :
    PrivInv (privRegs s') := by
  cases hc : c.isPriv with
  | false => rw [csrWrite_privRegs hc hw]; exact h
  | true =>
    cases c with
    | sstatus =>
      cases hw
      have hkeep : ∀ k : BitVec 64, kSstatusWmask &&& k = 0#64 →
          ((s.mstatus &&& ~~~kSstatusWmask) ||| (val &&& kSstatusWmask)) &&& k
            = s.mstatus &&& k := fun k hk => merge_and_outside hk _ _
      exact h.setMode h.priv (h.status.congr (hkeep _ (by decide)))
        fun hlt => (hkeep _ (by decide)).trans (h.mprv hlt)
    | mstatus =>
      cases hw
      exact h.setMode h.priv (statusWf_write h.status val)
        fun hlt => absurd (hmach rfl ▸ hlt) (BitVec.lt_irrefl _)
    | satp =>
      simp only [Rv64.csrWrite] at hw
      split at hw
      · cases hw
      split at hw
      · cases hw
        exact h
      cases hw
      have hval : val &&& kSatpWmask = val := by
        rw [show kSatpWmask = .allOnes 64 by decide, and_allOnes]
      have hsatp : val >>> 60 &&& 0xf = kSatpModeBare ∨ val >>> 60 &&& 0xf = kSatpModeSv39 ∨
          val >>> 60 &&& 0xf = kSatpModeSv48 := by tauto
      rw [← hval] at hsatp
      exact { h with satp := hsatp }
    | medeleg =>
      cases hw
      exact { h with medeleg := and_and_eq_zero (by decide) val }
    | mideleg =>
      cases hw
      exact { h with mideleg := and_and_eq_zero (by decide) val }
    | misa =>
      cases hw
      exact { h with misaI := (misaWf_write s val nextPc).1, misa := (misaWf_write s val nextPc).2 }
    | stvec =>
      cases hw
      exact { h with stvec := and_and_eq_zero (by decide) val }
    | mtvec =>
      cases hw
      exact { h with mtvec := and_and_eq_zero (by decide) val }
    | tselect =>
      cases hw
      refine { h with tselect := ?_ }
      change (if val < 2 then val else 1) < 2
      split
      · assumption
      · decide
    | tdata1 =>
      cases hw
      exact h.writeTdata1 val
    | _ => cases hc

theorem PrivInv.riscvCsrWrite (h : PrivInv (privRegs s))
    (hw : Rv64.riscvCsrWrite s addr val nextPc = some s') : PrivInv (privRegs s') := by
  obtain ⟨hpriv, rfl | rfl | ⟨c, hc, hcw⟩⟩ := riscvCsrWrite_eq_some hw
  · exact h
  · exact h
  · refine h.csrWrite (fun hm => ?_) hcw
    subst hm
    rw [csrPriv_mstatus hc] at hpriv
    -- no mode lies above machine mode
    rcases h.priv with hp | hp | hp <;> rw [show s.priv = _ from hp] at hpriv
    · exact absurd hpriv (by decide)
    · exact absurd hpriv (by decide)
    · exact hp

/-! ### Moves and runs -/

theorem PrivInv.still {k : Slack} (h : PrivInv (privRegs m.rs)) (hm : StillMove k m m') :
    PrivInv (privRegs m'.rs) := by
  cases hm with
  | translate vaddr size acc ht =>
    obtain ⟨-, hrs, -⟩ := riscvTranslate_frame ht
    rw [hrs]
    exact h
  | probe => exact h
  | read => exact h
  | zero => exact h
  | fs _ _ =>
    have hkeep : ∀ k : BitVec 64, kMstatusFs &&& k = 0#64 →
        (m.rs.mstatus ||| kMstatusFs) &&& k = m.rs.mstatus &&& k :=
      fun k hk => set_and hk _
    exact h.setMode h.priv (h.status.congr (hkeep _ (by decide)))
      fun hlt => (hkeep _ (by decide)).trans (h.mprv hlt)
  | store => exact h

theorem PrivInv.move (h : PrivInv (privRegs m.rs)) (hm : Move m m') : PrivInv (privRegs m'.rs) := by
  cases hm with
  | still hs => exact h.still hs
  | outside hrs => rw [hrs]; exact h
  | csr hw => exact h.riscvCsrWrite hw
  | mret _ => exact h.mret
  | sret _ => exact h.sret
  | sfence => exact h
  | flags => exact h
  | reserve => exact h
  | interrupt =>
    unfold riscvDeliverInterrupt
    simp only
    split
    · exact h.trap _ _ _
    · exact h
  | trap t => exact h.trap _ _ _
  | tick => exact h

theorem PrivInv.moves (h : PrivInv (privRegs m.rs)) (hrun : ReflTransGen Move m m') :
    PrivInv (privRegs m'.rs) := by
  induction hrun with
  | refl => exact h
  | tail _ hm ih => exact ih.move hm

/-- How a machine gets from one state to the next: a step of the CPU, or anything the board
does between steps, which leaves the control state alone. -/
inductive Next (fp : FpBackend) : Machine D → Machine D → Prop
  | step {m m' : Machine D} (h : riscvStep fp m = some m') : Next fp m m'
  | board {m m' : Machine D} (h : m'.rs = m.rs) : Next fp m m'

/-- The invariant holds in every state reachable from reset. -/
theorem privInv_reachable (fp : FpBackend) (w : World D) (pc : BitVec 64) {m : Machine D}
    (hrun : ReflTransGen (Next fp) (Machine.init w pc) m) : PrivInv (privRegs m.rs) := by
  induction hrun with
  | refl => exact privInv_init
  | tail _ hnext ih =>
    cases hnext with
    | step h => exact ih.moves (riscvStep_moves h)
    | board h => rw [h]; exact ih

/-- An MRET at reset enters user mode, and the first fetch there traps back to machine mode. -/
theorem privInv_reachable_userFault :
    (runOf .idle (oneInsn 0x30200073) 1).rs.priv = kPrivUser ∧
      (runOf .idle (oneInsn 0x30200073) 2).rs.priv = kPrivMachine ∧
      (runOf .idle (oneInsn 0x30200073) 2).rs.mcause = kExFetchFault ∧
      PrivInv (privRegs (runOf .idle (oneInsn 0x30200073) 2).rs) := by
  have hrun : ∀ k < 2, (riscvStep .idle (runOf .idle (oneInsn 0x30200073) k)).isSome = true := by
    decide +kernel
  refine ⟨by decide +kernel, by decide +kernel, by decide +kernel, ?_⟩
  exact privInv_reachable .idle _ _ (.tail (.single (.step (runOf_succ (hrun 0 (by decide)))))
    (.step (runOf_succ (hrun 1 (by decide)))))

end Cemu.Rv64
