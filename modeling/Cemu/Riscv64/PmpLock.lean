import Cemu.Riscv64.Mmu

/-!
# PMP locks

A locked PMP entry keeps its range and its permissions through every sequence of CSR
accesses that stays inside the two arrays. The check on the CSR number stops one register
short of that: the even numbers from `0x3A4` to `0x3AE` are accepted and index the
configuration array beyond its two words.
-/

namespace Cemu.Rv64

open Option List Function

variable {D : Type}

inductive PmpElem where
  | cfg (k : Nat)
  | addr (k : Nat)
  deriving DecidableEq, Repr

def PmpElem.Implemented : PmpElem → Prop
  | cfg k => k < 2
  | addr k => k < kPmpCount

def Machine.atPriv (m : Machine D) (p : BitVec 8) : Machine D := m.setRs { m.rs with priv := p }

inductive CsrAccess where
  | read (priv : BitVec 8) (addr : BitVec 64)
  | write (priv : BitVec 8) (addr val nextPc : BitVec 64)

namespace CsrAccess

def priv : CsrAccess → BitVec 8
  | read p _ => p
  | write p _ _ _ => p

def addr : CsrAccess → BitVec 64
  | read _ a => a
  | write _ a _ _ => a

def apply (m : Machine D) : CsrAccess → Option (Machine D)
  | read p addr => (riscvCsrRead (m.atPriv p) addr).map fun _ => m.atPriv p
  | write p addr val nextPc =>
    (riscvCsrWrite (m.atPriv p).rs addr val nextPc).map (m.atPriv p).setRs

def touched (a : CsrAccess) : List PmpElem :=
  match a, csrOf a.addr with
  | _, some (.pmpcfg k) => [.cfg k]
  | read _ _, some (.pmpaddr k) => [.addr k]
  | write _ _ _ _, some (.pmpaddr k) =>
    [.cfg (k / 8), .addr k] ++ if k + 1 < kPmpCount then [.cfg ((k + 1) / 8)] else []
  | _, _ => []

def next (m : Machine D) (a : CsrAccess) : Machine D := (a.apply m).getD (m.atPriv a.priv)

end CsrAccess

def runCsr (m : Machine D) : List CsrAccess → Machine D
  | [] => m
  | a :: rest => runCsr (a.next m) rest

def touchedBy (m : Machine D) : List CsrAccess → List PmpElem
  | [] => []
  | a :: rest => (if (a.apply m).isSome then a.touched else []) ++ touchedBy (a.next m) rest

def kPmpPerms : BitVec 8 := kPmpR ||| kPmpW ||| kPmpX ||| kPmpL

structure LockHolds (m : Machine D) (accs : List CsrAccess) (i : Nat) : Prop where
  inBounds : ∀ e ∈ touchedBy m accs, e.Implemented
  region : pmpRegion (runCsr m accs).rs i = pmpRegion m.rs i
  perms : pmpCfg (runCsr m accs).rs i &&& kPmpPerms = pmpCfg m.rs i &&& kPmpPerms

/-- The CSR numbers the check lets through although no configuration word belongs to them. -/
def strayCfgCsrs : List (BitVec 64) := [0x3A4, 0x3A6, 0x3A8, 0x3AA, 0x3AC, 0x3AE]

/-! ### What a CSR number selects -/

variable {addr : BitVec 64} {k i : Nat} {s s' : RiscvState} {a : CsrAccess} {m m' : Machine D}
  {accs : List CsrAccess}

theorem csrTable_no_pmp {c : Csr} (h : csrTable.lookup addr = some c) (k : Nat) :
    c ≠ .pmpcfg k ∧ c ≠ .pmpaddr k := by
  obtain ⟨l1, l2, hl, -⟩ := lookup_eq_some_iff.mp h
  have hmem : (addr, c) ∈ csrTable := by rw [hl]; simp
  have hall : ∀ p ∈ csrTable, (∀ k, p.2 ≠ .pmpcfg k) ∧ ∀ k, p.2 ≠ .pmpaddr k := by
    simp [csrTable]
  exact ⟨(hall _ hmem).1 k, (hall _ hmem).2 k⟩

theorem csrOf_pmpcfg (h : csrOf addr = some (.pmpcfg k)) :
    addr ∈ [0x3A0, 0x3A2] ++ strayCfgCsrs ∧ k = ((addr - 0x3A0) / 2).toNat := by
  unfold csrOf at h
  split at h
  · next c hc =>
    rw [some.injEq] at h
    exact absurd h (csrTable_no_pmp hc k).1
  unfold csrRange at h
  split at h
  · cases h
  split at h
  · cases h
  split at h
  · next h3 =>
    refine ⟨?_, by simpa using h.symm⟩
    have hpar : addr.toNat % 2 = 0 := by
      have := congrArg BitVec.toNat h3.2.2
      exact (Nat.and_two_pow_sub_one_eq_mod addr.toNat 1).symm.trans this
    have hlo : 0x3A0 ≤ addr.toNat := h3.1
    have hhi : addr.toNat ≤ 0x3AE := h3.2.1
    have hcases : ∀ n < 8, .ofNat 64 (0x3A0 + 2 * n) ∈ [0x3A0, 0x3A2] ++ strayCfgCsrs := by
      decide
    have := hcases ((addr.toNat - 0x3A0) / 2) (by omega)
    rwa [show 0x3A0 + 2 * ((addr.toNat - 0x3A0) / 2) = addr.toNat by omega,
      BitVec.ofNat_toNat] at this
  · split at h <;> cases h

theorem csrOf_pmpaddr (h : csrOf addr = some (.pmpaddr k)) : k < kPmpCount := by
  unfold csrOf at h
  split at h
  · next c hc =>
    rw [some.injEq] at h
    exact absurd h (csrTable_no_pmp hc k).2
  unfold csrRange at h
  split at h
  · cases h
  split at h
  · cases h
  split at h
  · cases h
  split at h
  · simp only [some.injEq, Csr.pmpaddr.injEq] at h
    rw [kPmpCount]
    bv_omega
  · cases h

theorem pmpcfg_lt_of_not_stray (h : csrOf addr = some (.pmpcfg k)) (hs : addr ∉ strayCfgCsrs) :
    k < 2 := by
  obtain ⟨hmem, rfl⟩ := csrOf_pmpcfg h
  rcases mem_append.mp hmem with hmem | hmem
  · rcases mem_cons.mp hmem with rfl | hmem
    · decide
    · rw [mem_singleton.mp hmem]
      decide
  · exact absurd hmem hs

theorem csrOf_stray (h : addr ∈ strayCfgCsrs) :
    ∃ k, csrOf addr = some (.pmpcfg k) ∧ 2 ≤ k ∧ csrPriv addr = kPrivMachine ∧
      ∀ m : Machine D, readCounter m addr = none := by
  simp only [strayCfgCsrs, mem_cons, not_mem_nil, or_false] at h
  rcases h with rfl | rfl | rfl | rfl | rfl | rfl
  · exact ⟨2, by decide, by decide, by decide, fun m => by simp [readCounter]⟩
  · exact ⟨3, by decide, by decide, by decide, fun m => by simp [readCounter]⟩
  · exact ⟨4, by decide, by decide, by decide, fun m => by simp [readCounter]⟩
  · exact ⟨5, by decide, by decide, by decide, fun m => by simp [readCounter]⟩
  · exact ⟨6, by decide, by decide, by decide, fun m => by simp [readCounter]⟩
  · exact ⟨7, by decide, by decide, by decide, fun m => by simp [readCounter]⟩

/-! ### Locked entries -/

/-- Everything the range and the permissions of entry `i` are read from is the same. -/
structure Pinned (s s' : RiscvState) (i : Nat) : Prop where
  cfg : pmpCfg s' i = pmpCfg s i
  addr : s'.pmpaddr i = s.pmpaddr i
  below : pmpCfg s i &&& kPmpAMask = kPmpATor → 0 < i → s'.pmpaddr (i - 1) = s.pmpaddr (i - 1)

theorem Pinned.refl (s : RiscvState) (i : Nat) : Pinned s s i := ⟨rfl, rfl, fun _ _ => rfl⟩

theorem Pinned.trans {t u : RiscvState} (h : Pinned s t i) (h' : Pinned t u i) : Pinned s u i where
  cfg := h'.cfg.trans h.cfg
  addr := h'.addr.trans h.addr
  below := fun ha hi => (h'.below (h.cfg ▸ ha) hi).trans (h.below ha hi)

theorem Pinned.region (h : Pinned s s' i) : pmpRegion s' i = pmpRegion s i := by
  unfold pmpRegion
  rw [h.cfg, h.addr]
  by_cases ha : pmpCfg s i &&& kPmpAMask = kPmpATor
  · by_cases hi : 0 < i
    · rw [h.below ha hi]
    · simp only [hi, if_false]
  · simp only [ha, if_false]

theorem pmpCfgValue_locked {old cfg : BitVec 8} (h : old &&& kPmpL ≠ 0) :
    pmpCfgValue old cfg = old := by
  rw [pmpCfgValue, if_pos h]

theorem writePmpCfg_pinned (hL : pmpCfg s i &&& kPmpL ≠ 0) (hk : k < 2) (val : BitVec 64) :
    Pinned s (writePmpCfg s k val) i := by
  have hword : setPmpcfgWord s k = fun v => { s with pmpcfg := update s.pmpcfg k v } := by
    funext v
    rw [setPmpcfgWord, if_pos hk]
  refine ⟨?_, ?_, ?_⟩
  · simp only [writePmpCfg, hword, pmpCfg]
    by_cases hik : i / 8 = k
    · subst hik
      rw [update_self, ByteMem.byteOf_pack _ (le_refl 8),
        if_pos (Nat.mod_lt _ (by decide)), pmpcfgWord, if_pos hk]
      exact pmpCfgValue_locked hL
    · rw [update_of_ne hik]
  · simp only [writePmpCfg, hword]
  · intro _ _
    simp only [writePmpCfg, hword]

theorem writePmpAddr_pinned (hi : i < kPmpCount) (hL : pmpCfg s i &&& kPmpL ≠ 0) (k : Nat)
    (val : BitVec 64) : Pinned s (writePmpAddr s k val) i := by
  unfold writePmpAddr
  split
  · exact .refl s i
  split
  · exact .refl s i
  rename_i hlock
  simp only [pmpAddrLocked, not_or] at hlock
  refine ⟨rfl, ?_, ?_⟩
  · have hne : i ≠ k := by
      rintro rfl
      exact hlock.1 hL
    exact update_of_ne hne _ _
  · -- the entry below a locked TOR entry is refused as well
    intro ha hpos
    have hne : i - 1 ≠ k := by
      rintro rfl
      have hsucc : i - 1 + 1 = i := by omega
      rw [hsucc, if_pos hi] at hlock
      exact hlock.2 ⟨hL, ha⟩
    exact update_of_ne hne _ _

theorem csrWrite_pinned {c : Csr} {val nextPc : BitVec 64} (hi : i < kPmpCount)
    (hL : pmpCfg s i &&& kPmpL ≠ 0) (hc : ∀ k, c = .pmpcfg k → k < 2)
    (h : csrWrite s c val nextPc = some s') : Pinned s s' i := by
  cases c with
  | pmpcfg k =>
    cases h
    exact writePmpCfg_pinned hL (hc k rfl) val
  | pmpaddr k =>
    cases h
    exact writePmpAddr_pinned hi hL k val
  | satp =>
    simp only [csrWrite] at h
    split_ifs at h <;> cases h <;> exact ⟨rfl, rfl, fun _ _ => rfl⟩
  | _ => cases h <;> exact ⟨rfl, rfl, fun _ _ => rfl⟩

/-! ### Sequences of accesses -/

def CsrAccess.Strays (a : CsrAccess) : Prop := a.addr ∈ strayCfgCsrs ∧ kPrivMachine ≤ a.priv

theorem CsrAccess.priv_of_apply (h : a.apply m = some m') : csrPriv a.addr ≤ a.priv := by
  cases a with
  | read p addr =>
    obtain ⟨v, hv, -⟩ := map_eq_some_iff.mp h
    exact riscvCsrRead_eq_some hv
  | write p addr val nextPc =>
    obtain ⟨s', hs', -⟩ := map_eq_some_iff.mp h
    exact (riscvCsrWrite_eq_some hs').1

theorem CsrAccess.pmpcfg_lt (h : a.apply m = some m') (hs : ¬ a.Strays)
    (hk : csrOf a.addr = some (.pmpcfg k)) : k < 2 := by
  apply pmpcfg_lt_of_not_stray hk
  intro hmem
  obtain ⟨-, -, -, hp, -⟩ := csrOf_stray (D := D) hmem
  exact hs ⟨hmem, hp ▸ priv_of_apply h⟩

section

variable (hi : i < kPmpCount) (hL : pmpCfg m.rs i &&& kPmpL ≠ 0)

include hi hL

theorem CsrAccess.apply_pinned
    (hs : ¬ a.Strays) (h : a.apply m = some m') : Pinned m.rs m'.rs i := by
  cases a with
  | read p addr =>
    obtain ⟨v, -, rfl⟩ := map_eq_some_iff.mp h
    exact ⟨rfl, rfl, fun _ _ => rfl⟩
  | write p addr val nextPc =>
    have hcfg := fun k => CsrAccess.pmpcfg_lt (k := k) h hs
    obtain ⟨s', hs', rfl⟩ := map_eq_some_iff.mp h
    have hstart : Pinned m.rs (m.atPriv p).rs i := ⟨rfl, rfl, fun _ _ => rfl⟩
    refine hstart.trans ?_
    obtain ⟨-, rfl | rfl | ⟨c, hc, hw⟩⟩ := riscvCsrWrite_eq_some hs'
    · exact ⟨rfl, rfl, fun _ _ => rfl⟩
    · exact ⟨rfl, rfl, fun _ _ => rfl⟩
    · exact csrWrite_pinned hi hL (fun k hk => hcfg k (hk ▸ hc)) hw

theorem CsrAccess.next_pinned (hs : ¬ a.Strays) : Pinned m.rs (a.next m).rs i := by
  unfold next
  cases h : a.apply m with
  | none => exact ⟨rfl, rfl, fun _ _ => rfl⟩
  | some m' => exact apply_pinned hi hL hs h

theorem runCsr_pinned (hs : ∀ a ∈ accs, ¬ a.Strays) : Pinned m.rs (runCsr m accs).rs i := by
  induction accs generalizing m with
  | nil => exact .refl _ i
  | cons a rest ih =>
    have hstep := CsrAccess.next_pinned hi hL (hs a (by simp))
    refine hstep.trans (ih (hstep.cfg ▸ hL) ?_)
    intro b hb
    exact hs b (by simp [hb])

end

theorem CsrAccess.touched_implemented (hs : ¬ a.Strays) (hacc : (a.apply m).isSome) {e : PmpElem}
    (he : e ∈ a.touched) : e.Implemented := by
  obtain ⟨m', hm'⟩ := isSome_iff_exists.mp hacc
  unfold touched at he
  split at he
  · next k hk =>
    rw [mem_singleton.mp he]
    exact pmpcfg_lt hm' hs hk
  · next k hk =>
    rw [mem_singleton.mp he]
    exact csrOf_pmpaddr hk
  · next k hk =>
    have hk16 : k < 16 := csrOf_pmpaddr hk
    simp only [mem_append, mem_cons, not_mem_nil, or_false] at he
    rcases he with (rfl | rfl) | he
    · show k / 8 < 2
      omega
    · exact hk16
    · split_ifs at he with hlt
      · rw [mem_singleton.mp he]
        show (k + 1) / 8 < 2
        rw [kPmpCount] at hlt
        omega
      · cases he
  · cases he

theorem touchedBy_implemented (hs : ∀ a ∈ accs, ¬ a.Strays) {e : PmpElem}
    (he : e ∈ touchedBy m accs) : e.Implemented := by
  induction accs generalizing m with
  | nil => cases he
  | cons a rest ih =>
    rcases mem_append.mp he with he | he
    · split_ifs at he with hacc
      · exact CsrAccess.touched_implemented (hs a (by simp)) hacc he
      · cases he
    · exact ih (fun b hb => hs b (by simp [hb])) he

theorem riscvCsrRead_stray (hmem : addr ∈ strayCfgCsrs) (hp : kPrivMachine ≤ m.rs.priv) :
    (riscvCsrRead m addr).isSome := by
  obtain ⟨k, hk, -, hpriv, hcnt⟩ := csrOf_stray hmem
  have hlt : ¬ m.rs.priv < csrPriv addr := by
    rw [hpriv]
    exact BitVec.not_lt.mpr hp
  rw [riscvCsrRead, if_neg hlt, hcnt, hk]
  rfl

theorem riscvCsrWrite_stray (hmem : addr ∈ strayCfgCsrs) (hp : kPrivMachine ≤ s.priv)
    (val nextPc : BitVec 64) : (riscvCsrWrite s addr val nextPc).isSome := by
  obtain ⟨k, hk, -, hpriv, -⟩ := csrOf_stray (D := Unit) hmem
  have hlt : ¬ s.priv < csrPriv addr := by
    rw [hpriv]
    exact BitVec.not_lt.mpr hp
  have h1 : addr ≠ 0xB00 := by
    rintro rfl
    exact absurd hmem (by decide)
  have h2 : addr ≠ 0xB02 := by
    rintro rfl
    exact absurd hmem (by decide)
  rw [riscvCsrWrite, if_neg hlt, if_neg h1, if_neg h2, hk]
  rfl

theorem CsrAccess.strays_touched (m : Machine D) (hs : a.Strays) :
    (a.apply m).isSome ∧ ∃ e ∈ a.touched, ¬ e.Implemented := by
  obtain ⟨hmem, hp⟩ := hs
  obtain ⟨k, hk, hk2, -⟩ := csrOf_stray (D := D) hmem
  constructor
  · cases a with
    | read p addr =>
      rw [apply, isSome_map]
      exact riscvCsrRead_stray hmem hp
    | write p addr val nextPc =>
      rw [apply, isSome_map]
      exact riscvCsrWrite_stray hmem hp val nextPc
  · refine ⟨.cfg k, ?_, Nat.not_lt.mpr hk2⟩
    cases a <;> simp [touched, hk]

theorem exists_touchedBy (ha : a ∈ accs) (hs : a.Strays) :
    ∃ e ∈ touchedBy m accs, ¬ e.Implemented := by
  induction accs generalizing m with
  | nil => cases ha
  | cons b rest ih =>
    rcases mem_cons.mp ha with rfl | ha
    · obtain ⟨hacc, e, he, hne⟩ := a.strays_touched m hs
      exact ⟨e, by simp [touchedBy, hacc, he], hne⟩
    · obtain ⟨e, he, hne⟩ := ih (m := b.next m) ha
      exact ⟨e, by simp [touchedBy, he], hne⟩

/-- The lock of entry `i` holds through a sequence of CSR accesses exactly when none of
them, at machine privilege, names an even CSR from `0x3A4` to `0x3AE`. -/
theorem pmp_lock_holds_iff (m : Machine D) (i : Nat) (hi : i < kPmpCount)
    (hL : pmpCfg m.rs i &&& kPmpL ≠ 0) (accs : List CsrAccess) :
    LockHolds m accs i ↔ ∀ a ∈ accs, a.addr ∈ strayCfgCsrs → a.priv < kPrivMachine := by
  constructor
  · intro h a ha hmem
    by_contra hp
    obtain ⟨e, he, hne⟩ := exists_touchedBy ha ⟨hmem, BitVec.not_lt.mp hp⟩
    exact hne (h.inBounds e he)
  · intro h
    have hs : ∀ a ∈ accs, ¬ a.Strays := by
      rintro a ha ⟨hmem, hp⟩
      exact absurd (h a ha hmem) (BitVec.not_lt.mpr hp)
    have hpin := runCsr_pinned hi hL hs
    exact ⟨fun e he => touchedBy_implemented hs he, hpin.region, by rw [hpin.cfg]⟩

def lockedMachine : Machine Unit :=
  runCsr (Machine.init World.unmapped 0)
    [.write kPrivMachine 0x3B0 0x200003FF 0, .write kPrivMachine 0x3A0 0x9F 0]

theorem pmp_lock_holds_iff_pmpaddr0 :
    LockHolds lockedMachine [.write kPrivMachine 0x3B0 0 0, .read kPrivUser 0x3A4] 0 :=
  (pmp_lock_holds_iff lockedMachine 0 (by decide) (by decide)
    [.write kPrivMachine 0x3B0 0 0, .read kPrivUser 0x3A4]).mpr (by decide)

/-- One write to CSR `0x3A4` lands in `pmpaddr[0]` and moves the locked range. -/
theorem pmp_lock_broken_by_pmpcfg4 :
    pmpCfg lockedMachine.rs 0 &&& kPmpL ≠ 0 ∧
    touchedBy lockedMachine [.write kPrivMachine 0x3A4 0 0] = [.cfg 2] ∧
    pmpRegion lockedMachine.rs 0 = some (0x80000000, 0x2000) ∧
    pmpRegion (runCsr lockedMachine [.write kPrivMachine 0x3A4 0 0]).rs 0 = some (0, 0x800) ∧
    ¬ LockHolds lockedMachine [.write kPrivMachine 0x3A4 0 0] 0 := by
  refine ⟨by decide, by decide, by decide, by decide, ?_⟩
  intro h
  exact absurd h.region (by decide)

end Cemu.Rv64
