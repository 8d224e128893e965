import Cemu.Lib.BitMask
import Cemu.Riscv64.MipWires

/-!
# riscv64: the supervisor views of the machine CSRs

sstatus, sie and sip against mstatus, mie and mip, as machine mode reads and writes them.
-/

namespace Cemu.Rv64

open BitVec hiding not_or or_self

variable {D : Type}

/-- A view of a machine CSR: the two numbers, the bits the view shows, the bits it writes, and the
field of the state behind both. -/
structure SView where
  view : BitVec 64
  full : BitVec 64
  shown : BitVec 64
  written : BitVec 64
  field : RiscvState → BitVec 64

def sstatusView : SView := ⟨0x100, 0x300, kSstatusRmask, kSstatusWmask, RiscvState.mstatus⟩
def sieView : SView := ⟨0x104, 0x304, kIrqSLevelMask, kIrqSLevelMask, RiscvState.mie⟩
def sipView : SView := ⟨0x144, 0x344, kIrqSLevelMask, kIrqSsip, RiscvState.mip⟩

/-- A read of the view is a read of the full register cut down to what the view shows. -/
def SView.Reads (v : SView) (m : Machine D) : Prop :=
  ∃ a b, riscvCsrRead m v.view = some a ∧ riscvCsrRead m v.full = some b ∧ a = b &&& v.shown

/-- A write through the view keeps the other bits of the field, and a read of the full register then
shows the written ones. -/
def SView.Writes (v : SView) (m : Machine D) (val nextPc : BitVec 64) : Prop :=
  ∃ s b, riscvCsrWrite m.rs v.view val nextPc = some s ∧
    v.field s &&& ~~~v.written = v.field m.rs &&& ~~~v.written ∧
    riscvCsrRead (m.setRs s) v.full = some b ∧ b &&& v.written = val &&& v.written

def ViewsAgree (m : Machine D) (val nextPc : BitVec 64) : Prop :=
  ∀ v ∈ [sstatusView, sieView, sipView], v.Reads m ∧ v.Writes m val nextPc

def IsSwitchCsr (addr : BitVec 64) (c : Csr) : Prop :=
  addr ∉ [(0xB00 : BitVec 64), 0xB02, 0xC00, 0xC01, 0xC02] ∧ csrOf addr = some c

instance (addr : BitVec 64) (c : Csr) : Decidable (IsSwitchCsr addr c) :=
  inferInstanceAs (Decidable (_ ∧ _))

variable {addr : BitVec 64}

theorem IsSwitchCsr.readCounter {c : Csr} (h : IsSwitchCsr addr c)
    (m : Machine D) : readCounter m addr = none := by
  obtain ⟨h, -⟩ := h
  simp only [List.mem_cons, not_or] at h
  obtain ⟨h1, h2, h3, h4, h5⟩ := h
  simp only [Rv64.readCounter, h1, h2, h3, h4, h5, if_false]
  split
  · rfl
  · split <;> rfl

section

variable {m : Machine D} (hpriv : m.rs.priv = kPrivMachine)

include hpriv

theorem csrPriv_le_machine (addr : BitVec 64) : ¬m.rs.priv < csrPriv addr := by
  rw [hpriv, BitVec.not_lt, csrPriv, le_def]
  have hle : (addr >>> 8 &&& 3).toNat ≤ 3 := by
    exact Nat.and_le_right
  exact Nat.le_trans (Nat.mod_le _ _) hle

theorem IsSwitchCsr.read {c : Csr} (h : IsSwitchCsr addr c) :
    riscvCsrRead m addr = csrRead m c := by
  rw [riscvCsrRead, if_neg (csrPriv_le_machine hpriv addr), h.readCounter, h.2]
  rfl

theorem IsSwitchCsr.write {c : Csr} (h : IsSwitchCsr addr c) (val nextPc : BitVec 64) :
    riscvCsrWrite m.rs addr val nextPc = csrWrite m.rs c val nextPc := by
  have h' := h.1
  simp only [List.mem_cons, not_or] at h'
  rw [riscvCsrWrite, if_neg (csrPriv_le_machine hpriv addr), if_neg h'.1, if_neg h'.2.1, h.2]
  rfl

omit hpriv in
theorem or_top_eq_iff {x r : BitVec 64} (hr : r.getLsbD 63 = true) :
    x &&& r ||| 1#64 <<< 63 = x &&& r ↔ x &&& 1#64 <<< 63 ≠ 0 := by
  have htest : x &&& 1#64 <<< 63 ≠ 0 ↔ x.getLsbD 63 = true := by
    rw [← twoPow_eq, and_twoPow]
    cases x.getLsbD 63 <;> simp
  have hmask : ∀ k < 64, (1#64 <<< 63).getLsbD k = decide (k = 63) := by decide
  rw [htest]
  constructor
  · intro h
    have hbit := congrArg (·.getLsbD 63) h
    simpa [hmask, hr] using hbit
  · intro h
    apply eq_of_getLsbD_eq
    intro k hk
    rw [getLsbD_or, getLsbD_and, hmask k hk]
    by_cases h63 : k = 63
    · subst h63
      simp [h, hr]
    · simp [h63]

theorem sstatus_reads_iff : sstatusView.Reads m ↔
      (m.rs.mstatus &&& kMstatusFs = kMstatusFs → m.rs.mstatus &&& 1#64 <<< 63 ≠ 0) := by
  have hview := (show IsSwitchCsr 0x100 .sstatus by decide).read hpriv
  have hfull := (show IsSwitchCsr 0x300 .mstatus by decide).read hpriv
  have hiff : sstatusView.Reads m ↔ (if m.rs.mstatus &&& kMstatusFs = kMstatusFs then
        m.rs.mstatus &&& kSstatusRmask ||| 1#64 <<< 63 else m.rs.mstatus &&& kSstatusRmask) =
        m.rs.mstatus &&& kSstatusRmask := by
    constructor
    · rintro ⟨a, b, ha, hb, hab⟩
      cases hview.symm.trans ha
      cases hfull.symm.trans hb
      exact hab
    · intro h
      exact ⟨_, _, hview, hfull, h⟩
  rw [hiff]
  split
  · next hfs => exact (or_top_eq_iff (by decide)).trans ⟨fun h _ => h, fun h => h hfs⟩
  · next hfs => exact iff_of_true rfl fun h => absurd h hfs

theorem sie_reads : sieView.Reads m :=
  ⟨_, _, (show IsSwitchCsr 0x104 .sie by decide).read hpriv,
    (show IsSwitchCsr 0x304 .mie by decide).read hpriv, rfl⟩

theorem sip_reads : sipView.Reads m :=
  ⟨_, _, (show IsSwitchCsr 0x144 .sip by decide).read hpriv,
    (show IsSwitchCsr 0x344 .mip by decide).read hpriv, rfl⟩

omit hpriv in
/-- A write that merges its bits into the field does what a view is to do exactly when the read
that follows shows them. -/
theorem SView.writes_iff {v : SView} {s : RiscvState} {val nextPc b : BitVec 64}
    (hwrite : riscvCsrWrite m.rs v.view val nextPc = some s)
    (hfield : v.field s = (v.field m.rs &&& ~~~v.written) ||| (val &&& v.written))
    (hread : riscvCsrRead (m.setRs s) v.full = some b) :
    v.Writes m val nextPc ↔ b &&& v.written = val &&& v.written := by
  constructor
  · rintro ⟨s', b', hs, -, hb, hval⟩
    cases hwrite.symm.trans hs
    cases hread.symm.trans hb
    exact hval
  · intro h
    refine ⟨s, b, hwrite, ?_, hread, h⟩
    rw [hfield]
    exact BitMask.merge_and_outside (BitVec.and_not_self _) _ _

theorem sstatus_writes (val nextPc : BitVec 64) : sstatusView.Writes m val nextPc := by
  let s : RiscvState :=
    { m.rs with mstatus := (m.rs.mstatus &&& ~~~kSstatusWmask) ||| (val &&& kSstatusWmask) }
  have hwrite : riscvCsrWrite m.rs 0x100 val nextPc = some s :=
    (show IsSwitchCsr 0x100 .sstatus by decide).write hpriv val nextPc
  have hread : riscvCsrRead (m.setRs s) 0x300 = some s.mstatus :=
    (show IsSwitchCsr 0x300 .mstatus by decide).read (m := m.setRs s) hpriv
  exact (SView.writes_iff (v := sstatusView) hwrite rfl hread).mpr
    (BitMask.merge_and_inside BitVec.and_self _ _)

theorem sie_writes (val nextPc : BitVec 64) : sieView.Writes m val nextPc := by
  let s : RiscvState :=
    { m.rs with mie := (m.rs.mie &&& ~~~kIrqSLevelMask) ||| (val &&& kIrqSLevelMask) }
  have hwrite : riscvCsrWrite m.rs 0x104 val nextPc = some s :=
    (show IsSwitchCsr 0x104 .sie by decide).write hpriv val nextPc
  have hread : riscvCsrRead (m.setRs s) 0x304 = some s.mie :=
    (show IsSwitchCsr 0x304 .mie by decide).read (m := m.setRs s) hpriv
  exact (SView.writes_iff (v := sieView) hwrite rfl hread).mpr
    (BitMask.merge_and_inside BitVec.and_self _ _)

theorem sip_writes_iff (val nextPc : BitVec 64) :
    sipView.Writes m val nextPc ↔ (m.w.ds.extIrq &&& kIrqSsip ≠ 0 → val &&& kIrqSsip ≠ 0) := by
  let s : RiscvState := { m.rs with mip := (m.rs.mip &&& ~~~kIrqSsip) ||| (val &&& kIrqSsip) }
  have hwrite : riscvCsrWrite m.rs 0x144 val nextPc = some s :=
    (show IsSwitchCsr 0x144 .sip by decide).write hpriv val nextPc
  have hread : riscvCsrRead (m.setRs s) 0x344 = some (s.mip ||| m.w.ds.extIrq) :=
    (show IsSwitchCsr 0x344 .mip by decide).read (m := m.setRs s) hpriv
  have hsee : (s.mip ||| m.w.ds.extIrq) &&& kIrqSsip =
      val &&& kIrqSsip ||| m.w.ds.extIrq &&& kIrqSsip := by
    rw [and_or_distrib_right]
    congr 1
    exact BitMask.merge_and_inside BitVec.and_self _ _
  refine (SView.writes_iff (v := sipView) hwrite rfl hread).trans ?_
  change (s.mip ||| m.w.ds.extIrq) &&& kIrqSsip = val &&& kIrqSsip ↔ _
  have hone (x : BitVec 64) : x &&& kIrqSsip = if x.getLsbD 1 then kIrqSsip else 0#64 :=
    and_twoPow x 1
  rw [hsee, hone, hone]
  cases m.w.ds.extIrq.getLsbD 1 <;> cases val.getLsbD 1 <;> decide

end

/-- The views agree with their registers exactly when SD has nothing to summarise that mstatus does
not show, and no line is behind an SSIP written as zero. -/
theorem views_agree_iff (m : Machine D) (val nextPc : BitVec 64)
    (hpriv : m.rs.priv = kPrivMachine) :
    ViewsAgree m val nextPc ↔
      (m.rs.mstatus &&& kMstatusFs = kMstatusFs → m.rs.mstatus &&& 1#64 <<< 63 ≠ 0) ∧
      (m.w.ds.extIrq &&& kIrqSsip ≠ 0 → val &&& kIrqSsip ≠ 0) := by
  rw [← sstatus_reads_iff hpriv, ← sip_writes_iff hpriv val nextPc]
  constructor
  · intro h
    exact ⟨(h sstatusView (by simp)).1, (h sipView (by simp)).2⟩
  · rintro ⟨hread, hwrite⟩ v hv
    simp only [List.mem_cons, List.not_mem_nil, or_false] at hv
    obtain rfl | rfl | rfl := hv
    · exact ⟨hread, sstatus_writes hpriv val nextPc⟩
    · exact ⟨sie_reads hpriv, sie_writes hpriv val nextPc⟩
    · exact ⟨sip_reads hpriv, hwrite⟩

/-- The reset machine. -/
theorem views_agree_reset :
    (Machine.init World.unmapped 0).rs.priv = kPrivMachine ∧
      ViewsAgree (Machine.init World.unmapped 0) 0x42202 0 :=
  ⟨rfl, (views_agree_iff _ 0x42202 0 rfl).mpr (by decide)⟩

/-- With FS dirty, sstatus reads SD and mstatus does not. -/
theorem sstatus_shows_hidden_sd :
    let m :=
      (Machine.init World.unmapped 0).setRs { riscvInit with mstatus := 2#64 <<< 32 ||| kMstatusFs }
    m.rs.priv = kPrivMachine ∧ riscvCsrRead m 0x300 = some 0x200006000 ∧
      riscvCsrRead m 0x100 = some 0x8000000200006000 ∧
      0x200006000 &&& kSstatusRmask = (0x200006000 : BitVec 64) := by
  decide

end Cemu.Rv64
