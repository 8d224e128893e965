import Cemu.X86.Privilege

/-!
# x86: data segments across an outward return

A return to an outer level should leave no data segment of the inner one in DS, ES, FS and GS. The
checks on use look at type and limit only, so what the returns leave in the caches decides.
-/

namespace Cemu.X86

open RaiseM SegsBut

variable {D : Type}

/-- A data segment register that the level `pl` may have: unusable, of conforming code, or of a
level no more privileged. -/
def Dropped (g : SegReg) (pl : BitVec 8) : Prop :=
  g.ar = 0 ∨ g.ar &&& 0x1c = 0x1c ∨ pl ≤ dplOf g.ar

def dataSegs : List Seg := [.ds, .es, .fs, .gs]

def DataDropped (s : X86State) : Prop := ∀ g ∈ dataSegs, Dropped (s.seg g) s.cpl

namespace FarReturn

/-- The returns that leave no privileged data segment: those that load the registers anew, and
those that find nothing to drop for the level in the selector of the frame. -/
def Drops : FarReturn → Machine D → Prop
  | iret, m => m.s.nt = true ∨ ∀ f, iretImage m = some f →
      f.flv.getLsbD 17 = true ∨ ∀ g ∈ dataSegs, Dropped (m.s.seg g) (rplOf f.sel)
  | _, m => ∀ a, (retAddr (opSize m.d.w32) m).value? = some a →
      ∀ g ∈ dataSegs, Dropped (m.s.seg g) (rplOf a.sel)

end FarReturn

section Tasks

variable {m m' : Machine D} {sel : BitVec 16}

theorem loadData_dropped {g : Seg} (hpe : m.s.pe = true) (hg : g ≠ .cs)
    (h : loadData g sel m = .ok () m') : Dropped (m'.s.seg g) m'.s.cpl := by
  have hcpl : m'.s.cpl = m.s.cpl := (loadsData.of_ok h).cpl (Ne.symm hg)
  have hcommit {m1 : Machine D} {v : SegView} (hc : segCommit g sel v m1 = .ok () m') :
      m'.s.seg g = v.toReg sel :=
    (congrFun (segCommit_ok hc).seg g).trans (X86State.seg_setSeg_same ..)
  have h : (if loadsUnchecked m.s then segCommit g sel (segSynth m.s sel) else if isNull sel then
    segCommit g sel .null else _) m = .ok () m' := h
  split at h
  · next hun =>
    have hvm : m.s.vm = true := by
      rw [loadsUnchecked, hpe] at hun
      exact hun
    rw [hcommit h]
    refine .inr (.inr ?_)
    show m'.s.cpl ≤ dplOf (segSynth m.s sel).ar
    rw [dplOf_segSynth sel hvm]
    exact dplOf_le _
  · split at h
    · rw [hcommit h]
      exact .inl rfl
    · obtain ⟨_, m1, -, h⟩ := bind_eq_ok h
      obtain ⟨v, m2, -, h⟩ := bind_eq_ok h
      obtain ⟨_, m3, -, h⟩ := bind_eq_ok h
      obtain ⟨_, m4, hlevel, h⟩ := bind_eq_ok h
      obtain ⟨_, m5, -, h⟩ := bind_eq_ok h
      have hlevel := (faultWhen_ok raiseVec_ne_ok hlevel).1
      rw [Bool.or_eq_false_iff] at hlevel
      rw [hcommit h, hcpl]
      exact .inr (.inr (BitVec.not_lt.mp (of_decide_eq_false hlevel.1)))

private theorem Dropped.kept {P : Seg → Prop} {g : Seg} (h : Dropped (m.s.seg g) m.s.cpl)
    (hkept : SegsBut P m m') (hg : ¬P g) (hcs : ¬P .cs) : Dropped (m'.s.seg g) m'.s.cpl := by
  rw [hkept.seg g hg, hkept.cpl hcs]
  exact h

variable {tss16 : Bool}

theorem taskSegs_dropped {base : BitVec 64} (hpe : m.s.pe = true)
    (h : taskSegs base tss16 m = .ok () m') : DataDropped m'.s := by
  have hwide {at_ : BitVec 64} : Quiet MemFrame (tssWideSel tss16 at_ : X86M D (BitVec 16)) :=
    MemFrame.ite (MemFrame.pure 0) MemFrame.krd16
  obtain ⟨es, m1, hes, h⟩ := bind_eq_ok h
  obtain ⟨_, m2, hles, h⟩ := bind_eq_ok h
  obtain ⟨ss, m3, hss, h⟩ := bind_eq_ok h
  obtain ⟨_, m4, hlss, h⟩ := bind_eq_ok h
  obtain ⟨ds, m5, hds, h⟩ := bind_eq_ok h
  obtain ⟨_, m6, hlds, h⟩ := bind_eq_ok h
  obtain ⟨fs, m7, hfs, h⟩ := bind_eq_ok h
  obtain ⟨_, m8, hlfs, h⟩ := bind_eq_ok h
  obtain ⟨gs, m9, hgs, h⟩ := bind_eq_ok h
  -- what each load leaves alone, with the read in front of it
  have k1 : SegsBut (fun _ => False) m m1 := .of_memFrame (MemFrame.krd16.of_ok hes)
  have k2 : SegsBut (· = .es) m1 m2 := loadsData.of_ok hles
  have k3 : SegsBut (· = .ss) m2 m4 :=
    (of_memFrame (MemFrame.krd16.of_ok hss)).trans (loadsSs.of_ok hlss)
  have k4 : SegsBut (fun _ => False) m4 m5 := .of_memFrame (MemFrame.krd16.of_ok hds)
  have k5 : SegsBut (· = .ds) m5 m6 := loadsData.of_ok hlds
  have k6 : SegsBut (fun _ => False) m6 m7 := .of_memFrame (hwide.of_ok hfs)
  have k7 : SegsBut (· = .fs) m7 m8 := loadsData.of_ok hlfs
  have k8 : SegsBut (fun _ => False) m8 m9 := .of_memFrame (hwide.of_ok hgs)
  have k9 : SegsBut (· = .gs) m9 m' := loadsData.of_ok h
  have hpe_of {P : Seg → Prop} {a b : Machine D} (hk : SegsBut P a b) (ha : a.s.pe = true) :
      b.s.pe = true := by
    rw [← ha]
    exact congrArg (·.getLsbD 0) hk.cr0
  have p1 := hpe_of k1 hpe
  have p5 := hpe_of k4 (hpe_of k3 (hpe_of k2 p1))
  have p7 := hpe_of k6 (hpe_of k5 p5)
  have p9 := hpe_of k8 (hpe_of k7 p7)
  have d2 := loadData_dropped p1 (by decide) hles
  have d6 := loadData_dropped p5 (by decide) hlds
  have d8 := loadData_dropped p7 (by decide) hlfs
  have d' := loadData_dropped p9 (by decide) h
  have fs' := (d8.kept k8 id id).kept k9 (by decide) (by decide)
  have ds' := (((d6.kept k6 id id).kept k7 (by decide) (by decide)).kept k8 id id).kept k9
    (by decide) (by decide)
  have es' := (((((d2.kept k3 (by decide) (by decide)).kept k4 id id).kept k5 (by decide)
    (by decide)).kept k6 id id).kept k7 (by decide) (by decide)).kept k8 id id |>.kept k9
    (by decide) (by decide)
  intro g hg
  simp only [dataSegs, List.mem_cons, List.not_mem_nil, or_false] at hg
  rcases hg with rfl | rfl | rfl | rfl
  · exact ds'
  · exact es'
  · exact fs'
  · exact d'

namespace MemFrame

theorem doWhen {c : Bool} {act : X86M D Unit} (h : Quiet MemFrame act) :
    Quiet MemFrame (doWhen c act) := ite h (pure ())

theorem kwr16 {lin : BitVec 64} {v : BitVec 16} : Quiet MemFrame (kwr16 lin v : X86M D Unit) :=
  kbusStore

theorem kwr32 {lin : BitVec 64} {v : BitVec 32} : Quiet MemFrame (kwr32 lin v : X86M D Unit) :=
  kbusStore

theorem taskTarget {source : TaskSource} :
    Quiet MemFrame (taskTarget sel source : X86M D SegView) :=
  bind getS fun _ => bind faultVec fun _ => bind faultVec fun _ => bind faultVec fun _ =>
    bind descParse fun _ => bind faultVec fun _ => bind faultVec fun _ => bind faultVec fun _ =>
    bind faultVec fun _ => bind faultVec fun _ => pure _

theorem storeFields {store : BitVec 64 → BitVec 32 → X86M D Unit}
    (h : ∀ at_ v, Quiet MemFrame (store at_ v)) (stride : BitVec 64) (l : List (BitVec 32))
    (at_ : BitVec 64) : Quiet MemFrame (storeFields store stride at_ l) := by
  induction l generalizing at_ with
  | nil => exact pure ()
  | cons v rest ih => exact bind (h at_ v) fun _ => ih _

theorem taskSave {source : TaskSource} {nextEip : BitVec 32} :
    Quiet MemFrame (taskSave source nextEip : X86M D Unit) :=
  have hstore (out16 : Bool) at_ v :
      Quiet MemFrame (if out16 then X86.kwr16 at_ (v.setWidth 16) else X86.kwr32 at_ v :
        X86M D Unit) := ite kwr16 kwr32
  bind getS fun _ => bind (hstore _ _ _) fun _ => bind (hstore _ _ _) fun _ =>
    bind (storeFields (hstore _) _ _ _) fun _ => storeFields (fun _ _ => kwr16) _ _ _

end MemFrame

section Cr0

open Framing

variable {sel : BitVec 16}

private theorem cr0_segCommit {seg : Seg} {v : SegView} :
    Quiet (StateKept (·.cr0)) (segCommit seg sel v : X86M D Unit) :=
  Framing.segCommit (.modS fun _ => rfl)

theorem taskLink_cr0 {source : TaskSource} {v : SegView} :
    Quiet (StateKept (·.cr0)) (taskLink sel source v : X86M D Unit) := by
  have htrap : Quiet (StateKept (·.cr0)) (taskTrap v : X86M D Unit) :=
    ite (bind (quiet MemFrame.krd8) fun _ => .modS fun _ => rfl) (.modS fun _ => rfl)
  exact bind (quiet .getS) fun _ =>
    bind (quiet (MemFrame.doWhen MemFrame.kbusStore)) fun _ =>
    bind (quiet (MemFrame.doWhen MemFrame.kbusStore)) fun _ =>
    bind htrap fun _ =>
    bind (quiet (MemFrame.doWhen MemFrame.kwr16)) fun _ => .modS fun _ => rfl

theorem loadLdtr_cr0 : Quiet (StateKept (·.cr0)) (loadLdtr sel true : X86M D Unit) :=
  bind (quiet .getS) fun _ => ite (.modS fun _ => rfl) (bind faultVec fun _ =>
      bind faultVec fun _ =>
      bind (quiet MemFrame.descParse) fun _ =>
      bind faultVec fun _ =>
      bind faultVec fun _ => .modS fun _ => rfl)

theorem taskFlags_cr0 {source : TaskSource} {base : BitVec 64} :
    Quiet (StateKept (·.cr0)) (taskFlags source base tss16 : X86M D Unit) := by
  have hflush : ∀ s : X86State, (tlbFlushNonGlobal s).cr0 = s.cr0 := by
    intro s
    unfold tlbFlushNonGlobal tlbFlushAll
    split
    · dsimp only
      split <;> rfl
    · rfl
  have hcr3 : Quiet (StateKept (·.cr0)) (taskCr3 base tss16 : X86M D Unit) :=
    ite (Framing.pure ()) (bind (quiet MemFrame.krd32) fun _ =>
      .modS fun s => hflush _)
  exact bind hcr3 fun _ => bind (quiet MemFrame.krd16) fun _ =>
    bind loadLdtr_cr0 fun _ => bind (quiet MemFrame.tssWord) fun _ =>
    bind .modD fun _ => bind (.modS fun _ => rfl) fun _ =>
    ite (.modS fun _ => rfl) (Framing.pure ())

theorem taskCs_cr0 : Quiet (StateKept (·.cr0)) (taskCs sel : X86M D Unit) := by
  have hcheck : Quiet MemFrame (taskCsCheck sel : X86M D SegView) :=
    MemFrame.bind .getS fun _ => MemFrame.bind MemFrame.faultVec fun _ =>
      MemFrame.bind MemFrame.faultVec fun _ => MemFrame.bind MemFrame.descParse fun _ =>
      MemFrame.bind MemFrame.faultVec fun _ => MemFrame.bind MemFrame.faultVec fun _ =>
      MemFrame.bind MemFrame.faultVec fun _ => MemFrame.pure _
  exact bind (quiet .getS) fun _ => ite cr0_segCommit (bind (quiet hcheck) fun _ => cr0_segCommit)

theorem taskRegs_cr0 {l : List Reg} {at_ : BitVec 64} :
    Quiet (StateKept (·.cr0)) (taskRegs tss16 at_ l : X86M D Unit) := by
  have hset (s : X86State) i v : (s.setSized (!tss16) i v).cr0 = s.cr0 := by
    rw [setSized_regs]
  induction l generalizing at_ with
  | nil => exact Framing.pure ()
  | cons i rest ih =>
    exact bind (quiet MemFrame.tssWord) fun _ =>
      bind (.modS fun s => hset s i _) fun _ => ih

end Cr0

theorem doTaskSwitch_dropped {source : TaskSource} {eip : BitVec 32}
    (hpe : m.s.pe = true) (h : doTaskSwitch sel source eip none m = .ok () m') :
    DataDropped m'.s := by
  obtain ⟨v, m1, htarget, h⟩ := bind_eq_ok h
  obtain ⟨_, m2, hsave, h⟩ := bind_eq_ok h
  obtain ⟨_, m3, hlink, h⟩ := bind_eq_ok h
  obtain ⟨_, m4, hflags, h⟩ := bind_eq_ok h
  obtain ⟨newCs, m5, hread, h⟩ := bind_eq_ok h
  obtain ⟨_, m6, hcs, h⟩ := bind_eq_ok h
  obtain ⟨_, m7, hregs, h⟩ := bind_eq_ok h
  obtain ⟨_, m8, hsegs, h⟩ := bind_eq_ok h
  have hcr0 : m7.s.cr0 = m.s.cr0 := by
    calc m7.s.cr0 = m6.s.cr0 := taskRegs_cr0.of_ok hregs
      _ = m5.s.cr0 := taskCs_cr0.of_ok hcs
      _ = m4.s.cr0 := (MemFrame.krd16.of_ok hread).cr0
      _ = m3.s.cr0 := taskFlags_cr0.of_ok hflags
      _ = m2.s.cr0 := taskLink_cr0.of_ok hlink
      _ = m1.s.cr0 := (MemFrame.taskSave.of_ok hsave).cr0
      _ = m.s.cr0 := (MemFrame.taskTarget.of_ok htarget).cr0
  have hpe7 : m7.s.pe = true := by
    rw [X86State.pe, hcr0]
    exact hpe
  have hdropped := taskSegs_dropped hpe7 hsegs
  have hrest : m'.s.seg = m8.s.seg := by
    have hquiet : Quiet (StateKept (·.seg)) (do
        modS fun s => { s with cr0 := s.cr0 ||| 0x8 }
        pushCode none
        let eip ← tssWord v.base (!v.ar.getLsbD 3) 0x0e 0x20
        setEip eip : X86M D Unit) :=
      Framing.bind (.modS fun _ => rfl) fun _ => Framing.bind (Framing.pure ()) fun _ =>
        Framing.bind (Framing.quiet MemFrame.tssWord) fun _ => fun _ => rfl
    exact hquiet.of_ok h
  intro g hg
  rw [X86State.cpl_eq, hrest]
  exact hdropped g hg

end Tasks

/-! ### Outward returns -/

namespace FarReturn

variable {m m' : Machine D}

private theorem dataSegs_ne {g : Seg} (hg : g ∈ dataSegs) : g ≠ .cs ∧ g ≠ .ss := by
  revert g
  decide

private theorem dropped_iff {sel : BitVec 16} (h : ReturnsTo sel m m') :
    DataDropped m'.s ↔ ∀ g ∈ dataSegs, Dropped (m.s.seg g) (rplOf sel) := by
  refine forall_congr' fun g => forall_congr' fun hg => ?_
  rw [h.cpl, h.data g (dataSegs_ne hg).1 (dataSegs_ne hg).2]

private theorem pmRet_dropped_iff {n : BitVec 32} (h : pmRet n m = .ok () m') :
    DataDropped m'.s ↔ ∀ a, (retAddr (opSize m.d.w32) m).value? = some a →
      ∀ g ∈ dataSegs, Dropped (m.s.seg g) (rplOf a.sel) := by
  obtain ⟨a, m1, haddr, hret, -⟩ := pmRet_returnsTo h
  have hvalue : (retAddr (opSize m.d.w32) m).value? = some a := by
    rw [haddr]
    rfl
  rw [dropped_iff hret, hvalue]
  constructor
  · rintro hall _ ⟨⟩
    exact hall
  · intro hall
    exact hall a rfl

private theorem pmIret_dropped_iff (hpe : m.s.pe = true) (hvm : m.s.vm = false)
    (h : pmIret m = .ok () m') : DataDropped m'.s ↔ Drops iret m := by
  have h : (if m.s.vm then iretVm86 else if m.s.nt then iretTask else _) m = .ok () m' := h
  rw [hvm] at h
  show _ ↔ m.s.nt = true ∨ _
  cases hnt : m.s.nt with
  | true =>
    rw [hnt] at h
    refine iff_of_true ?_ (.inl rfl)
    obtain ⟨_, m1, hcheck, h⟩ := bind_eq_ok (show ((faultWhen _ (tsFault 0)) >>= _) m = _ from h)
    obtain ⟨back, m2, hback, h⟩ := bind_eq_ok h
    obtain ⟨_, m3, hnull, h⟩ := bind_eq_ok h
    have hkept := ((MemFrame.faultVec.of_ok hcheck).trans (MemFrame.krd16.of_ok hback)).trans
      (MemFrame.faultVec.of_ok hnull)
    have hpe3 : m3.s.pe = true := by
      rw [X86State.pe, hkept.cr0]
      exact hpe
    exact doTaskSwitch_dropped hpe3 h
  | false =>
    rw [hnt] at h
    obtain ⟨f, m1, hframe, h⟩ := bind_eq_ok h
    have hkept := MemFrame.iretFrame.of_ok hframe
    have himage := iretImage_eq hframe
    rw [himage, or_iff_right Bool.false_ne_true]
    cases himg : f.flv.getLsbD 17 with
    | true =>
      rw [himg] at h
      obtain ⟨-, hcpl, hall⟩ := iretToVm86_level himg h
      refine iff_of_true ?_ ?_
      · intro g _
        rw [hcpl]
        refine .inr (.inr ?_)
        rw [hall g]
        exact BitVec.le_refl _
      · rintro _ ⟨⟩
        exact .inl himg
    | false =>
      rw [himg] at h
      have hw : m1.d.w32 = m.d.w32 := by rw [hkept.d]
      rw [← hw] at h
      obtain ⟨hret, -⟩ := iretProtected_returnsTo h
      rw [dropped_iff hret, hkept.seg]
      constructor
      · rintro hall _ ⟨⟩
        exact .inr hall
      · intro hall
        exact (hall f rfl).resolve_left (by rw [himg]; exact Bool.false_ne_true)

/-- The data segment registers behind a completed protected-mode far RET or IRET that goes to an
outer level. -/
theorem outward_data_iff (op : FarReturn) (hpe : m.s.pe = true) (hvm : m.s.vm = false)
    (h : op.run m = .ok () m') (hout : m.s.cpl < m'.s.cpl) : DataDropped m'.s ↔ op.Drops m := by
  cases op with
  | retf =>
    have h : (if m.s.pe && !m.s.vm then pmRet 0 else _) m = .ok () m' := h
    rw [hpe, hvm] at h
    exact pmRet_dropped_iff h
  | retfImm n =>
    have h : (if m.s.pe && !m.s.vm then pmRet (n.setWidth 32) else _) m = .ok () m' := h
    rw [hpe, hvm] at h
    exact pmRet_dropped_iff h
  | iret =>
    obtain ⟨_, m₁, hany, h⟩ := bind_eq_ok h
    cases h
    have hany : (if m.s.pe then pmIret else iretReal) m = .ok () m₁ := hany
    rw [hpe] at hany
    show DataDropped m₁.s ↔ _
    exact pmIret_dropped_iff hpe hvm hany

end FarReturn

def userData (m : Machine Unit) : Machine Unit :=
  m.setS { m.s with seg := fun g => if g = .cs ∨ g = .ss then m.s.seg g
    else ⟨0x23, 0, 0xffffffff, 0xf3, true⟩ }

def kernelReturn : Machine Unit := returnMachine ⟨8, 0, 0xffffffff, 0x9b, true⟩ 0x202

/-- IRET to level 3 with user data segments loaded. -/
theorem outward_user_data :
    ∃ m', FarReturn.iret.run (userData kernelReturn) = .ok () m' ∧ DataDropped m'.s := by
  have hok : (FarReturn.iret.run (userData kernelReturn)).isOk = true := by decide +kernel
  have hcpl : (FarReturn.iret.run (userData kernelReturn)).state?.all
      (fun m' => decide ((userData kernelReturn).s.cpl < m'.s.cpl)) = true := by decide +kernel
  obtain ⟨_, m', hm'⟩ := Outcome.exists_of_isOk hok
  rw [hm'] at hcpl
  refine ⟨m', hm', (FarReturn.outward_data_iff .iret (by decide) (by decide) hm'
    (of_decide_eq_true hcpl)).mpr (.inr ?_)⟩
  intro f _
  refine .inr fun g hg => ?_
  have huser : (userData kernelReturn).s.seg g = ⟨0x23, 0, 0xffffffff, 0xf3, true⟩ := by
    simp only [dataSegs, List.mem_cons, List.not_mem_nil, or_false] at hg
    rcases hg with rfl | rfl | rfl | rfl <;> rfl
  rw [huser]
  exact .inr (.inr (rplOf_le _))

/-- IRET from level 0 to level 3 with the flat kernel segment in DS: level 3 goes on with it, a
usable segment of level 0. -/
theorem outward_keeps_kernel_data :
    (match FarReturn.iret.run kernelReturn with
      | .ok _ m' => decide (kernelReturn.s.cpl < m'.s.cpl) &&
          decide (m'.s.seg .ds = ⟨0x10, 0, 0xffffffff, 0x93, true⟩) &&
          decide (dplOf (m'.s.seg .ds).ar < m'.s.cpl)
      | _ => false) = true := by
  decide +kernel

end Cemu.X86
