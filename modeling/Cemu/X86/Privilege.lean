import Cemu.X86.FlagOps
import Cemu.X86.StackWidth

/-!
# x86: what a level may change

IF and IOPL belong to the levels below the task, CPL never goes down without a gate, and a return
to an outer level should leave no data segment of the inner one behind. The instructions that write
IF, IOPL or CS are compared with these rules.
-/

namespace Cemu.X86

open RaiseM X86State
open BitVec hiding not_or

variable {D : Type}

/-! ### Levels and flags -/

private theorem zero_le_level (pl : BitVec 8) : 0 ≤ pl := BitVec.le_def.mpr (Nat.zero_le _)

theorem dplOf_le (ar : BitVec 8) : dplOf ar ≤ 3 := by
  have h : ∀ ar : BitVec 8, dplOf ar ≤ 3 := by decide
  exact h ar

theorem rplOf_le (sel : BitVec 16) : rplOf sel ≤ 3 := by
  have h : ∀ v : BitVec 8, v &&& 3 ≤ 3 := by decide
  exact h _

theorem dplOf_atLevel {v : SegView} {pl : BitVec 8} (hpl : pl ≤ 3)
    (h : v.ar.getLsbD 2 = false → dplOf v.ar = pl) : dplOf (v.atLevel pl).ar = pl := by
  cases hconf : v.ar.getLsbD 2 with
  | false =>
    rw [SegView.atLevel, hconf]
    exact h hconf
  | true =>
    have hbits : ∀ (k : Fin 4) (ar : BitVec 8),
        dplOf (ar &&& ~~~0x60#8 ||| BitVec.ofNat 8 k <<< 5) = BitVec.ofNat 8 k := by decide
    have hlt : pl.toNat < 4 := Nat.lt_succ_of_le (BitVec.le_def.mp hpl)
    have hk : pl = BitVec.ofNat 8 pl.toNat := by rw [ofNat_toNat, setWidth_eq]
    rw [SegView.atLevel, hconf, hk]
    exact hbits ⟨pl.toNat, hlt⟩ v.ar

theorem getLsbD_loadFlags (s : X86State) (mask clear flv : BitVec 32) {i : Nat} (hi : i < 32)
    (hi1 : i ≠ 1) : (s.loadFlags mask clear flv).fl.getLsbD i =
      if mask.getLsbD i then flv.getLsbD i else !clear.getLsbD i && s.fl.getLsbD i := by
  have hone : (2 : BitVec 32).getLsbD i = false := by
    have h : ∀ j : Fin 32, j ≠ 1 → (2 : BitVec 32).getLsbD j = false := by decide
    exact h ⟨i, hi⟩ fun hj => hi1 (congrArg Fin.val hj)
  have hmerge : ∀ a b p c : Bool, (a && !(p || c) || b && p || false) =
      if p then b else !c && a := by decide
  simp only [X86State.loadFlags, getLsbD_or, getLsbD_and, getLsbD_not, hi, hone]
  exact hmerge _ _ _ _

theorem iopl_bits_eq_iff (x y : BitVec 32) :
    (x >>> 12).setWidth 2 = (y >>> 12).setWidth 2 ↔
      x.getLsbD 12 = y.getLsbD 12 ∧ x.getLsbD 13 = y.getLsbD 13 := by
  have hbit (z : BitVec 32) {i : Nat} (hi : i < 2) :
      ((z >>> 12).setWidth 2).getLsbD i = z.getLsbD (12 + i) := by
    rw [getLsbD_setWidth, decide_eq_true hi, Bool.true_and, getLsbD_ushiftRight]
  constructor
  · intro h
    have h0 := congrArg (·.getLsbD 0) h
    have h1 := congrArg (·.getLsbD 1) h
    simp only [hbit _ (show 0 < 2 by decide), hbit _ (show 1 < 2 by decide)] at h0 h1
    exact ⟨h0, h1⟩
  · rintro ⟨h0, h1⟩
    apply eq_of_getLsbD_eq
    intro i hi
    rw [hbit _ hi, hbit _ hi]
    rcases Nat.lt_succ_iff_lt_or_eq.mp hi with hlt | rfl
    · obtain rfl := Nat.lt_one_iff.mp hlt
      exact h0
    · exact h1

/-! ### What the loads leave alone -/

structure SegsBut (P : Seg → Prop) (m m' : Machine D) : Prop where
  fl : m'.s.fl = m.s.fl
  cr0 : m'.s.cr0 = m.s.cr0
  seg : ∀ g, ¬P g → m'.s.seg g = m.s.seg g

namespace SegsBut

variable {P : Seg → Prop} {m m1 m' : Machine D} {seg : Seg} {sel : BitVec 16} {v : SegView}

theorem trans (h : SegsBut P m m1) (h' : SegsBut P m1 m') : SegsBut P m m' where
  fl := h'.fl.trans h.fl
  cr0 := h'.cr0.trans h.cr0
  seg g hg := (h'.seg g hg).trans (h.seg g hg)

theorem of_memFrame (h : MemFrame m m') : SegsBut P m m' :=
  ⟨h.fl, h.cr0, fun _ _ => congrFun h.seg _⟩

theorem cpl (h : SegsBut P m m') (hcs : ¬P .cs) : m'.s.cpl = m.s.cpl := by
  rw [cpl_eq, cpl_eq, h.seg _ hcs]

instance : OpFraming (D := D) (SegsBut P) where
  trans := trans
  ofMem := of_memFrame
  decoder _ _ _ := ⟨rfl, rfl, fun _ _ => rfl⟩
  regs _ _ := ⟨rfl, rfl, fun _ _ => rfl⟩

theorem setSeg {r : SegReg} :
    Quiet (SegsBut (· = seg)) (modS fun s => s.setSeg seg r : X86M D Unit) :=
  fun _ => ⟨rfl, rfl, fun _ hg => seg_setSeg_ne _ _ hg⟩

theorem commit : Quiet (SegsBut (· = seg)) (segCommit seg sel v : X86M D Unit) :=
  Framing.segCommit setSeg

theorem loadsData : Quiet (SegsBut (· = seg)) (loadData seg sel : X86M D Unit) :=
  Framing.loadData fun _ => setSeg

theorem loadsSs : Quiet (SegsBut (· = .ss)) (loadSs sel : X86M D Unit) :=
  Framing.loadSs fun _ => setSeg

theorem loadsCs : Quiet (SegsBut (· = .cs)) (loadCs sel : X86M D Unit) :=
  Framing.loadCs fun _ => setSeg

end SegsBut

/-! ### The level after a transfer -/

section Transfers

variable {m m' : Machine D} {sel : BitVec 16}

theorem segCommit_cpl {v : SegView} (h : segCommit .cs sel v m = .ok () m') :
    m'.s.cpl = dplOf v.ar := by
  have hseg : m'.s.seg .cs = v.toReg sel :=
    (congrFun (segCommit_ok h).seg .cs).trans (seg_setSeg_same ..)
  rw [cpl_eq, hseg]
  rfl

theorem dplOf_segSynth {s : X86State} (sel : BitVec 16) (hvm : s.vm = true) :
    dplOf (segSynth s sel).ar = 3 := by
  have h : dplOf 0xf3 = 3 := by decide
  rw [segSynth, hvm]
  exact h

theorem loadCs_cpl (hpe : m.s.pe = true) (h : loadCs sel m = .ok () m') : m.s.cpl ≤ m'.s.cpl := by
  have h : (if loadsUnchecked m.s then segCommit .cs sel (segSynth m.s sel) else _) m =
    .ok () m' := h
  cases hvm : m.s.vm with
  | true =>
    rw [loadsUnchecked, hpe, hvm] at h
    rw [segCommit_cpl h, dplOf_segSynth sel hvm]
    exact dplOf_le _
  | false =>
    rw [loadsUnchecked, hpe, hvm] at h
    obtain ⟨_, m1, -, h⟩ := bind_eq_ok h
    obtain ⟨_, m2, -, h⟩ := bind_eq_ok h
    obtain ⟨v, m3, -, h⟩ := bind_eq_ok h
    obtain ⟨_, m4, -, h⟩ := bind_eq_ok h
    obtain ⟨_, m5, hlevel, h⟩ := bind_eq_ok h
    obtain ⟨_, m6, -, h⟩ := bind_eq_ok h
    have hlevel := (faultWhen_ok raiseVec_ne_ok hlevel).1
    have hdpl : v.ar.getLsbD 2 = false → dplOf v.ar = m.s.cpl := by
      intro hconf
      rw [hconf, if_neg Bool.false_ne_true, Bool.or_eq_false_iff] at hlevel
      exact not_not.mp (of_decide_eq_false hlevel.1)
    rw [segCommit_cpl h, dplOf_atLevel (show m.s.cpl ≤ 3 from dplOf_le _) hdpl]
    exact BitVec.le_refl _

theorem retTarget_ok {w : Nat} {saved : BitVec 32} {t : RetTarget}
    (h : retTarget w sel saved m = .ok t m') :
    m.s.cpl ≤ rplOf sel ∧ (t.cv.ar.getLsbD 2 = false → dplOf t.cv.ar = rplOf sel) ∧
      t.outer.isSome = decide (m.s.cpl < rplOf sel) := by
  obtain ⟨_, m1, hinward, h⟩ := bind_eq_ok (show ((faultWhen (decide (rplOf sel < m.s.cpl))
    (gpFault (selCode sel))) >>= _) m = _ from h)
  have hle : m.s.cpl ≤ rplOf sel :=
    BitVec.not_lt.mp (of_decide_eq_false (faultWhen_ok raiseVec_ne_ok hinward).1)
  by_cases hout : m.s.cpl < rplOf sel
  · rw [if_pos hout] at h
    obtain ⟨esp, m2, -, h⟩ := bind_eq_ok h
    obtain ⟨ss, m3, -, h⟩ := bind_eq_ok h
    obtain ⟨cv, m4, hcs, h⟩ := bind_eq_ok h
    obtain ⟨sv, m5, -, h⟩ := bind_eq_ok h
    cases h
    exact ⟨hle, retCsCheck_ok hcs, (decide_eq_true hout).symm⟩
  · rw [if_neg hout] at h
    obtain ⟨cv, m2, hcs, h⟩ := bind_eq_ok h
    cases h
    exact ⟨hle, retCsCheck_ok hcs, (decide_eq_false hout).symm⟩

/-- A return to `sel`: outward or to the same level, which is then the RPL of `sel`, with the data
segments as they were. -/
structure ReturnsTo (sel : BitVec 16) (m m' : Machine D) : Prop where
  outward : m.s.cpl ≤ rplOf sel
  cpl : m'.s.cpl = rplOf sel
  data : ∀ g, g ≠ .cs → g ≠ .ss → m'.s.seg g = m.s.seg g

private theorem ReturnsTo.of_commit {t : RetTarget} {m1 m2 : Machine D} (hle : m.s.cpl ≤ rplOf sel)
    (hdpl : t.cv.ar.getLsbD 2 = false → dplOf t.cv.ar = rplOf sel)
    (hseg : ∀ g, g ≠ .cs → g ≠ .ss → m1.s.seg g = m.s.seg g)
    (hcs : segCommit .cs sel (t.cv.atLevel (rplOf sel)) m1 = .ok () m2)
    (hrest : SegsBut (· = .ss) m2 m') : ReturnsTo sel m m' where
  outward := hle
  cpl := by
    rw [hrest.cpl (by decide), segCommit_cpl hcs, dplOf_atLevel (rplOf_le _) hdpl]
  data g hg hg' := by
    have hcommit : SegsBut (· = .cs) m1 m2 := SegsBut.commit.of_ok hcs
    rw [hrest.seg g hg', hcommit.seg g hg, hseg g hg hg']

theorem pmRet_returnsTo {n : BitVec 32} (h : pmRet n m = .ok () m') :
    ∃ a m1, retAddr (opSize m.d.w32) m = .ok a m1 ∧ ReturnsTo a.sel m m' ∧ m'.s.fl = m.s.fl := by
  obtain ⟨a, m1, haddr, h⟩ := bind_eq_ok (show ((retAddr (opSize m.d.w32)) >>= _) m = _ from h)
  obtain ⟨t, m2, htarget, h⟩ := bind_eq_ok h
  obtain ⟨_, m3, hcs, h⟩ := bind_eq_ok h
  have hframe := (MemFrame.retAddr.of_ok haddr).trans (MemFrame.retTarget.of_ok htarget)
  obtain ⟨hle, hdpl, -⟩ := retTarget_ok htarget
  rw [cpl_eq, (MemFrame.retAddr.of_ok haddr).seg] at hle
  have hswitch : Quiet (SegsBut (· = .ss)) (retSwitch n t.outer : X86M D Unit) := by
    cases t.outer with
    | none => exact Framing.pure ()
    | some o =>
      exact Framing.bind OpFraming.setE fun _ => Framing.bind SegsBut.commit fun _ => OpFraming.setE
  have hrest : SegsBut (· = .ss) m3 m' := (Framing.bind OpFraming.setE fun _ =>
    Framing.bind hswitch fun _ => OpFraming.setEip).of_ok h
  have hcommit : SegsBut (· = .cs) m2 m3 := SegsBut.commit.of_ok hcs
  refine ⟨a, m1, haddr, .of_commit hle hdpl (fun g _ _ => congrFun hframe.seg g) hcs hrest, ?_⟩
  rw [hrest.fl, hcommit.fl, hframe.fl]

theorem iretProtected_returnsTo {f : IretFrame}
    (h : iretProtected (opSize m.d.w32) f m = .ok () m') :
    ReturnsTo f.sel m m' ∧ m'.s.fl =
      (m.s.loadFlags (iretMask m.s (decide (m.s.cpl < rplOf f.sel))) 0x30000 f.flv).fl := by
  obtain ⟨t, m1, htarget, h⟩ := bind_eq_ok (show ((retTarget (opSize m.d.w32) f.sel _ :
    X86M D RetTarget) >>= _) m = _ from h)
  have hframe := MemFrame.retTarget.of_ok htarget
  obtain ⟨hle, hdpl, houter⟩ := retTarget_ok htarget
  let m2 := (m1.setD { m1.d with rfLoad := true }).setS
    (m1.s.loadFlags (iretMask m.s t.outer.isSome) 0x30000 f.flv)
  obtain ⟨_, m3, hcs, h⟩ := bind_eq_ok (show ((segCommit .cs f.sel (t.cv.atLevel (rplOf f.sel)) :
    X86M D Unit) >>= _) m2 = _ from h)
  have hswitch : Quiet (SegsBut (· = .ss)) (iretSwitch (opSize m.d.w32) t.outer : X86M D Unit) := by
    cases t.outer with
    | none =>
      show Quiet _ (modS fun s => s.setE espI (popEsp s (BitVec.ofNat 32 (opSize m.d.w32) * 3)))
      exact OpFraming.setE
    | some o => exact Framing.bind OpFraming.setE fun _ => SegsBut.commit
  have hrest : SegsBut (· = .ss) m3 m' := (Framing.bind hswitch fun _ => OpFraming.setEip).of_ok h
  have hcommit : SegsBut (· = .cs) m2 m3 := SegsBut.commit.of_ok hcs
  have hseg : ∀ g, g ≠ .cs → g ≠ .ss → m2.s.seg g = m.s.seg g := fun g _ _ => congrFun hframe.seg g
  refine ⟨.of_commit hle hdpl hseg hcs hrest, ?_⟩
  rw [hrest.fl, hcommit.fl, ← houter]
  show (m1.s.loadFlags (iretMask m.s t.outer.isSome) 0x30000 f.flv).fl = _
  rw [X86State.loadFlags, hframe.fl]
  rfl

theorem iretVm86_flags (hvm : m.s.vm = true) (h : iretVm86 m = .ok () m') :
    ∃ f m1, iretFrame m.d.w32 m = .ok f m1 ∧ (has m.s.cr4 kCr4Vme = true ∨ m.s.iopl = 3) ∧
      m'.s.cpl = 3 ∧
      m'.s.fl = ((m.s.loadFlags (if m.d.w32 then 0x14fd7 else 0x4fd7) 0 f.flv).loadVif
        (has m.s.cr4 kCr4Vme) f.flv).fl := by
  obtain ⟨_, m0, hcheck, h⟩ := bind_eq_ok (show ((faultWhen (!has m.s.cr4 kCr4Vme &&
    decide (m.s.iopl ≠ 3)) (gpFault 0) : X86M D Unit) >>= _) m = _ from h)
  obtain ⟨hallowed, hm0⟩ := faultWhen_ok raiseVec_ne_ok hcheck
  rw [hm0] at h
  obtain ⟨f, m1, hframe, h⟩ := bind_eq_ok h
  obtain ⟨_, m2, hlimit, h⟩ := bind_eq_ok h
  obtain ⟨_, m3, hcs, h⟩ := bind_eq_ok h
  have hkept := (MemFrame.iretFrame.of_ok hframe).trans (MemFrame.faultVec.of_ok hlimit)
  have hcommit : SegsBut (· = .cs) m2 m3 := SegsBut.commit.of_ok hcs
  refine ⟨f, m1, hframe, ?_, ?_, ?_⟩
  · cases hvme : has m.s.cr4 kCr4Vme with
    | true => exact .inl rfl
    | false =>
      rw [hvme, Bool.not_false, Bool.true_and] at hallowed
      exact .inr (not_not.mp (of_decide_eq_false hallowed))
  · cases h
    show X86State.cpl (X86State.loadVif _ _ _) = 3
    have hcpl : m3.s.cpl = 3 := by rw [segCommit_cpl hcs, dplOf_segSynth _ hvm]
    rw [X86State.cpl, seg_loadVif]
    exact hcpl
  · cases h
    refine fl_loadVif ?_ _ _
    show (m3.s.loadFlags _ _ _).fl = _
    rw [X86State.loadFlags, hcommit.fl, hkept.fl]
    rfl

/-- The commits of a return to virtual-8086 mode fill the named registers from their selectors. -/
theorem commitSynth_ok {l : List (Seg × BitVec 16)} (hnodup : (l.map Prod.fst).Nodup)
    (h : commitSynth l m = .ok () m') :
    SegsBut (· ∈ l.map Prod.fst) m m' ∧
      ∀ g sel, (g, sel) ∈ l → m'.s.seg g = (segSynth m.s sel).toReg sel := by
  induction l generalizing m with
  | nil =>
    cases h
    exact ⟨⟨rfl, rfl, fun _ _ => rfl⟩, fun _ _ hmem => absurd hmem List.not_mem_nil⟩
  | cons first rest ih =>
    obtain ⟨seg, sel⟩ := first
    obtain ⟨hout, hrest⟩ := List.nodup_cons.mp hnodup
    obtain ⟨_, m1, hcommit, h⟩ := bind_eq_ok (show ((segCommit seg sel (segSynth m.s sel) :
      X86M D Unit) >>= _) m = _ from h)
    obtain ⟨hbut, hsynth⟩ := ih hrest h
    have hfirst : SegsBut (· = seg) m m1 := SegsBut.commit.of_ok hcommit
    have hvm : m1.s.vm = m.s.vm := congrArg (·.getLsbD 17) hfirst.fl
    refine ⟨⟨hbut.fl.trans hfirst.fl, hbut.cr0.trans hfirst.cr0, ?_⟩, ?_⟩
    · intro g hg
      rw [List.map_cons, List.mem_cons, not_or] at hg
      rw [hbut.seg g hg.2, hfirst.seg g hg.1]
    · intro g sel' hmem
      rcases List.mem_cons.mp hmem with heq | hmem
      · cases heq
        rw [hbut.seg seg hout]
        exact (congrFun (segCommit_ok hcommit).seg seg).trans (seg_setSeg_same ..)
      · rw [hsynth g sel' hmem, segSynth, segSynth, hvm]

theorem iretToVm86_level {w : Nat} {f : IretFrame} (hvm : f.flv.getLsbD 17 = true)
    (h : iretToVm86 w f m = .ok () m') :
    m.s.cpl = 0 ∧ m'.s.cpl = 3 ∧ ∀ g, dplOf (m'.s.seg g).ar = 3 := by
  obtain ⟨_, m0, hcheck, h⟩ := bind_eq_ok (show ((faultWhen (decide (m.s.cpl ≠ 0)) (gpFault 0) :
    X86M D Unit) >>= _) m = _ from h)
  have hcpl := not_not.mp (of_decide_eq_false (faultWhen_ok raiseVec_ne_ok hcheck).1)
  obtain ⟨esp, m1, -, h⟩ := bind_eq_ok h
  obtain ⟨ss, m2, -, h⟩ := bind_eq_ok h
  obtain ⟨es, m3, -, h⟩ := bind_eq_ok h
  obtain ⟨ds, m4, -, h⟩ := bind_eq_ok h
  obtain ⟨fs, m5, -, h⟩ := bind_eq_ok h
  obtain ⟨gs, m6, -, h⟩ := bind_eq_ok h
  let m7 := (m6.setD { m6.d with rfLoad := true }).setS { m6.s with fl := f.flv ||| 2 }
  obtain ⟨_, m8, hcommits, h⟩ := bind_eq_ok (show (commitSynth [(.cs, f.sel), (.ss, ss.setWidth 16),
    (.es, es.setWidth 16), (.ds, ds.setWidth 16), (.fs, fs.setWidth 16),
    (.gs, gs.setWidth 16)] >>= _) m7 = _ from h)
  have hvm7 : m7.s.vm = true := by
    show (f.flv ||| 2).getLsbD 17 = true
    rw [getLsbD_or, hvm, Bool.true_or]
  obtain ⟨-, hsynth⟩ := commitSynth_ok (by
    show [Seg.cs, .ss, .es, .ds, .fs, .gs].Nodup
    decide) hcommits
  cases h
  have hlevel : ∀ g, dplOf (m8.s.seg g).ar = 3 := by
    intro g
    obtain ⟨sel, hmem⟩ : ∃ sel, (g, sel) ∈ [(.cs, f.sel), (.ss, ss.setWidth 16),
        (.es, es.setWidth 16), (.ds, ds.setWidth 16), (.fs, fs.setWidth 16),
        (.gs, gs.setWidth 16)] := by
      cases g <;> simp
    rw [hsynth g sel hmem]
    exact dplOf_segSynth sel hvm7
  exact ⟨hcpl, hlevel .cs, hlevel⟩

end Transfers

/-! ### IF, IOPL and CPL -/

def iretImage (m : Machine D) : Option IretFrame := (iretFrame m.d.w32 m).value?

theorem iretImage_eq {m m1 : Machine D} {f : IretFrame} (h : iretFrame m.d.w32 m = .ok f m1) :
    iretImage m = some f := by
  rw [iretImage, h]
  rfl

inductive FarReturn where
  | retf
  | retfImm (n : BitVec 16)
  | iret

def FarReturn.run : FarReturn → X86M D Unit
  | retf => X86.retf
  | retfImm n => X86.retfImm n
  | iret => X86.iret

/-- The instructions that write IF, IOPL or CS. -/
inductive PrivOp where
  | popf
  | cli
  | sti
  | far (isCall : Bool) (sel : BitVec 16) (off : BitVec 32)
  | farMem (isCall : Bool)
  | ret (r : FarReturn)

namespace PrivOp

def run : PrivOp → X86M D Unit
  | popf => X86.popf
  | cli => X86.cli
  | sti => X86.sti
  | far isCall sel off => fun m => pmFar sel off isCall (m.recPc + m.d.nxt) m
  | farMem isCall => X86.farMem isCall
  | ret r => r.run

/-- A far transfer to `sel` finds no system descriptor: no call gate, task gate or TSS. -/
def NoSystemDesc (sel : BitVec 16) (m : Machine D) : Prop :=
  loadsUnchecked m.s = false → ∀ desc t, kbusLoad (descAddr m.s sel) 8 m = .ok desc t →
    desc.getLsbD 44 = true

/-- The instruction goes through no gate and switches no task. -/
def NoGate : PrivOp → Machine D → Prop
  | far _ sel _, m => NoSystemDesc sel m
  | farMem _, m => ∀ p t, farPointer m = .ok p t → NoSystemDesc p.1 t
  | ret .iret, m => m.s.vm = false → m.s.nt = false
  | _, _ => True

/-- Above IOPL the interrupt flag is out of reach and above level 0 so is IOPL; the level itself
does not go down. -/
structure Confined (m m' : Machine D) : Prop where
  ifl : m.s.iopl.setWidth 8 < m.s.cpl → m'.s.ifl = m.s.ifl
  iopl : m.s.cpl ≠ 0 → m'.s.iopl = m.s.iopl
  cpl : m.s.cpl ≤ m'.s.cpl

/-- The states in which the source confines the instruction: where a virtual interrupt flag is at
work IF has to be set already, and an IRET above IOPL, or outward above level 0, has to find in its
image the IF, or the IOPL, there is. -/
def Fits : PrivOp → Machine D → Prop
  | popf, m => m.s.virtualIf = true → m.s.iopl.setWidth 8 < m.s.cpl → m.s.ifl = true
  | ret .iret, m =>
    if m.s.vm then
      has m.s.cr4 kCr4Vme = true → m.s.iopl.setWidth 8 < m.s.cpl → m.s.ifl = true
    else ∀ f, iretImage m = some f → f.flv.getLsbD 17 = false →
      (m.s.iopl.setWidth 8 < m.s.cpl → f.flv.getLsbD 9 = m.s.ifl) ∧
      (m.s.cpl ≠ 0 → m.s.cpl < rplOf f.sel → (f.flv >>> 12).setWidth 2 = m.s.iopl)
  | _, _ => True

section Runs

variable {m m' : Machine D} {s : X86State}

private theorem not_above (h : s.iopl = 3) : ¬s.iopl.setWidth 8 < s.cpl := by
  rw [h]
  exact BitVec.not_lt.mpr (dplOf_le _)

private theorem Confined.of_bits (hif : m.s.iopl.setWidth 8 < m.s.cpl →
      m'.s.fl.getLsbD 9 = m.s.fl.getLsbD 9)
    (hiopl : m.s.cpl ≠ 0 → m'.s.fl.getLsbD 12 = m.s.fl.getLsbD 12 ∧
      m'.s.fl.getLsbD 13 = m.s.fl.getLsbD 13) (hcpl : m.s.cpl ≤ m'.s.cpl) : Confined m m' :=
  ⟨hif, fun h => (iopl_bits_eq_iff _ _).mpr (hiopl h), hcpl⟩

private theorem Confined.of_kept (hfl : m'.s.fl = m.s.fl) (hcpl : m.s.cpl ≤ m'.s.cpl) :
    Confined m m' :=
  .of_bits (fun _ => by rw [hfl]) (fun _ => by rw [hfl]; exact ⟨rfl, rfl⟩) hcpl

private theorem Confined.of_memFrame {m1 : Machine D} (h : Confined m1 m') (hkept : MemFrame m m1) :
    Confined m m' := by
  have hcpl : m1.s.cpl = m.s.cpl := by rw [cpl_eq, cpl_eq, hkept.seg]
  have hiopl : m1.s.iopl = m.s.iopl := by rw [X86State.iopl, X86State.iopl, hkept.fl]
  have hifl : m1.s.ifl = m.s.ifl := by rw [X86State.ifl, X86State.ifl, hkept.fl]
  obtain ⟨h1, h2, h3⟩ := h
  rw [hcpl] at h1 h2 h3
  rw [hiopl] at h1
  rw [hiopl] at h2
  rw [hifl] at h1
  exact ⟨h1, h2, h3⟩

private theorem farPointer_kept : Quiet MemFrame (farPointer : X86M D (BitVec 16 × BitVec 32)) :=
  MemFrame.bind MemFrame.getD fun _ => MemFrame.bind MemFrame.memOperand fun _ =>
    MemFrame.bind MemFrame.rdStack fun _ => MemFrame.bind MemFrame.rd16 fun _ => MemFrame.pure _

private theorem Confined.of_setFlag {i : Nat} {b : Bool} (hi : i < 32)
    (hi9 : i = 9 → ¬m.s.iopl.setWidth 8 < m.s.cpl) (hi12 : i ≠ 12) (hi13 : i ≠ 13)
    (hfl : m'.s.fl = (m.s.setFlag i b).fl) (hseg : m'.s.seg = m.s.seg) : Confined m m' := by
  refine .of_bits ?_ ?_ ?_
  · intro habove
    rw [hfl, getLsbD_setFlag _ _ hi, if_neg fun h => hi9 h.symm habove]
  · intro _
    rw [hfl, getLsbD_setFlag _ _ hi, getLsbD_setFlag _ _ hi, if_neg (Ne.symm hi12),
      if_neg (Ne.symm hi13)]
    exact ⟨rfl, rfl⟩
  · rw [cpl_eq, cpl_eq, hseg]
    exact BitVec.le_refl _

private theorem not_above_of_allowed (hpe : s.pe = true) (h : intFlagRefused s = false) :
    ¬s.iopl.setWidth 8 < s.cpl := by
  rw [intFlagRefused, hpe] at h
  cases hvm : s.vm with
  | true =>
    rw [hvm] at h
    exact not_above (not_not.mp (of_decide_eq_false h))
  | false =>
    rw [hvm] at h
    exact of_decide_eq_false h

section

variable (hpe : m.s.pe = true)
include hpe

/-- CLI and STI write VIF where IF is virtual, and IF where the level allows it. -/
private theorem setIf_confined (b : Bool)
    (h : (if m.s.pe && m.s.virtualIf then modS fun s => s.setFlag 19 b else do
      faultWhen (intFlagRefused m.s) (gpFault 0)
      modS fun s => s.setFlag 9 b : X86M D Unit) m = .ok () m') : Confined m m' := by
  split at h
  · cases h
    exact .of_setFlag (by decide) (fun h => by cases h) (by decide) (by decide) rfl rfl
  obtain ⟨_, m1, hcheck, h⟩ := bind_eq_ok h
  obtain ⟨hallowed, hm1⟩ := faultWhen_ok raiseVec_ne_ok hcheck
  rw [hm1] at h
  cases h
  exact .of_setFlag (by decide) (fun _ => not_above_of_allowed hpe hallowed) (by decide)
    (by decide) rfl rfl

theorem cli_confined (h : X86.cli m = .ok () m') : Confined m m' := setIf_confined hpe false h

theorem sti_confined (h : X86.sti m = .ok () m') : Confined m m' := by
  obtain ⟨_, m1, hstore, h⟩ := bind_eq_ok h
  cases h
  have hconf := setIf_confined hpe true hstore
  exact ⟨hconf.ifl, hconf.iopl, hconf.cpl⟩

theorem farDirect_confined {isCall : Bool} {sel retCs : BitVec 16} {off retEip : BitVec 32}
    (h : farDirect sel off isCall retEip retCs m = .ok () m') : Confined m m' := by
  obtain ⟨_, m1, hcs, h⟩ := bind_eq_ok h
  have hload : SegsBut (· = .cs) m m1 := SegsBut.loadsCs.of_ok hcs
  have hpush : Quiet (SegsBut fun _ => False)
      (doWhen isCall (pushReturn retCs retEip) : X86M D Unit) :=
    Framing.ite (Framing.bind OpFraming.pushW fun _ => OpFraming.pushW) (Framing.pure ())
  have hrest := (Framing.bind hpush fun _ => OpFraming.setEip).of_ok h
  refine .of_kept (hrest.fl.trans hload.fl) ?_
  rw [hrest.cpl id]
  exact loadCs_cpl hpe hcs

theorem pmFar_confined {isCall : Bool} {sel : BitVec 16} {off retEip : BitVec 32}
    (hgate : NoSystemDesc sel m) (h : pmFar sel off isCall retEip m = .ok () m') :
    Confined m m' := by
  have h : (if loadsUnchecked m.s then _ else _ : X86M D Unit) m = .ok () m' := h
  split at h
  · exact farDirect_confined hpe h
  next hchecked =>
  obtain ⟨_, m1, hnull, h⟩ := bind_eq_ok h
  obtain ⟨-, rfl⟩ := faultWhen_ok raiseVec_ne_ok hnull
  obtain ⟨_, m1, hpast, h⟩ := bind_eq_ok h
  obtain ⟨-, rfl⟩ := faultWhen_ok raiseVec_ne_ok hpast
  obtain ⟨desc, m2, hdesc, h⟩ := bind_eq_ok h
  rw [hgate (eq_false_of_ne_true hchecked) desc m2 hdesc, if_pos rfl] at h
  have hkept : MemFrame m1 m2 := MemFrame.kbusLoad.of_ok hdesc
  exact (farDirect_confined (by rwa [X86State.pe, hkept.cr0]) h).of_memFrame hkept

theorem farMem_confined {isCall : Bool} (hgate : NoGate (farMem isCall) m)
    (h : X86.farMem isCall m = .ok () m') : Confined m m' := by
  have h : (if !m.d.isMem then _ else _ : X86M D Unit) m = .ok () m' := h
  split at h
  · cases h
  obtain ⟨p, m1, hpointer, h⟩ := bind_eq_ok h
  have hkept : MemFrame m m1 := farPointer_kept.of_ok hpointer
  exact (pmFar_confined (by rwa [X86State.pe, hkept.cr0]) (hgate p m1 hpointer) h).of_memFrame hkept

private theorem retfPops_confined {eip sel : BitVec 32} {m1 m2 m3 m4 : Machine D}
    (hpop : popW m = .ok eip m1) (heip : setEip eip m1 = .ok () m2) (hpop' : popW m2 = .ok sel m3)
    (hcs : loadCs (sel.setWidth 16) m3 = .ok () m4) : Confined m m4 := by
  have hpops : SegsBut (fun _ => False) m m3 :=
    .trans (.trans (OpFraming.popW.of_ok hpop) (OpFraming.setEip.of_ok heip))
      (OpFraming.popW.of_ok hpop')
  have hload : SegsBut (· = .cs) m3 m4 := SegsBut.loadsCs.of_ok hcs
  have hpe3 : m3.s.pe = true := by
    rw [← hpe]
    exact congrArg (·.getLsbD 0) hpops.cr0
  refine .of_kept (hload.fl.trans hpops.fl) ?_
  rw [← hpops.cpl id]
  exact loadCs_cpl hpe3 hcs

theorem retf_confined (h : X86.retf m = .ok () m') : Confined m m' := by
  have h : (if m.s.pe && !m.s.vm then pmRet 0 else _) m = .ok () m' := h
  split at h
  · obtain ⟨a, m1, -, hret, hfl⟩ := pmRet_returnsTo h
    exact .of_kept hfl (hret.cpl ▸ hret.outward)
  · obtain ⟨eip, m1, hpop, h⟩ := bind_eq_ok h
    obtain ⟨_, m2, heip, h⟩ := bind_eq_ok h
    obtain ⟨sel, m3, hpop', h⟩ := bind_eq_ok h
    exact retfPops_confined hpe hpop heip hpop' h

theorem retfImm_confined {n : BitVec 16} (h : X86.retfImm n m = .ok () m') : Confined m m' := by
  have h : (if m.s.pe && !m.s.vm then pmRet (n.setWidth 32) else _) m = .ok () m' := h
  split at h
  · obtain ⟨a, m1, -, hret, hfl⟩ := pmRet_returnsTo h
    exact .of_kept hfl (hret.cpl ▸ hret.outward)
  obtain ⟨eip, m1, hpop, h⟩ := bind_eq_ok h
  obtain ⟨_, m2, heip, h⟩ := bind_eq_ok h
  obtain ⟨sel, m3, hpop', h⟩ := bind_eq_ok h
  obtain ⟨_, m4, hcs, h⟩ := bind_eq_ok h
  have hconf := retfPops_confined hpe hpop heip hpop' hcs
  have hrel : SegsBut (fun _ => False) m4 m' := OpFraming.releaseParams.of_ok h
  refine ⟨fun ha => ?_, fun ha => ?_, ?_⟩
  · rw [X86State.ifl, hrel.fl]
    exact hconf.ifl ha
  · rw [X86State.iopl, hrel.fl]
    exact hconf.iopl ha
  · rw [hrel.cpl id]
    exact hconf.cpl

end

private theorem popfMask_bits (w32 : Bool) (hpe : s.pe = true) (hcpl : s.cpl ≠ 0) :
    (sizedMask w32 (popfMask s)).getLsbD 12 = false ∧
      (sizedMask w32 (popfMask s)).getLsbD 13 = false ∧
      (s.vm = false → s.iopl.setWidth 8 < s.cpl →
        (sizedMask w32 (popfMask s)).getLsbD 9 = false) := by
  have hguard : (s.pe && decide (s.cpl ≠ 0)) = true := by
    rw [hpe, decide_eq_true hcpl, Bool.true_and]
  unfold popfMask X86State.acMask
  cases s.vm with
  | true =>
    rw [if_pos rfl]
    refine ⟨?_, ?_, fun h => by cases h⟩ <;> cases w32 <;> decide
  | false =>
    rw [if_neg Bool.false_ne_true, hguard, if_pos rfl]
    refine ⟨?_, ?_, fun _ habove => ?_⟩
    · cases has s.cr0 kCr0Am <;> split <;> cases w32 <;> decide
    · cases has s.cr0 kCr0Am <;> split <;> cases w32 <;> decide
    · rw [if_pos habove]
      cases has s.cr0 kCr0Am <;> cases w32 <;> decide

theorem popf_confined_iff (hpe : m.s.pe = true) (h : X86.popf m = .ok () m') :
    Confined m m' ↔ Fits popf m := by
  obtain ⟨v, m1, -, -, hseg, hfl, hvirtual⟩ := popf_returns h
  have hcpl : m.s.cpl ≤ m'.s.cpl := by
    rw [cpl_eq, cpl_eq, hseg]
    exact BitVec.le_refl _
  show _ ↔ (m.s.virtualIf = true → _)
  cases hv : m.s.virtualIf with
  | true =>
    rw [hv, if_pos rfl] at hfl
    have hif : m'.s.fl.getLsbD 9 = true := by rw [hfl, getLsbD_loadVif, if_pos rfl]
    constructor
    · intro hconf _ habove
      exact (hconf.ifl habove).symm.trans hif
    · intro hfits
      refine .of_bits (fun habove => hif.trans (hfits rfl habove).symm) (fun _ => ?_) hcpl
      rw [hfl, getLsbD_loadVif, getLsbD_loadVif]
      exact ⟨rfl, rfl⟩
  | false =>
    rw [hv, if_neg Bool.false_ne_true] at hfl
    refine iff_of_true (.of_bits (fun habove => ?_) (fun hne => ?_) hcpl) fun h => by cases h
    · have hne : m.s.cpl ≠ 0 := by
        intro h0
        rw [h0] at habove
        exact absurd habove (BitVec.not_lt.mpr (zero_le_level _))
      have hvm : m.s.vm = false := by
        by_contra hvm
        rw [Bool.not_eq_false] at hvm
        have hiopl : m.s.iopl = 3 := by
          by_contra hne3
          rw [hvirtual ⟨hvm, hne3⟩] at hv
          cases hv
        exact not_above hiopl habove
      rw [hfl, getLsbD_loadFlags _ _ _ _ (by decide) (by decide),
        (popfMask_bits _ hpe hne).2.2 hvm habove]
      rfl
    · obtain ⟨h12, h13, -⟩ := popfMask_bits m.d.w32 hpe hne
      rw [hfl, getLsbD_loadFlags _ _ _ _ (by decide) (by decide),
        getLsbD_loadFlags _ _ _ _ (by decide) (by decide), h12, h13]
      exact ⟨rfl, rfl⟩

theorem iretVm86_confined_iff (hvm : m.s.vm = true) (h : iretVm86 m = .ok () m') : Confined m m' ↔
      (has m.s.cr4 kCr4Vme = true → m.s.iopl.setWidth 8 < m.s.cpl → m.s.ifl = true) := by
  obtain ⟨f, m1, -, hallowed, hcpl', hfl⟩ := iretVm86_flags hvm h
  have hcpl : m.s.cpl ≤ m'.s.cpl := by
    rw [hcpl']
    exact dplOf_le _
  have hiopl : m'.s.fl.getLsbD 12 = m.s.fl.getLsbD 12 ∧ m'.s.fl.getLsbD 13 = m.s.fl.getLsbD 13 := by
    have hmask : ∀ w : Bool, (if w then (0x14fd7 : BitVec 32) else 0x4fd7).getLsbD 12 = false ∧
        (if w then (0x14fd7 : BitVec 32) else 0x4fd7).getLsbD 13 = false := by decide
    have hload : ∀ i, i = 12 ∨ i = 13 → m'.s.fl.getLsbD i =
        (m.s.loadFlags (if m.d.w32 then 0x14fd7 else 0x4fd7) 0 f.flv).fl.getLsbD i := by
      rintro i hi
      rw [hfl]
      cases has m.s.cr4 kCr4Vme with
      | false => rfl
      | true =>
        rw [getLsbD_loadVif, if_neg (by omega), if_neg (by omega), if_neg (by omega)]
    rw [hload 12 (.inl rfl), hload 13 (.inr rfl), getLsbD_loadFlags _ _ _ _ (by decide) (by decide),
      getLsbD_loadFlags _ _ _ _ (by decide) (by decide), (hmask _).1, (hmask _).2]
    exact ⟨rfl, rfl⟩
  cases hvme : has m.s.cr4 kCr4Vme with
  | true =>
    rw [hvme] at hfl
    have hif : m'.s.fl.getLsbD 9 = true := by rw [hfl, getLsbD_loadVif, if_pos rfl]
    constructor
    · intro hconf _ habove
      exact (hconf.ifl habove).symm.trans hif
    · intro hfits
      exact .of_bits (fun habove => hif.trans (hfits rfl habove).symm) (fun _ => hiopl) hcpl
  | false =>
    refine iff_of_true (.of_bits (fun habove => ?_) (fun _ => hiopl) hcpl) fun h => by cases h
    have h3 : m.s.iopl = 3 := hallowed.resolve_left (by rw [hvme]; exact Bool.false_ne_true)
    exact absurd habove (not_above h3)

theorem iretProtected_confined_iff {f : IretFrame}
    (h : iretProtected (opSize m.d.w32) f m = .ok () m') :
    Confined m m' ↔ (m.s.iopl.setWidth 8 < m.s.cpl → f.flv.getLsbD 9 = m.s.ifl) ∧
      (m.s.cpl ≠ 0 → m.s.cpl < rplOf f.sel → (f.flv >>> 12).setWidth 2 = m.s.iopl) := by
  obtain ⟨hret, hfl⟩ := iretProtected_returnsTo h
  -- IF is in every mask, IOPL in the mask of an outward return
  have hmask9 : ∀ o : Bool, (iretMask m.s o).getLsbD 9 = true := by
    intro o
    unfold iretMask
    cases has m.s.cr0 kCr0Am <;> split <;> decide
  have hmask1 : ∀ o : Bool, m.s.cpl ≠ 0 → (iretMask m.s o).getLsbD 12 = o ∧
      (iretMask m.s o).getLsbD 13 = o := by
    intro o hne
    rw [iretMask, decide_eq_false hne]
    cases o <;> cases has m.s.cr0 kCr0Am <;> decide
  have hif : m'.s.ifl = f.flv.getLsbD 9 := by
    rw [X86State.ifl, hfl, getLsbD_loadFlags _ _ _ _ (by decide) (by decide), hmask9, if_pos rfl]
  have hiopl : m.s.cpl ≠ 0 → m'.s.iopl =
      if m.s.cpl < rplOf f.sel then (f.flv >>> 12).setWidth 2 else m.s.iopl := by
    intro hne
    obtain ⟨h12, h13⟩ := hmask1 (decide (m.s.cpl < rplOf f.sel)) hne
    by_cases hout : m.s.cpl < rplOf f.sel
    · rw [if_pos hout, X86State.iopl, iopl_bits_eq_iff, hfl,
        getLsbD_loadFlags _ _ _ _ (by decide) (by decide),
        getLsbD_loadFlags _ _ _ _ (by decide) (by decide), h12, h13, if_pos (decide_eq_true hout),
        if_pos (decide_eq_true hout)]
      exact ⟨rfl, rfl⟩
    · have hno : ¬decide (m.s.cpl < rplOf f.sel) = true := by rwa [decide_eq_true_eq]
      rw [if_neg hout, X86State.iopl, X86State.iopl, iopl_bits_eq_iff, hfl,
        getLsbD_loadFlags _ _ _ _ (by decide) (by decide),
        getLsbD_loadFlags _ _ _ _ (by decide) (by decide), h12, h13, if_neg hno, if_neg hno]
      exact ⟨rfl, rfl⟩
  constructor
  · intro hconf
    refine ⟨fun habove => hif.symm.trans (hconf.ifl habove), fun hne hout => ?_⟩
    have := hconf.iopl hne
    rwa [hiopl hne, if_pos hout] at this
  · rintro ⟨hfif, hfiopl⟩
    refine ⟨fun habove => hif.trans (hfif habove), fun hne => ?_, hret.cpl ▸ hret.outward⟩
    rw [hiopl hne]
    split
    · next hout => exact hfiopl hne hout
    · rfl

theorem iret_confined_iff (hpe : m.s.pe = true) (hnt : m.s.vm = false → m.s.nt = false)
    (h : X86.iret m = .ok () m') : Confined m m' ↔ Fits (ret .iret) m := by
  obtain ⟨_, m1, hany, h⟩ := bind_eq_ok h
  cases h
  suffices hmain : Confined m m1 ↔ Fits (ret .iret) m from
    ⟨fun hc => hmain.mp ⟨hc.ifl, hc.iopl, hc.cpl⟩, fun hf =>
      ⟨(hmain.mpr hf).ifl, (hmain.mpr hf).iopl, (hmain.mpr hf).cpl⟩⟩
  have hany : (if m.s.pe then pmIret else iretReal) m = .ok () m1 := hany
  rw [hpe] at hany
  have hany : (if m.s.vm then iretVm86 else _) m = .ok () m1 := hany
  show _ ↔ if m.s.vm then _ else _
  cases hvm : m.s.vm with
  | true =>
    rw [hvm] at hany
    exact iretVm86_confined_iff hvm hany
  | false =>
    rw [hvm, hnt hvm] at hany
    obtain ⟨f, m2, hframe, hany⟩ := bind_eq_ok hany
    have hkept := MemFrame.iretFrame.of_ok hframe
    have himage := iretImage_eq hframe
    cases himg : f.flv.getLsbD 17 with
    | true =>
      rw [himg] at hany
      obtain ⟨hcpl, hcpl', -⟩ := iretToVm86_level himg hany
      have hcpl : m.s.cpl = 0 := by
        rw [← hcpl, cpl_eq, cpl_eq, hkept.seg]
      refine iff_of_true ⟨fun habove => ?_, fun hne => absurd hcpl hne, ?_⟩ ?_
      · rw [hcpl] at habove
        exact absurd habove (BitVec.not_lt.mpr (zero_le_level _))
      · rw [hcpl]
        exact zero_le_level _
      · intro f' hf' hclear
        rw [himage] at hf'
        cases hf'
        rw [himg] at hclear
        cases hclear
    | false =>
      rw [himg] at hany
      have hw : m2.d.w32 = m.d.w32 := by rw [hkept.d]
      rw [← hw] at hany
      have hiff := iretProtected_confined_iff hany
      have hcpl : m2.s.cpl = m.s.cpl := by rw [cpl_eq, cpl_eq, hkept.seg]
      have hiopl : m2.s.iopl = m.s.iopl := by rw [X86State.iopl, X86State.iopl, hkept.fl]
      have hifl : m2.s.ifl = m.s.ifl := by rw [X86State.ifl, X86State.ifl, hkept.fl]
      have hconf : Confined m m1 ↔ Confined m2 m1 := by
        constructor
        · rintro ⟨h1, h2, h3⟩
          rw [← hcpl, ← hiopl, ← hifl] at *
          exact ⟨h1, h2, h3⟩
        · rintro ⟨h1, h2, h3⟩
          rw [hcpl, hiopl, hifl] at *
          exact ⟨h1, h2, h3⟩
      rw [hcpl, hiopl, hifl] at hiff
      rw [hconf, hiff]
      constructor
      · intro hfits f' hf' _
        rw [himage] at hf'
        cases hf'
        exact hfits
      · intro hfits
        exact hfits f himage himg

end Runs

/-- The interrupt flag, IOPL and CPL under every completed instruction that writes one of them, in
protected and virtual-8086 mode, without a gate and without a task switch. -/
theorem privilege_confined_iff (op : PrivOp) {m m' : Machine D} (hpe : m.s.pe = true)
    (hgate : op.NoGate m) (h : op.run m = .ok () m') : Confined m m' ↔ op.Fits m := by
  cases op with
  | popf => exact popf_confined_iff hpe h
  | cli => exact iff_of_true (cli_confined hpe h) trivial
  | sti => exact iff_of_true (sti_confined hpe h) trivial
  | far isCall sel off => exact iff_of_true (pmFar_confined hpe hgate h) trivial
  | farMem isCall => exact iff_of_true (farMem_confined hpe hgate h) trivial
  | ret r =>
    cases r with
    | retf => exact iff_of_true (retf_confined hpe h) trivial
    | retfImm n => exact iff_of_true (retfImm_confined hpe h) trivial
    | iret => exact iret_confined_iff hpe hgate h

end PrivOp

/-- Memory with a flat code and a flat data segment of level 3 in the table at 0, and the frame of
a return to them at 0x1000. -/
def returnWords (flags : BitVec 64) (addr : BitVec 64) : BitVec 64 :=
  if addr = 0x18 then 0xcffb000000ffff
  else if addr = 0x20 then 0xcff3000000ffff
  else if addr = 0x1004 then 0x1b
  else if addr = 0x1008 then flags
  else if addr = 0x100c then 0x5000
  else if addr = 0x1010 then 0x23
  else 0

def returnMachine (cs : SegReg) (flags : BitVec 64) : Machine Unit :=
  let m := frameMachine ⟨0x1000, 0⟩
  { m with
    s := { m.s.setSeg .cs cs with gdtrLimit := 0xffff }
    w := answeringWorld (returnWords flags) }

def userCode : SegReg := ⟨0x1b, 0, 0xffffffff, 0xfb, true⟩

/-- An IRET of level 3 with IOPL 0, whose image has the IF there is. -/
theorem privilege_iret_same_if :
    ∃ m', (PrivOp.ret .iret).run (returnMachine userCode 0x202) = .ok () m' ∧
      PrivOp.Confined (returnMachine userCode 0x202) m' := by
  have hok : ((PrivOp.ret .iret).run (returnMachine userCode 0x202)).isOk = true := by
    decide +kernel
  have himage : iretImage (returnMachine userCode 0x202) = some ⟨0, 0x1b, 0x202⟩ := by
    decide +kernel
  obtain ⟨_, m', hm'⟩ := Outcome.exists_of_isOk hok
  refine ⟨m', hm', (PrivOp.privilege_confined_iff (.ret .iret) (by decide) (fun _ => by decide)
    hm').mpr ?_⟩
  intro f hf _
  rw [himage] at hf
  cases hf
  exact ⟨fun _ => by decide, fun _ hout => absurd hout (by decide)⟩

/-- An IRET of level 3 with IOPL 0 clears IF: the image need only say so. -/
theorem privilege_iret_clears_if :
    (returnMachine userCode 0x2).s.iopl.setWidth 8 < (returnMachine userCode 0x2).s.cpl ∧
    (returnMachine userCode 0x2).s.ifl = true ∧
    (match (PrivOp.ret .iret).run (returnMachine userCode 0x2) with
      | .ok _ m' => !m'.s.ifl
      | _ => false) = true := by
  refine ⟨by decide, by decide, by decide +kernel⟩

end Cemu.X86
