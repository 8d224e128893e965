import Cemu.X86.AluFlags
import Cemu.X86.Counted
import Cemu.X86.OneDevice
import Cemu.X86.PageStores

/-!
# x86: runs to completion

A machine on which no string instruction faults: flat segments at CPL 0 without paging, one
device behind all of memory and one behind all ports, operands that keep their alignment, and
comparisons that never stop the run. From any counter such a run goes on until the counter of the
operand size is used up.
-/

namespace Cemu.X86

open Dec

open RaiseM X86State
open BitVec hiding and_self

def flatSegs (dflt : Bool) : Seg → SegReg := fun i =>
  if i = .cs then ⟨8, 0, 0xffffffff, 0x9b, dflt⟩ else ⟨0x10, 0, 0xffffffff, 0x93, true⟩

structure Smooth (f : BitVec 64 → BitVec 64) (dflt : Bool) (m : Machine Unit) : Prop where
  fast : m.gMemSlow = false
  segs : m.s.seg = flatSegs dflt
  pg : m.s.pg = false
  vm : m.s.vm = false
  a20 : m.s.a20 = true
  io : m.io.regions = [onePort]
  ports : m.ports = openPorts 0
  answers : Answers f m.w

namespace Smooth

variable {f : BitVec 64 → BitVec 64} {dflt : Bool} {m m' : Machine Unit} {lin : BitVec 64}
  {size : Nat}

section

variable (h : Smooth f dflt m)
include h

theorem of_frame (hframe : MemFrame m m') : Smooth f dflt m' where
  fast := hframe.gMemSlow.trans h.fast
  segs := hframe.seg.trans h.segs
  pg := by rw [X86State.pg, hframe.cr0]; exact h.pg
  vm := by rw [X86State.vm, hframe.fl]; exact h.vm
  a20 := by rw [hframe.s]; exact h.a20
  io := by rw [hframe.io]; exact h.io
  ports := hframe.ports.trans h.ports
  answers := h.answers.of_sameBoard hframe.board

theorem setD (d : Dec) : Smooth f dflt (m.setD d) :=
  ⟨h.fast, h.segs, h.pg, h.vm, h.a20, h.io, h.ports, h.answers⟩

theorem setS (r : Reg → BitVec 32) {fl : BitVec 32} (hvm : fl.getLsbD 17 = false) :
    Smooth f dflt (m.setS { m.s with r := r, fl := fl }) :=
  ⟨h.fast, h.segs, h.pg, hvm, h.a20, h.io, h.ports, h.answers⟩

theorem setRegs {s : X86State} (hs : s = { m.s with r := s.r }) : Smooth f dflt (m.setS s) := by
  rw [hs]
  exact h.setS s.r h.vm

theorem cpl : m.s.cpl = 0 := by
  rw [X86State.cpl, h.segs]
  show (0x9b : BitVec 8) >>> 5 &&& 3 = 0
  decide

theorem user : m.s.user = false := by
  rw [X86State.user, h.cpl]
  rfl

end

/-! ### Accesses -/

section

variable (h : Smooth f dflt m)
include h

theorem linOf (seg : Seg) (off : BitVec 32) : (linOf m.s seg off).toNat = off.toNat := by
  have hbase : (flatSegs dflt seg).base = 0#64 := by
    unfold flatSegs
    split <;> rfl
  rw [X86.linOf, h.segs, hbase, BitVec.zero_add, toNat_setWidth_of_le (by decide)]

theorem segUse {seg : Seg} {write : Bool} (hseg : write = true → seg ≠ .cs) {off : BitVec 32}
    (hoff : off.toNat + size ≤ 0x100000000) : segUse seg off size write m = .ok () m := by
  have hlimit {g : SegReg} (hg : g.limit = 0xffffffff#32) (hup : ¬g.ar &&& 0x1c = 0x14) :
      limitRefused g off size = false := by
    rw [limitRefused, if_neg hup, hg, Bool.or_eq_false_iff, decide_eq_false_iff_not,
      decide_eq_false_iff_not]
    show ¬(0xffffffff < off.toNat) ∧ ¬(0xffffffff < off.toNat + size - 1)
    omega
  apply segUse_of_admits
  rw [h.segs]
  by_cases hcs : seg = .cs
  · have hread : write = false := by
      cases write with
      | false => rfl
      | true => exact absurd hcs (hseg rfl)
    have hcode : flatSegs dflt seg = ⟨8, 0, 0xffffffff, 0x9b, dflt⟩ := if_pos hcs
    have hkind : (decide ((0x9b : BitVec 8) ≠ 0) && !typeRefused 0x9b false) = true := by decide
    rw [hcode, hread, segAdmits, hlimit rfl (by decide : ¬(0x9b : BitVec 8) &&& 0x1c = 0x14), hkind]
    rfl
  · have hdata : flatSegs dflt seg = ⟨0x10, 0, 0xffffffff, 0x93, true⟩ := if_neg hcs
    have hkind : (decide ((0x93 : BitVec 8) ≠ 0) && !typeRefused 0x93 write) = true := by
      cases write <;> decide
    rw [hdata, segAdmits, hlimit rfl (by decide : ¬(0x93 : BitVec 8) &&& 0x1c = 0x14), hkind]
    rfl

theorem acRefused : acRefused m.s lin size m.s.user false = false := by
  rw [X86.acRefused, h.user]
  simp

theorem busLoad (hpos : 0 < size) (hin : lin.toNat % 4096 + size ≤ 4096)
    (hlin : lin.toNat + size ≤ 0x100000000) :
    ∃ t, busLoad lin size m = .ok (f lin) t ∧ MemFrame m t := by
  obtain ⟨w, hload, -⟩ := physLoad_answers h.answers hpos
    (by omega : lin.toNat + size ≤ 0x200000000)
  have hgate : a20Gate m.s lin = lin := by
    rw [a20Gate, h.a20]
    rfl
  rw [hgate] at hload
  have hrun : X86.busLoad lin size m = .ok (f lin) (m.setWorld w) := by
    show linLoad lin size m.s.user false m = _
    rw [linLoad, bind_of_ok (acCheckSlow_of_aligned h.acRefused), crosses_eq_false.mpr hin]
    show (if m.gMemSlow then _ else if !m.s.pg then _ else _ : X86M Unit (BitVec 64)) m = _
    rw [h.fast, h.pg]
    exact hload
  exact ⟨_, hrun, MemFrame.busLoad.of_ok hrun⟩

theorem busStore (hin : lin.toNat % 4096 + size ≤ 4096) (v : BitVec 64) :
    ∃ t, busStore lin size v m = .ok () t ∧ MemFrame m t := by
  have hrun : X86.busStore lin size v m = physStore lin size v m := by
    show linStore lin size m.s.user v m = _
    rw [linStore_of_inPage (crosses_eq_false.mpr hin),
      bind_of_ok (acCheckSlow_of_aligned h.acRefused), storeOne_apply, h.fast, h.pg]
    rfl
  have hstore : X86.busStore lin size v m = .ok () _ := hrun
  exact ⟨_, hstore, MemFrame.busStore.of_ok hstore⟩

end

end Smooth

def elemOf (size : Nat) (v : BitVec 64) : BitVec 32 :=
  if size = 1 then (v.setWidth 8).setWidth 32
  else if size = 2 then (v.setWidth 16).setWidth 32
  else v.setWidth 32

/-- An element of a string: 1, 2 or 4 bytes at an address that is a multiple of them. -/
structure Element (size : Nat) (lin : BitVec 64) : Prop where
  width : size = 1 ∨ size = 2 ∨ size = 4
  aligned : lin.toNat % size = 0
  low : lin.toNat < 0x100000000

variable {size : Nat}

theorem Element.inPage {lin : BitVec 64} (h : Element size lin) :
    0 < size ∧ lin.toNat % 4096 + size ≤ 4096 ∧ lin.toNat + size ≤ 0x100000000 := by
  obtain ⟨rfl | rfl | rfl, haligned, hlow⟩ := h
  · omega
  · omega
  · omega

namespace Smooth

variable {f : BitVec 64 → BitVec 64} {dflt : Bool} {m m' : Machine Unit} {lin : BitVec 64}
  {size : Nat}

section

variable (h : Smooth f dflt m)
include h

theorem rdSized (he : Element size lin) :
    ∃ t, rdSized size lin m = .ok (elemOf size (f lin)) t ∧ MemFrame m t := by
  obtain ⟨hpos, hin, hlow⟩ := he.inPage
  obtain ⟨t, hload, hframe⟩ := h.busLoad hpos hin hlow
  refine ⟨t, ?_, hframe⟩
  rcases he.width with rfl | rfl | rfl
  · have hread : rd8 lin m = .ok ((f lin).setWidth 8) t := by
      rw [rd8, bind_of_ok hload]
      rfl
    show (rd8 lin >>= fun v => pure (v.setWidth 32)) m = _
    rw [bind_of_ok hread]
    rfl
  · have hread : rd16 lin m = .ok ((f lin).setWidth 16) t := by
      rw [rd16, bind_of_ok hload]
      rfl
    show (rd16 lin >>= fun v => pure (v.setWidth 32)) m = _
    rw [bind_of_ok hread]
    rfl
  · show (X86.busLoad lin 4 >>= fun v => pure (v.setWidth 32)) m = _
    rw [bind_of_ok hload]
    rfl

theorem wrSized (he : Element size lin) (v : BitVec 32) :
    ∃ t, wrSized size lin v m = .ok () t ∧ MemFrame m t := by
  have hin := he.inPage.2.1
  rcases he.width with rfl | rfl | rfl
  · exact h.busStore hin _
  · exact h.busStore hin _
  · exact h.busStore hin _

theorem ioAllowed (port : BitVec 16) : ioAllowed port size m = .ok true m := by
  show (if !m.s.pe then _ else if !m.s.vm && decide (m.s.cpl.toNat ≤ m.s.iopl.toNat) then _ else _ :
    X86M Unit Bool) m = _
  rw [h.vm, h.cpl]
  cases m.s.pe <;> rfl

theorem ioIn (port : BitVec 16) (hpos : 0 < size) (hsize : size ≤ 4) :
    ∃ v t, ioIn port size m = .ok v t ∧ Smooth f dflt t := by
  obtain ⟨v, t, hread, -, hs, hfast, hboard, hio, hports⟩ := portRead_onePort h.io port hpos hsize
  have hsmooth : Smooth f dflt t :=
    ⟨hfast.trans h.fast, by rw [hs]; exact h.segs, by rw [hs]; exact h.pg, by rw [hs]; exact h.vm,
      by rw [hs]; exact h.a20, hio.trans h.io, hports.trans h.ports,
      h.answers.of_sameBoard hboard⟩
  have hin : X86.ioIn port size m = (ioBpHit port >>= fun _ => pure v) t := by
    rw [X86.ioIn, bind_of_ok (h.ioAllowed port), if_pos rfl, bind_of_ok hread]
  exact ⟨v, _, hin, hsmooth.setD _⟩

theorem ioOut (port : BitVec 16) (hpos : 0 < size) (hsize : size ≤ 4) (v : BitVec 32) :
    ∃ t, ioOut port size v m = .ok () t ∧ Smooth f dflt t := by
  have hwrite : portWrite port size v m = .ok () (portFind m port size).2 := by
    have hside (dev : Nat) addr n u side :
        ((portFind m port size).2.ports onePort.ops).write dev addr n u side = side := by
      show (m.ports onePort.ops).write dev addr n u side = side
      rw [h.ports]
      rfl
    have hline : x86SetA20Line m.s m.s.a20 = m.s := if_pos rfl
    unfold portWrite
    rw [portFind_onePort h.io port hpos hsize]
    simp only [hside]
    exact congrArg (fun s => Outcome.ok () ({ (portFind m port size).2 with s := s } :
      Machine Unit)) hline
  have hsmooth : Smooth f dflt (portFind m port size).2 :=
    ⟨h.fast, h.segs, h.pg, h.vm, h.a20, (findRegion_regions ..).trans h.io, h.ports, h.answers⟩
  have hout : X86.ioOut port size v m = ioBpHit port (portFind m port size).2 := by
    rw [X86.ioOut, bind_of_ok (h.ioAllowed port), if_pos rfl, bind_of_ok hwrite]
  exact ⟨_, hout, hsmooth.setD _⟩

theorem watchData (lin : BitVec 64) (size : Nat) (write : Bool) :
    ∃ t, watchData lin size write m = .ok () t ∧ Smooth f dflt t ∧ t.s = m.s :=
  ⟨_, rfl, h.setD _, rfl⟩

theorem compareFlags (hsize : IsWidth size) (a b : BitVec 32) :
    ∃ t, compareFlags a b size m = .ok () t ∧ Smooth f dflt t ∧ t.s.r = m.s.r ∧
      t.s.zf = decide (a.setWidth (size * 8) = b.setWidth (size * 8)) := by
  have hvm : (flagsSub m.s a b ((a - b) &&& vmask size) size 0).fl.getLsbD 17 = false := by
    rw [flagsSub_other m.s hsize (by decide)]
    exact h.vm
  have hflags := AluOp.flags_exact .cmp hsize (a := a) (b := b) (c := false) rfl m.s
  rw [exactSub_false] at hflags
  exact ⟨_, rfl, h.setS m.s.r hvm, rfl, congrArg ArithFlags.zf hflags⟩

end

def leftOf (f : BitVec 64 → BitVec 64) (op : StrOp) (s : X86State) (size : Nat) (slin : BitVec 64) :
    BitVec 32 :=
  if op = .cmps then elemOf size (f slin) else s.acc size

theorem strBody (h : Smooth f dflt m) (op : StrOp) {slin dlin : BitVec 64}
    (hsrc : Element size slin) (hdst : Element size dlin) :
    ∃ t, strBody op size slin dlin m = .ok () t ∧ Smooth f dflt t ∧
      (op.compares = true → t.s.r = m.s.r ∧ t.s.zf = decide (
        (leftOf f op m.s size slin).setWidth (size * 8) =
          (elemOf size (f dlin)).setWidth (size * 8))) := by
  obtain ⟨hpos, -, -⟩ := hdst.inPage
  have hsize : size ≤ 4 := by rcases hdst.width with rfl | rfl | rfl <;> decide
  cases op with
  | movs =>
    obtain ⟨m1, hw1, h1, -⟩ := h.watchData slin size false
    obtain ⟨m2, hw2, h2, -⟩ := h1.watchData dlin size true
    obtain ⟨m3, hread, hframe⟩ := h2.rdSized hsrc
    obtain ⟨m4, hwrite, hframe'⟩ := (h2.of_frame hframe).wrSized hdst (elemOf size (f slin))
    refine ⟨m4, ?_, (h2.of_frame hframe).of_frame hframe', fun hc => absurd hc (by decide)⟩
    rw [X86.strBody, bind_of_ok hw1, bind_of_ok hw2, bind_of_ok hread, hwrite]
  | cmps =>
    obtain ⟨m1, hw1, h1, hs1⟩ := h.watchData slin size false
    obtain ⟨m2, hw2, h2, hs2⟩ := h1.watchData dlin size false
    obtain ⟨m3, hread, hframe⟩ := h2.rdSized hsrc
    obtain ⟨m4, hread', hframe'⟩ := (h2.of_frame hframe).rdSized hdst
    obtain ⟨t, hcmp, ht, hr, hzf⟩ := ((h2.of_frame hframe).of_frame hframe').compareFlags hdst.width
      (elemOf size (f slin)) (elemOf size (f dlin))
    refine ⟨t, ?_, ht, fun _ => ⟨?_, hzf⟩⟩
    · rw [X86.strBody, bind_of_ok hw1, bind_of_ok hw2, bind_of_ok hread, bind_of_ok hread', hcmp]
    · rw [hr, hframe'.r, hframe.r, hs2, hs1]
  | stos =>
    obtain ⟨m1, hw1, h1, -⟩ := h.watchData dlin size true
    obtain ⟨m2, hwrite, hframe⟩ := h1.wrSized hdst (m1.s.acc size)
    refine ⟨m2, ?_, h1.of_frame hframe, fun hc => absurd hc (by decide)⟩
    rw [X86.strBody, bind_of_ok hw1]
    exact hwrite
  | lods =>
    obtain ⟨m1, hw1, h1, -⟩ := h.watchData slin size false
    obtain ⟨m2, hread, hframe⟩ := h1.rdSized hsrc
    have h2 := h1.of_frame hframe
    refine ⟨m2.setS (m2.s.setAcc size (elemOf size (f slin))), ?_,
      h2.setRegs (X86State.setAcc_regs ..), fun hc => absurd hc (by decide)⟩
    rw [X86.strBody, bind_of_ok hw1, bind_of_ok hread]
    rfl
  | ins =>
    obtain ⟨m1, hw1, h1, -⟩ := h.watchData dlin size true
    obtain ⟨v, m2, hin, h2⟩ := h1.ioIn (m1.s.x edxI) hpos hsize
    obtain ⟨m3, hwrite, hframe⟩ := h2.wrSized hdst v
    refine ⟨m3, ?_, h2.of_frame hframe, fun hc => absurd hc (by decide)⟩
    have hs : getS m1 = .ok m1.s m1 := rfl
    rw [X86.strBody, bind_of_ok hw1, bind_of_ok hs, bind_of_ok hin, hwrite]
  | outs =>
    obtain ⟨m1, hw1, h1, -⟩ := h.watchData slin size false
    obtain ⟨m2, hread, hframe⟩ := h1.rdSized hsrc
    obtain ⟨m3, hout, h3⟩ := (h1.of_frame hframe).ioOut (m2.s.x edxI) hpos hsize
      (elemOf size (f slin))
    refine ⟨m3, ?_, h3, fun hc => absurd hc (by decide)⟩
    have hs : getS m2 = .ok m2.s m2 := rfl
    rw [X86.strBody, bind_of_ok hw1, bind_of_ok hread, bind_of_ok hs, hout]
  | scas =>
    obtain ⟨m1, hw1, h1, hs1⟩ := h.watchData dlin size false
    obtain ⟨m2, hread, hframe⟩ := h1.rdSized hdst
    obtain ⟨t, hcmp, ht, hr, hzf⟩ := (h1.of_frame hframe).compareFlags hdst.width (m1.s.acc size)
      (elemOf size (f dlin))
    refine ⟨t, ?_, ht, fun _ => ⟨?_, ?_⟩⟩
    · have hs : getS m1 = .ok m1.s m1 := rfl
      rw [X86.strBody, bind_of_ok hw1, bind_of_ok hs, bind_of_ok hread, hcmp]
    · rw [hr, hframe.r, hs1]
    · rw [hzf, hs1]
      rfl

end Smooth

/-! ### A run that nothing stops -/

/-- Memory in which REPE finds only equal elements; for REPNE, elements four bytes apart
differ. -/
def memOf (rep : Rep) (addr : BitVec 64) : BitVec 64 :=
  if rep = .repe then 0 else if addr.toNat % 8 < 4 then 0 else ~~~0

def accOf (rep : Rep) : BitVec 32 := if rep = .repe then 0 else 0x01010101

structure Going (op : StrOp) (rep : Rep) (size : Nat) (dflt : Bool) (m : Machine Unit) : Prop where
  smooth : Smooth (memOf rep) dflt m
  si : (m.s.r esiI).toNat % size = 0
  di : (m.s.r ediI).toNat % size = 0
  apart : op = .cmps → (m.s.r ediI).toNat % 8 = ((m.s.r esiI).toNat + 4) % 8
  acc : op = .scas → m.s.r eaxI = accOf rep

theorem span_mod (wide : Bool) (n : Nat) : n % span wide % 8 = n % 8 := by
  cases wide with
  | false =>
    show n % 0x10000 % 8 = n % 8
    omega
  | true =>
    show n % 0x100000000 % 8 = n % 8
    omega

theorem setSized_mod (s : X86State) (wide : Bool) (i : Reg) (v : BitVec 32) :
    ((s.setSized wide i v).r i).toNat % 8 = v.toNat % 8 := by
  rw [toNat_r_setSized]
  cases wide with
  | false =>
    show ((s.r i).toNat / 0x10000 * 0x10000 + v.toNat % 0x10000) % 8 = v.toNat % 8
    omega
  | true =>
    show ((s.r i).toNat / 0x100000000 * 0x100000000 + v.toNat % 0x100000000) % 8 = v.toNat % 8
    omega

theorem sized_add_mod (s : X86State) (wide : Bool) (i : Reg) (step : BitVec 32) :
    (s.sized wide i + step).toNat % 8 = ((s.r i).toNat + step.toNat) % 8 := by
  have hspan := span_mod wide (s.r i).toNat
  rw [toNat_add, toNat_sized]
  omega

theorem strStep_mod (s : X86State) (h : IsWidth size) : (strStep s size).toNat % size = 0 := by
  unfold strStep
  rcases h with rfl | rfl | rfl
  · split <;> decide
  · split <;> decide
  · split <;> decide

theorem aligned_step {size a b c : Nat} {moves : Bool} (h : IsWidth size) (hb : b % size = 0)
    (hc : c % size = 0) (ha : a % 8 = (b + if moves then c else 0) % 8) : a % size = 0 := by
  have hsum : (b + if moves then c else 0) % size = 0 := by
    split
    · rw [Nat.add_mod, hb, hc, Nat.zero_mod]
    · exact hb
  rcases h with rfl | rfl | rfl <;> omega

section Advance

variable (op : StrOp) (a32 : Bool) (step : BitVec 32) (s t : X86State)

theorem strAdvance_mod (hr : ∀ i, i ≠ eaxI → t.r i = s.r i) :
    ((strAdvance op a32 (s.sized a32 esiI) (s.sized a32 ediI) step t).r esiI).toNat % 8 =
        ((s.r esiI).toNat + if op.usesSi then step.toNat else 0) % 8 ∧
      ((strAdvance op a32 (s.sized a32 esiI) (s.sized a32 ediI) step t).r ediI).toNat % 8 =
        ((s.r ediI).toNat + if op.usesDi then step.toNat else 0) % 8 := by
  have hsi := hr esiI (by decide)
  have hdi := hr ediI (by decide)
  unfold strAdvance
  cases op.usesSi <;> cases op.usesDi <;>
    simp only [if_true, if_false, Bool.false_eq_true, setSized_mod, sized_add_mod, hsi, hdi,
      Nat.add_zero, r_setSized_ne _ _ _ (show esiI ≠ ediI by decide),
      r_setSized_ne _ _ _ (show ediI ≠ esiI by decide), and_self]

theorem strAdvance_eax (sio dio : BitVec 32) :
    (strAdvance op a32 sio dio step s).r eaxI = s.r eaxI := by
  unfold strAdvance
  cases op.usesSi <;> cases op.usesDi <;>
    simp only [if_true, if_false, Bool.false_eq_true,
      r_setSized_ne _ _ _ (show eaxI ≠ ediI by decide),
      r_setSized_ne _ _ _ (show eaxI ≠ esiI by decide)]

theorem strAdvance_regs (sio dio : BitVec 32) :
    strAdvance op a32 sio dio step s = { s with r := (strAdvance op a32 sio dio step s).r } := by
  unfold strAdvance
  cases a32 <;> cases op.usesSi <;> cases op.usesDi <;> rfl

end Advance

variable {f : BitVec 64 → BitVec 64} {m : Machine Unit}

theorem Smooth.strNext {dflt : Bool}
    (h : Smooth f dflt m) (op : StrOp) : Smooth f dflt (strNext op m) := by
  have hcount : Smooth f dflt
      (m.setS (m.s.setSized m.d.w32 ecxI (m.s.sized m.d.w32 ecxI - 1))) := by
    apply h.setRegs
    cases m.d.w32 <;> rfl
  unfold X86.strNext
  dsimp only
  split
  · exact hcount
  · split
    · exact hcount
    · exact hcount.setD _

theorem Smooth.strChecks {dflt : Bool}
    (h : Smooth f dflt m) (op : StrOp) (sseg : Seg) {sio dio : BitVec 32}
    (hsio : sio.toNat + size ≤ 0x100000000) (hdio : dio.toNat + size ≤ 0x100000000) :
    strChecks op sseg sio dio size m = .ok () m := by
  have hsrc : X86.segUse sseg sio size false m = .ok () m := h.segUse (by intro hw; cases hw) hsio
  have hdst : X86.segUse .es dio size op.writesDi m = .ok () m :=
    h.segUse (by intro _ hcs; cases hcs) hdio
  unfold X86.strChecks
  cases op.usesSi with
  | false =>
    cases op.usesDi with
    | false => rfl
    | true => exact hdst
  | true =>
    cases op.usesDi with
    | false => exact bind_of_ok hsrc _
    | true => exact (bind_of_ok hsrc _).trans hdst

section Run

variable {op : StrOp} {wide dflt : Bool} {d : Dec} {m : Machine Unit}

theorem Going.acc_eq {rep : Rep} (h : Going .scas rep size dflt m) :
    m.s.acc size = elemOf size ((accOf rep).setWidth 64) := by
  have hacc : m.s.acc size = elemOf size ((m.s.r eaxI).setWidth 64) := by
    have h32 := setWidth_setWidth_of_le (m.s.r eaxI) (show 32 ≤ 64 by decide)
    rw [elemOf, h32]
    rfl
  rw [hacc, h.acc rfl]

theorem Going.compares {rep : Rep} (h : Going op rep size dflt m)
    (hsize : IsWidth size) (hcmp : op.compares = true) {slin dlin : BitVec 64}
    (hs : slin.toNat % 8 = (m.s.r esiI).toNat % 8) (hd : dlin.toNat % 8 = (m.s.r ediI).toNat % 8) :
    (Smooth.leftOf (memOf rep) op m.s size slin).setWidth (size * 8) =
      (elemOf size (memOf rep dlin)).setWidth (size * 8) ↔ rep = .repe := by
  -- the three values an element can have differ at every width
  have hzero : (elemOf size 0).setWidth (size * 8) ≠ (elemOf size (~~~0)).setWidth (size * 8) ∧
      (elemOf size 0x01010101).setWidth (size * 8) ≠ (elemOf size 0).setWidth (size * 8) ∧
      (elemOf size 0x01010101).setWidth (size * 8) ≠ (elemOf size (~~~0)).setWidth (size * 8) := by
    rcases hsize with rfl | rfl | rfl
    · exact ⟨by decide, by decide, by decide⟩
    · exact ⟨by decide, by decide, by decide⟩
    · exact ⟨by decide, by decide, by decide⟩
  by_cases hrep : rep = .repe
  · rw [iff_true_intro hrep, iff_true, memOf, if_pos hrep]
    cases op with
    | cmps =>
      show (elemOf size (memOf rep slin)).setWidth (size * 8) = _
      rw [memOf, if_pos hrep]
    | scas =>
      show (m.s.acc size).setWidth (size * 8) = _
      rw [h.acc_eq, accOf, if_pos hrep]
      rfl
    | _ => cases hcmp
  · rw [iff_false_intro hrep, iff_false, memOf, if_neg hrep]
    cases op with
    | cmps =>
      have hapart := h.apart rfl
      show ¬(elemOf size (memOf rep slin)).setWidth (size * 8) = _
      rw [memOf, if_neg hrep]
      by_cases hlow : slin.toNat % 8 < 4
      · rw [if_pos hlow, if_neg (by omega)]
        exact hzero.1
      · rw [if_neg hlow, if_pos (by omega)]
        exact hzero.1.symm
    | scas =>
      show ¬(m.s.acc size).setWidth (size * 8) = _
      rw [h.acc_eq, accOf, if_neg hrep]
      split
      · exact hzero.2.1
      · exact hzero.2.2
    | _ => cases hcmp

theorem Smooth.element (h : Smooth f dflt m) (seg : Seg)
    {off : BitVec 32} (hsize : IsWidth size) (hoff : off.toNat % size = 0) :
    Element size (X86.linOf m.s seg off) := by
  have hlt := off.isLt
  exact ⟨hsize, by rw [h.linOf]; exact hoff, by rw [h.linOf]; exact hlt⟩

theorem Going.step (h : Going op d.rep (strSize d wide) dflt m) (hrep : d.rep ≠ .none)
    (hbusy : ¬strIdle d m.s) :
    ∃ m1, stringOp op wide (m.setD d) = .ok () m1 ∧ Going op d.rep (strSize d wide) dflt m1 ∧
      (op.compares = true → m1.s.zf = decide (d.rep = .repe)) := by
  have hsize := isWidth_strSize d wide
  have hsmooth := h.smooth.setD d
  have hmod (i : Reg) : (m.s.sized d.a32 i).toNat % 8 = (m.s.r i).toNat % 8 := by
    rw [toNat_sized, span_mod]
  -- both offsets are multiples of the size
  have hoffs : (m.s.sized d.a32 esiI).toNat % strSize d wide = 0 ∧
      (m.s.sized d.a32 ediI).toNat % strSize d wide = 0 := by
    have hsi := h.si
    have hdi := h.di
    have hs := hmod esiI
    have hd := hmod ediI
    rcases hsize with hw | hw | hw <;> rw [hw] at hsi hdi ⊢ <;> omega
  have hsrc := hsmooth.element (d.seg.getD .ds) hsize hoffs.1
  have hdst := hsmooth.element .es hsize hoffs.2
  obtain ⟨t, hbody, ht, hcmp⟩ := hsmooth.strBody op hsrc hdst
  have hsbound := hsrc.inPage.2.2
  have hdbound := hdst.inPage.2.2
  rw [hsmooth.linOf] at hsbound hdbound
  have hchecks := hsmooth.strChecks op (d.seg.getD .ds) hsbound hdbound
  have hframe : BodyFrame _ _ := (BodyFraming.strBody op).of_ok hbody
  have hstep := strStep_mod m.s hsize
  have hrun : stringOp op wide (m.setD d) = .ok () (strEnd op wide d m.s t) := by
    have hbusy' : ¬strIdle (m.setD d).d (m.setD d).s := hbusy
    rw [stringOp_apply, if_neg hbusy']
    exact (bind_of_ok hchecks _).trans (bind_of_ok hbody _)
  refine ⟨strEnd op wide d m.s t, hrun, ?_, ?_⟩
  · obtain ⟨hsi, hdi⟩ := strAdvance_mod op d.a32 (strStep m.s (strSize d wide)) m.s t.s hframe.r
    have hecx (i : Reg) (hi : i ≠ ecxI) : (strEnd op wide d m.s t).s.r i = (strAdvance op d.a32
        (m.s.sized d.a32 esiI) (m.s.sized d.a32 ediI) (strStep m.s (strSize d wide)) t.s).r i := by
      rw [strEnd, if_neg hrep, strNext_s, r_setSized_ne _ _ _ hi]
      rfl
    refine ⟨?_, ?_, ?_, fun hop => ?_, fun hop => ?_⟩
    · rw [strEnd, if_neg hrep]
      exact (ht.setRegs (strAdvance_regs ..)).strNext op
    · rw [hecx esiI (by decide)]
      exact aligned_step hsize h.si hstep hsi
    · rw [hecx ediI (by decide)]
      exact aligned_step hsize h.di hstep hdi
    · have hapart := h.apart hop
      rw [hecx esiI (by decide), hecx ediI (by decide), hdi, hop]
      rw [hop] at hsi
      change _ = (_ + BitVec.toNat _) % 8 at hsi
      show (_ + BitVec.toNat _) % 8 = _
      omega
    · rw [hecx eaxI (by decide), strAdvance_eax, (hcmp (by rw [hop]; rfl)).1]
      exact h.acc hop
  · intro hc
    rw [X86State.zf, strEnd_fl, ← X86State.zf, (hcmp hc).2]
    have hs : (linOf m.s (d.seg.getD .ds) (m.s.sized d.a32 esiI)).toNat % 8 =
        (m.s.r esiI).toNat % 8 := by rw [h.smooth.linOf, hmod]
    have hd : (linOf m.s .es (m.s.sized d.a32 ediI)).toNat % 8 = (m.s.r ediI).toNat % 8 := by
      rw [h.smooth.linOf, hmod]
    have hiff := h.compares hsize hc hs hd
    exact decide_eq_decide.mpr hiff

/-- From a going machine the instruction runs as often as the counter of the operand size
says, and no comparison stops it. -/
theorem Going.run (hrep : d.rep ≠ .none) (hnxt : d.nxt ≠ 0) (k : Nat)
    (hk : m.s.count d.w32 = k) (h : Going op d.rep (strSize d wide) dflt m) :
    ∃ ms, RepRun op wide d true m ms ∧ ms.length = k ∧ ∀ t ∈ ms, ¬stopsAt op d.rep t.s := by
  induction k generalizing m with
  | zero => exact ⟨[], .idle ⟨hrep, (m.s.sized_eq_zero d.w32).mpr hk⟩, rfl, by simp⟩
  | succ k ih =>
    have hbusy : ¬strIdle d m.s := fun hidle => by
      rw [(m.s.sized_eq_zero d.w32).mp hidle.2] at hk
      cases hk
    obtain ⟨m1, hrun, h1, hzf⟩ := h.step hrep hbusy
    have hgoes : ¬stopsAt op d.rep m1.s := fun hstop => hstop.2 (hzf hstop.1)
    have hcounts : Counts op (m.setD d) m1 := stringOp_counts hrep hbusy hrun
    have hcount := (iteration_counts hrep hbusy hrun).1
    by_cases hzero : m1.s.count d.w32 = 0
    · refine ⟨[m1], .last hbusy hrun ?_, by rw [List.length_singleton]; omega, ?_⟩
      · rw [hcounts.stops (.inl hzero)]
        exact hnxt
      · intro t ht
        rw [List.mem_singleton.mp ht]
        exact hgoes
    · obtain ⟨ms, hrest, hlen, hall⟩ := ih (by omega) h1
      have hagain : m1.d.nxt = 0 := hcounts.again (by rintro (hz | hs); exacts [hzero hz, hgoes hs])
      refine ⟨m1 :: ms, .more hbusy hrun hagain rfl hrest, by rw [List.length_cons, hlen], ?_⟩
      intro t ht
      rcases List.mem_cons.mp ht with rfl | ht
      · exact hgoes
      · exact hall t ht

end Run

/-! ### The counter of a counted instruction -/

def goingMachine (dflt : Bool) (rep : Rep) (ecx : BitVec 32) : Machine Unit where
  s := { x86InitMultiboot with
    r := fun i => if i = ecxI then ecx else if i = eaxI then accOf rep
      else if i = ediI then 4 else 0
    seg := flatSegs dflt }
  d := start dflt
  eip := 0
  recPc := 0
  w := answeringWorld (memOf rep)
  io := ⟨[onePort], none⟩
  ioWf := onePort_wf
  ports := openPorts 0
  gMemSlow := false
  portReads := []

theorem goingMachine_going (op : StrOp) (dflt : Bool) (rep : Rep) (ecx : BitVec 32)
    (h : IsWidth size) : Going op rep size dflt (goingMachine dflt rep ecx) where
  smooth := ⟨rfl, rfl, show x86InitMultiboot.pg = false by decide,
    show x86InitMultiboot.vm = false by decide, rfl, rfl, rfl, answers_answeringWorld _⟩
  si := Nat.zero_mod size
  di := by
    show (4#32).toNat % size = 0
    rcases h with rfl | rfl | rfl <;> decide
  apart := fun _ => rfl
  acc := fun _ => rfl

theorem count_eq_iff (s : X86State) {a w : Bool} (h : a ≠ w) :
    s.count a = s.count w ↔ (s.r ecxI).toNat < 0x10000 := by
  have hlow : s.count false = (s.r ecxI).toNat % 0x10000 := s.count_eq false
  have hall : s.count true = (s.r ecxI).toNat % 0x100000000 := s.count_eq true
  cases a <;> cases w
  · exact absurd rfl h
  · omega
  · omega
  · exact absurd rfl h

theorem CountsIn.of_small {D : Type} {a w : Bool} {op : StrOp} {rep : Rep} {done : Bool}
    {m : Machine D} {ms : List (Machine D)} (h : CountsIn w op rep done m ms)
    (hecx : (m.s.r ecxI).toNat < 0x10000) : CountsIn a op rep done m ms := by
  have hsmall (wide : Bool) {e : Nat} (he : e < 0x10000) :
      e % span wide = e ∧ e / span wide = 0 := by
    have hspan : 0x10000 ≤ span wide := by cases wide <;> decide
    exact ⟨Nat.mod_eq_of_lt (by omega), Nat.div_eq_of_lt (by omega)⟩
  have hstart (wide : Bool) : m.s.count wide = (m.s.r ecxI).toNat := by
    rw [count_eq, (hsmall wide hecx).1]
  obtain ⟨hleft, habove, hall, hheld, hstopped⟩ := h
  -- nothing above CX is set at the end either
  have hend : ((endOf m ms).s.r ecxI).toNat < 0x10000 := by
    have hdiv := Nat.div_add_mod ((endOf m ms).s.r ecxI).toNat (span w)
    rw [habove, (hsmall w hecx).2] at hdiv
    rw [count_eq, hstart] at hleft
    omega
  have hlast (wide : Bool) : (endOf m ms).s.count wide = ((endOf m ms).s.r ecxI).toNat := by
    rw [count_eq, (hsmall wide hend).1]
  refine ⟨?_, ?_, ?_, hheld, ?_⟩
  · rw [hlast, hstart, ← hlast w, ← hstart w]
    exact hleft
  · rw [(hsmall a hend).2, (hsmall a hecx).2]
  · rw [hstart, ← hstart w]
    exact hall
  · rw [hstart, ← hstart w]
    exact hstopped

/-- The instruction counts in the register of the address size, on every machine. -/
def CountsAtAddressSize (op : StrOp) (wide dflt : Bool) (ps : List Prefix) (ecx : BitVec 32) :
    Prop :=
  ∀ (D : Type) (done : Bool) (m : Machine D) (ms : List (Machine D)), m.s.dflt = dflt →
    m.s.r ecxI = ecx → RepRun op wide (prefixed dflt ps) done m ms →
    CountsIn (prefixed dflt ps).a32 op (prefixed dflt ps).rep done m ms

theorem countsAtAddressSize_iff (op : StrOp) (wide dflt : Bool) {ps : List Prefix} (ecx : BitVec 32)
    (hrep : (prefixed dflt ps).rep ≠ .none) (hlen : ps.length + 1 < 2 ^ 32) :
    CountsAtAddressSize op wide dflt ps ecx ↔
      (prefixed dflt ps).a32 = (prefixed dflt ps).w32 ∨ ecx.toNat < 0x10000 := by
  have hnxt : (prefixed dflt ps).nxt ≠ 0 := by
    intro hzero
    have htoNat : (BitVec.ofNat 32 (ps.length + 1)).toNat = 0 := congrArg BitVec.toNat hzero
    rw [toNat_ofNat, Nat.mod_eq_of_lt hlen] at htoNat
    cases htoNat
  constructor
  · intro hall
    by_cases hsize : (prefixed dflt ps).a32 = (prefixed dflt ps).w32
    · exact .inl hsize
    right
    have hgoing := goingMachine_going op dflt (prefixed dflt ps).rep ecx
      (isWidth_strSize (.prefixed dflt ps) wide)
    obtain ⟨ms, hrun, hms, hgoes⟩ := hgoing.run hrep hnxt _ rfl
    have hpe : x86InitMultiboot.pe = true := by decide
    have hdflt : (goingMachine dflt (prefixed dflt ps).rep ecx).s.dflt = dflt := by
      show (x86InitMultiboot.pe && dflt) = dflt
      rw [hpe, Bool.true_and]
    have hcounts := hall Unit true _ ms hdflt rfl hrun
    have hlength : ms.length =
        (goingMachine dflt (prefixed dflt ps).rep ecx).s.count (prefixed dflt ps).a32 := by
      cases hcmp : op.compares with
      | false => exact hcounts.all rfl hcmp
      | true =>
        rcases hcounts.stopped rfl hcmp with hcount | ⟨t, ht, hstop⟩
        · exact hcount
        · exact absurd hstop (hgoes t (List.mem_of_getLast? ht))
    exact (count_eq_iff _ hsize).mp (hlength.symm.trans hms)
  · intro hcond D done m ms _ hecx hrun
    have hcounts := hrun.countsIn hrep hnxt
    rcases hcond with hsize | hsmall
    · rw [hsize]
      exact hcounts
    · apply hcounts.of_small
      rw [hecx]
      exact hsmall

/-- String instructions and LOOP count in the register of the address size exactly when that is
also the operand size, or the counts of CX and ECX agree; for LOOP: when no borrow leaves CX and
the branch does not depend on the upper half. -/
theorem address_size_counts_iff (op : StrOp) (wide dflt : Bool) (ps : List Prefix)
    (ecx : BitVec 32) :
    ((Dec.prefixed dflt ps).rep ≠ .none → ps.length + 1 < 2 ^ 32 →
      (CountsAtAddressSize op wide dflt ps ecx ↔
        (Dec.prefixed dflt ps).a32 = (Dec.prefixed dflt ps).w32 ∨ ecx.toNat < 0x10000)) ∧
    (∀ (D : Type) (op : LoopOp) (rel : BitVec 8) (m t : Machine D), fetch8 m = .ok rel t →
      (LoopCounts m.d.a32 op rel m ↔
        m.d.a32 = m.d.w32 ∨ (m.s.count false ≠ 0 ∧ (m.s.count false = 1 →
          m.s.count true = 1 ∨ op.holds m.s = false ∨ rel = 0)))) := by
  constructor
  · intro hrep hlen
    exact countsAtAddressSize_iff op wide dflt ecx hrep hlen
  · intro D op rel m t hfetch
    by_cases hsize : m.d.a32 = m.d.w32
    · rw [iff_true_intro (Or.inl hsize), iff_true, hsize]
      exact loopOp_counts op hfetch
    · rw [loopCounts_iff op hfetch hsize, or_iff_right hsize]

/-- REP STOSD in 32-bit code. -/
theorem address_size_counts_rep_stosd :
    CountsAtAddressSize .stos true true [.repe] 0x10000 ∧
      LoopCounts true .loop 0xfe
        (.small { x86InitMultiboot with r := fun _ => 5 } (Dec.prefixed true []) fun _ => 0xfe :
          Machine Unit) := by
  constructor
  · exact ((address_size_counts_iff .stos true true [.repe] 0x10000).1 (by decide) (by decide)).mpr
      (.inl rfl)
  · exact ((address_size_counts_iff .stos true true [] 0).2 Unit .loop 0xfe _ _ (by rfl)).mpr
      (.inl rfl)

/-- REP STOSW in 32-bit code, 66 F3 AB, with ECX = 0x10000 stores nothing. -/
theorem rep_stosw_counts_cx :
    RepRun .stos true (Dec.prefixed true [.opSize, .repe]) true
        (goingMachine true .repe 0x10000) [] ∧
      (Dec.prefixed true [.opSize, .repe]).a32 = true ∧
      (goingMachine true .repe 0x10000).s.count true = 0x10000 ∧
      ¬CountsAtAddressSize .stos true true [.opSize, .repe] 0x10000 := by
  have hrun : RepRun .stos true (.prefixed true [.opSize, .repe]) true
      (goingMachine true .repe 0x10000) [] := .idle ⟨by decide, by decide⟩
  refine ⟨hrun, by decide, by decide, fun hall => ?_⟩
  have hcounts := (hall Unit true _ [] rfl rfl hrun).all rfl rfl
  revert hcounts
  decide

end Cemu.X86
