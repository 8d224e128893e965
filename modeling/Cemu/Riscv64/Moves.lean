import Cemu.Riscv64.Step
import Cemu.Riscv64.Walk

/-!
# riscv64: what a step is made of

Every instruction is a sequence of elementary moves of the machine. The still ones come
first: translations, bus probes and reads, which change nothing a program can name. The
others are the effects. `riscvStep_moves` says that a step is a run of moves, and
`stepInsn_made` that an instruction which raises has made still moves only, up to the
slack of its form: an FP instruction has already marked `mstatus.FS`, and `cbo.zero` may
have stored a part of its block.
-/

namespace Cemu.Rv64

open RaiseM Relation Still

variable {D : Type}

structure Slack where
  fs : Bool
  stores : Bool

inductive StillMove (k : Slack) : Machine D → Machine D → Prop
  | translate {m m' : Machine D} (vaddr : BitVec 64) (size : Nat) (acc : Acc)
      (h : (riscvTranslate vaddr size acc m).state? = some m') : StillMove k m m'
  | probe (m : Machine D) (addr : BitVec 64) (len : Nat) :
      StillMove k m (m.setWorld (m.w.find addr len).2)
  | read {m : Machine D} {addr v : BitVec 64} {size : Nat} {w : World D}
      (hsize : BitVec.ofNat 64 size ≠ 0) (h : m.w.busRead addr size = some (v, w)) :
      StillMove k m (m.setWorld w)
  | zero (m : Machine D) : StillMove k m (m.setX 0 0)
  | fs (m : Machine D) (hk : k.fs = true) (h : m.rs.mstatus &&& kMstatusFs ≠ 0) :
      StillMove k m (m.setRs { m.rs with mstatus := m.rs.mstatus ||| kMstatusFs })
  | store (m : Machine D) (w : World D) (hk : k.stores = true) : StillMove k m (m.setWorld w)

inductive Move : Machine D → Machine D → Prop
  | still {m m' : Machine D} (h : StillMove ⟨true, true⟩ m m') : Move m m'
  -- registers, memory, devices: whatever leaves the control state alone
  | outside {m m' : Machine D} (h : m'.rs = m.rs) : Move m m'
  | csr {m : Machine D} {addr val nextPc : BitVec 64} {rs : RiscvState}
      (h : riscvCsrWrite m.rs addr val nextPc = some rs) : Move m (m.setRs rs)
  | mret (m : Machine D) (h : m.rs.priv = kPrivMachine) : Move m (m.setRs (riscvMret m.rs).2)
  | sret (m : Machine D) (h : ¬ m.rs.priv < kPrivSupervisor) :
      Move m (m.setRs (riscvSret m.rs).2)
  | sfence (m : Machine D) : Move m (m.setRs { m.rs with tlbGen := m.rs.tlbGen + 1 })
  | flags (m : Machine D) (fflags : BitVec 8) : Move m (m.setRs { m.rs with fflags := fflags })
  | reserve (m : Machine D) (valid : Bool) (addr : BitVec 64) :
      Move m (m.setRs { m.rs with resValid := valid, resAddr := addr })
  | interrupt (m : Machine D) : Move m (riscvDeliverInterrupt m)
  | trap (m : Machine D) (t : TrapRec) : Move m (landingPad t m)
  | tick (m : Machine D) : Move m (countStep m)

inductive PlainMove : Machine D → Machine D → Prop
  | still {m m' : Machine D} (h : StillMove ⟨true, true⟩ m m') : PlainMove m m'
  | outside {m m' : Machine D} (h : m'.rs = m.rs) : PlainMove m m'
  | mret (m : Machine D) (h : m.rs.priv = kPrivMachine) : PlainMove m (m.setRs (riscvMret m.rs).2)
  | sret (m : Machine D) (h : ¬ m.rs.priv < kPrivSupervisor) :
      PlainMove m (m.setRs (riscvSret m.rs).2)
  | sfence (m : Machine D) : PlainMove m (m.setRs { m.rs with tlbGen := m.rs.tlbGen + 1 })
  | flags (m : Machine D) (fflags : BitVec 8) : PlainMove m (m.setRs { m.rs with fflags := fflags })
  | reserve (m : Machine D) (valid : Bool) (addr : BitVec 64) :
      PlainMove m (m.setRs { m.rs with resValid := valid, resAddr := addr })

variable {m m' : Machine D}

theorem PlainMove.weaken (h : PlainMove m m') : Move m m' := by
  cases h with
  | still h => exact .still h
  | outside h => exact .outside h
  | mret h => exact .mret m h
  | sret h => exact .sret m h
  | sfence => exact .sfence m
  | flags fflags => exact .flags m fflags
  | reserve valid addr => exact .reserve m valid addr

theorem StillMove.plain {k : Slack} (h : StillMove k m m') : PlainMove m m' := by
  cases h with
  | translate vaddr size acc h => exact .still (.translate vaddr size acc h)
  | probe => exact .outside rfl
  | read => exact .outside rfl
  | zero => exact .outside rfl
  | fs _ h => exact .still (.fs m rfl h)
  | store => exact .outside rfl

theorem StillMove.weaken {k : Slack} (h : StillMove k m m') : Move m m' := h.plain.weaken

/-- `c` changes nothing a program can name, up to the slack `k`. -/
abbrev Rests (D : Type) (k : Slack) {α : Type} (c : RvM D α) : Prop := Still (StillMove k) c

/-- `c` is made of plain moves, and of still ones only when it raises. -/
abbrev Acts (D : Type) (k : Slack) {α : Type} (c : RvM D α) : Prop := Made (StillMove k) PlainMove c

/-- No CSR write reaches the TLB or the count of retired instructions. -/
theorem csrWrite_kept {s s' : RiscvState} {c : Csr} {val nextPc : BitVec 64}
    (h : csrWrite s c val nextPc = some s') :
    (s'.tlb = s.tlb ∧ s'.tlbGen = s.tlbGen) ∧
      s'.minstret = s.minstret ∧ s'.counterWritten = s.counterWritten := by
  cases c with
  | satp =>
    simp only [csrWrite] at h
    split at h
    · cases h
    split at h <;> cases h <;> exact ⟨⟨rfl, rfl⟩, rfl, rfl⟩
  | pmpcfg k =>
    cases h
    unfold writePmpCfg setPmpcfgWord
    split <;> exact ⟨⟨rfl, rfl⟩, rfl, rfl⟩
  | pmpaddr k =>
    cases h
    unfold writePmpAddr
    split
    · exact ⟨⟨rfl, rfl⟩, rfl, rfl⟩
    split <;> exact ⟨⟨rfl, rfl⟩, rfl, rfl⟩
  | tinfo | mvendorid | marchid | mimpid | mhartid => cases h
  | _ => cases h; exact ⟨⟨rfl, rfl⟩, rfl, rfl⟩

section Rules

variable {k : Slack} {α β : Type} {m : RvM D α} {f : α → RvM D β}

theorem made_of_still (h : Rests D k m) : Acts D k m := h.made fun _ _ => StillMove.plain

theorem made_bind (hm : Rests D k m) (hf : ∀ a, Acts D k (f a)) : Acts D k (m >>= f) :=
  hm.bind_made (fun _ _ => StillMove.plain) hf

theorem made_ite {c : Prop} [Decidable c] {m' : RvM D α} (hm : Acts D k m) (hm' : Acts D k m') :
    Acts D k (if c then m else m') := by
  split
  · exact hm
  · exact hm'

end Rules

/-! ### The memory pipeline -/

theorem onWorld_bind {α β : Type} (c : RiscvState → WorldM D α) (f : RiscvState → α → WorldM D β) :
    (onWorld fun s => c s >>= f s) = (onWorld c >>= fun a => onWorld fun s => f s a) := by
  funext m
  simp only [onWorld_apply, bind_apply]
  cases c m.rs m.w <;> rfl

section Pipeline

variable (k : Slack)

theorem riscvTranslate_still (vaddr : BitVec 64) (size : Nat) (acc : Acc) :
    Rests D k (riscvTranslate vaddr size acc) := by
  intro m
  cases h : riscvTranslate vaddr size acc m with
  | ok a m' => exact .of_ok h (.single (.translate vaddr size acc (by rw [h]; rfl)))
  | raise t m' => exact .of_raise h (.single (.translate vaddr size acc (by rw [h]; rfl)))
  | fatal => exact .of_fatal h

theorem riscvTriggerCheck_still (op : TrigOp) (addr : BitVec 64) :
    Rests D k (riscvTriggerCheck op addr) := by
  refine get.bind fun m => ?_
  split
  · unfold fire
    split
    · exact .fatal
    · exact .raise _
  · exact .pure _

theorem probe_still (addr : BitVec 64) (len : Nat) : Rests D k (onWorld fun _ => probe addr len) :=
  fun m => .of_ok rfl (.single (.probe m addr len))

variable {size : Nat}

section

variable (vaddr : BitVec 64) (hsize : BitVec.ofNat 64 size ≠ 0)

include hsize

theorem busRead_still : Rests D k (onWorld fun _ => busRead vaddr size) := by
  intro m
  cases h : m.w.busRead vaddr size with
  | none => exact .of_fatal (by simp only [onWorld_apply, Rv64.busRead, h])
  | some p =>
    exact .of_ok (by simp only [onWorld_apply, Rv64.busRead, h]; rfl) (.single (.read hsize h))

theorem loadVia_still (acc : Acc) (paddr : BitVec 64) :
    Rests D k (onWorld fun _ => loadVia vaddr size acc paddr) := by
  unfold loadVia
  rw [onWorld_bind]
  refine (probe_still k _ _).bind fun found => ?_
  cases found with
  | none => exact fun m => .of_raise rfl .refl
  | some _ => exact busRead_still k _ hsize

theorem loadAt_still (acc : Acc) (paddr : BitVec 64) (host : Option HostPtr) :
    Rests D k (loadAt vaddr size acc paddr host) := by
  refine get.bind fun m => ?_
  cases host with
  | none => exact loadVia_still k _ hsize _ _
  | some h =>
    simp only
    split
    · exact .pure _
    · exact loadVia_still k _ hsize _ _

theorem riscvMemLoad_still (acc : Acc) : Rests D k (riscvMemLoad vaddr size acc) := by
  have hrest : Rests D k
      (riscvTranslate vaddr size acc >>= fun a => loadAt vaddr size acc a.1 a.2) :=
    (riscvTranslate_still k _ _ _).bind fun a => loadAt_still k _ hsize _ _ _
  unfold riscvMemLoad
  split
  · exact (riscvTriggerCheck_still k _ _).bind fun _ => hrest
  · exact hrest

end

section Stores

variable {S : Machine D → Machine D → Prop} (hS : ∀ m m', StillMove k m m' → S m m')
  (hworld : ∀ m w, S m (Machine.setWorld m w))

include hS hworld

section

variable (vaddr : BitVec 64) (size : Nat)

theorem storeVia_made (val paddr : BitVec 64) :
    Made (StillMove k) S (onWorld fun _ => storeVia vaddr size val paddr : RvM D Unit) := by
  unfold storeVia
  rw [onWorld_bind]
  refine (probe_still k _ _).bind_made hS fun found => ?_
  cases found with
  | none => exact fun m => .of_raise rfl .refl
  | some _ =>
    intro m
    cases h : m.w.busWrite paddr size val with
    | none => exact .of_fatal (by simp only [onWorld_apply, Rv64.busWrite, h])
    | some w =>
      exact .of_ok (by simp only [onWorld_apply, Rv64.busWrite, h]; rfl) (.single (hworld m w))

theorem storeAt_made (val paddr : BitVec 64) (host : Option HostPtr) :
    Made (StillMove k) S (storeAt vaddr size val paddr host : RvM D Unit) := by
  refine get.bind_made hS fun m => ?_
  cases host with
  | none => exact storeVia_made k hS hworld _ _ _ _
  | some h =>
    simp only
    split
    · exact (Effect.modify fun m => hworld m _).made
    · exact storeVia_made k hS hworld _ _ _ _

theorem riscvMemStore_made (val : BitVec 64) :
    Made (StillMove k) S (riscvMemStore vaddr size val : RvM D Unit) :=
  (riscvTriggerCheck_still k _ _).bind_made hS fun _ =>
    (riscvTranslate_still k _ _ _).bind_made hS fun _ => storeAt_made k hS hworld _ _ _ _ _

end

end Stores

theorem store_made (vaddr : BitVec 64) (size : Nat) (val : BitVec 64) :
    Acts D k (riscvMemStore vaddr size val) :=
  riscvMemStore_made k (fun _ _ => StillMove.plain) (fun _ _ => .outside rfl) _ _ _

theorem store_still (hk : k.stores = true) (vaddr : BitVec 64) (size : Nat) (val : BitVec 64) :
    Rests D k (riscvMemStore vaddr size val) :=
  riscvMemStore_made k (fun _ _ h => h) (fun m w => .store m w hk) _ _ _

end Pipeline

/-! ### Register operations -/

section Registers

variable {k : Slack}

theorem getX_still (r : BitVec 5) : Rests D k (getX r) := fun _ => .of_ok rfl .refl
theorem getF_still (r : BitVec 5) : Rests D k (getF r) := fun _ => .of_ok rfl .refl
theorem getPc_still : Rests D k getPc := fun _ => .of_ok rfl .refl
theorem getRs_still : Rests D k getRs := fun _ => .of_ok rfl .refl

variable {S : Machine D → Machine D → Prop}

theorem illegal_still {α : Type} (tval : BitVec 64) : Rests D k (illegal tval : RvM D α) := .raise _

theorem raiseTrap_still {α : Type} (cause tval : BitVec 64) :
    Rests D k (raiseTrap cause tval : RvM D α) := .raise _

theorem load_still (addr : BitVec 64) {size : Nat} (hsize : BitVec.ofNat 64 size ≠ 0)
    (sextW : Bool) : Rests D k (load addr size sextW) :=
  (riscvMemLoad_still k _ hsize _).bind fun _ => .pure _

theorem setX_effect (r : BitVec 5) (v : BitVec 64) : Effect PlainMove (setX r v : RvM D Unit) :=
  .modify fun _ => .outside rfl

theorem setF_effect (r : BitVec 5) (v : BitVec 64) : Effect PlainMove (setF r v : RvM D Unit) :=
  .modify fun _ => .outside rfl

theorem fallThrough_effect (ilen : BitVec 64) : Effect S (fallThrough ilen : RvM D _) :=
  .bind (.bind .get fun _ => .pure _) fun _ => .pure _

theorem thenFall_made {ilen : BitVec 64} {body : RvM D Unit} (h : Made (StillMove k) S body) :
    Made (StillMove k) S (thenFall ilen body) :=
  h.bind_effect fun _ => fallThrough_effect ilen

theorem fpEnter_still (hk : k.fs = true) (tval : BitVec 64) : Rests D k (fpEnter tval) := by
  refine .get_bind fun m => ?_
  split
  · exact .of_raise rfl .refl
  · next h => exact .of_ok rfl (.single (.fs m hk h))

end Registers

/-! ### The 32-bit instructions -/

def execSlack (i : BitVec 32) : Slack where
  fs := decide (opcode i ∈ [0x07, 0x27, 0x43, 0x47, 0x4b, 0x4f, (0x53 : BitVec 7)])
  stores := decide (opcode i = 0x0f) && decide (f3 i = 2)

section Instructions

variable {k : Slack} (ilen : BitVec 64) (i : BitVec 32)

theorem setXOr_made (r : BitVec 5) (v : Option (BitVec 64)) : Acts D k (setXOr i r v) := by
  cases v with
  | none => exact made_of_still (illegal_still _)
  | some v => exact (setX_effect r v).made

theorem csrOp_made : Made (StillMove k) Move (csrOp ilen i : RvM D Unit) := by
  -- the CSR write is decided on the state it is made in
  refine .get_bind fun m => ?_
  simp only
  split
  · exact .of_raise rfl .refl
  split
  · exact .of_ok rfl (.single (.outside rfl))
  split
  · exact .of_raise rfl .refl
  · next hw =>
    exact .of_ok rfl (.tail (.single (.csr hw)) (.outside rfl))

theorem systemOp_made : Acts D k (systemOp ilen i) := by
  refine .get_bind fun m => ?_
  simp only
  split
  · exact .of_raise rfl .refl
  · exact .of_raise rfl .refl
  · split
    · exact .of_raise rfl .refl
    · next h =>
      simp only [not_or, not_not] at h
      exact .of_ok rfl (.single (.mret m h.2.2))
  · split
    · exact .of_raise rfl .refl
    split
    · exact .of_raise rfl .refl
    split
    · exact .of_raise rfl .refl
    · next h => exact .of_ok rfl (.single (.sret m h))
  · split
    · exact .of_raise rfl .refl
    split
    · exact .of_raise rfl .refl
    split
    · exact .of_ok rfl (.single (.outside rfl))
    · exact .of_ok rfl .refl
  · split
    · exact .of_raise rfl .refl
    split
    · exact .of_raise rfl .refl
    · exact .of_ok rfl (.single (.sfence m))
  · exact .of_raise rfl .refl

theorem amoOp_made (isDouble : Bool) : Acts D k (amoOp i isDouble) := by
  have hsize : BitVec.ofNat 64 (accessWidth isDouble) ≠ 0 := by cases isDouble <;> decide
  refine made_bind (getX_still _) fun addr => ?_
  split
  · exact made_of_still (raiseTrap_still _ _)
  split
  · refine made_bind (riscvMemLoad_still k _ hsize _) fun old => ?_
    exact ((Effect.modify fun m => .reserve m true addr).bind fun _ => setX_effect _ _).made
  split
  · refine made_bind (getX_still _) fun val => made_bind getRs_still fun s => ?_
    have hend : Effect PlainMove (do
        let s ← getRs
        setRs { s with resValid := false } : RvM D Unit) :=
      fun m => .of_ok rfl (.single (.reserve m false m.rs.resAddr))
    split
    · exact (store_made k _ _ _).bind_effect fun _ => (setX_effect _ _).bind fun _ => hend
    · exact ((setX_effect _ _).bind fun _ => hend).made
  split
  · exact made_bind (riscvMemLoad_still k _ hsize _) fun old =>
      made_bind (getX_still _) fun val =>
        (store_made k _ _ _).bind_effect fun _ => setX_effect _ _
  · exact made_of_still (illegal_still _)

theorem fpCommit_effect (r : BitVec 5) (dest : FpDest) :
    Effect PlainMove (fpCommit r dest : RvM D Unit) := by
  intro m
  cases dest with
  | toF out =>
    exact .of_ok rfl (.tail (.single (.flags m (m.rs.fflags ||| out.flags))) (.outside rfl))
  | toX out =>
    exact .of_ok rfl (.tail (.single (.flags m (m.rs.fflags ||| out.flags))) (.outside rfl))

theorem fpOp_made (hk : k.fs = true) (fp : FpBackend) (i : BitVec 32) : Acts D k (fpOp fp i) := by
  refine made_bind (fpEnter_still hk _) fun _ => made_bind .get fun m => ?_
  split
  · exact (fpCommit_effect _ _).made
  · exact made_of_still (illegal_still _)

theorem fmaOp_made (hk : k.fs = true) (fp : FpBackend) (i : BitVec 32) : Acts D k (fmaOp fp i) :=
  made_bind (fpEnter_still hk _) fun _ => made_bind .get fun _ => (fpCommit_effect _ _).made

theorem fpLdst_made (hk : k.fs = true) (i : BitVec 32) (isStore isDouble : Bool) :
    Acts D k (fpLdst i isStore isDouble) := by
  have hsize : BitVec.ofNat 64 (accessWidth isDouble) ≠ 0 := by cases isDouble <;> decide
  refine made_bind (fpEnter_still hk _) fun _ => made_bind (getX_still _) fun base => ?_
  split
  · exact made_bind (getF_still _) fun v => store_made k _ _ _
  · exact made_bind (riscvMemLoad_still k _ hsize _) fun v => (setF_effect _ _).made

theorem cboOp_still : Rests D k (cboOp i) := by
  refine get.bind fun m => ?_
  split
  · exact illegal_still _
  split
  · exact illegal_still _
  · exact .pure _

theorem cboZeroFrom_still (hk : k.stores = true) (addr : BitVec 64) (n : Nat) :
    Rests D k (cboZeroFrom addr n) := by
  induction n generalizing addr with
  | zero => exact .pure _
  | succ n ih => exact (store_still k hk _ _ _).bind fun _ => ih _

theorem cboZero_still (hk : k.stores = true) (i : BitVec 32) : Rests D k (cboZero i) := by
  refine get.bind fun m => ?_
  simp only
  split
  · exact illegal_still _
  split
  · exact raiseTrap_still _ _
  · exact cboZeroFrom_still hk _ _

theorem miscMem_still (hk : f3 i = 2 → k.stores = true) : Rests D k (miscMem i) := by
  unfold miscMem
  split
  · exact .pure _
  · split
    · exact .pure _
    split
    · exact illegal_still _
    · exact cboOp_still i
  · next h =>
    split
    · exact illegal_still _
    · exact cboZero_still (hk h) i
  · exact illegal_still _

theorem branchOp_made : Acts D k (branchOp ilen i) := by
  refine made_bind (getX_still _) fun a => made_bind (getX_still _) fun b => ?_
  split
  · exact made_of_still (illegal_still _)
  · exact made_bind getPc_still fun pc => (Effect.pure _).made
  · exact (fallThrough_effect _).made

theorem jalOp_made : Acts D k (jalOp ilen i) :=
  made_bind getPc_still fun _ => ((setX_effect _ _).bind fun _ => .pure _).made

theorem jalrOp_made : Acts D k (jalrOp ilen i) :=
  made_bind getPc_still fun _ => made_bind (getX_still _) fun _ =>
    ((setX_effect _ _).bind fun _ => fun _ => .of_ok rfl .refl).made

theorem loadKind_size {f3 : BitVec 3} {size : Nat} {sextW : Bool}
    (h : loadKind f3 = some (size, sextW)) : BitVec.ofNat 64 size ≠ 0 := by
  unfold loadKind at h
  split at h <;> cases h <;> decide

theorem loadOp_made : Acts D k (loadOp i) := by
  refine made_bind (getX_still _) fun base => ?_
  split
  · exact made_of_still (illegal_still _)
  · next h => exact made_bind (load_still _ (loadKind_size h) _) fun v => (setX_effect _ _).made

theorem storeOp_made : Acts D k (storeOp i) := by
  refine made_bind (getX_still _) fun base => ?_
  split
  · exact made_of_still (illegal_still _)
  · exact made_bind (getX_still _) fun v => store_made k _ _ _

theorem unaryOp_made (op : BitVec 64 → Option (BitVec 64)) : Acts D k (unaryOp i op) :=
  made_bind (getX_still _) fun _ => setXOr_made _ _ _

theorem binaryOp_made (op : BitVec 64 → BitVec 64 → Option (BitVec 64)) :
    Acts D k (binaryOp i op) :=
  made_bind (getX_still _) fun _ => made_bind (getX_still _) fun _ => setXOr_made _ _ _

theorem byWidth_made {body : Bool → RvM D Unit} (h : ∀ b, Acts D k (body b)) :
    Acts D k (byWidth i body) := by
  unfold byWidth
  split
  · exact h false
  split
  · exact h true
  · exact made_of_still (illegal_still _)

end Instructions

def isCsrInst (i : BitVec 32) : Bool :=
  decide (opcode i = 0x73) && decide (f3 i ≠ 0) && decide (f3 i ≠ 4)

section

variable (fp : FpBackend) (ilen : BitVec 64)

theorem riscvExecInstAt_csr {i : BitVec 32} (h : isCsrInst i = true) :
    riscvExecInstAt (D := D) fp ilen i = thenFall ilen (csrOp ilen i) := by
  simp only [isCsrInst, Bool.and_eq_true, decide_eq_true_eq] at h
  obtain ⟨⟨hop, hzero⟩, hfour⟩ := h
  rw [riscvExecInstAt, hop]
  exact (if_neg hzero).trans (if_pos hfour)

theorem riscvExecInstAt_plain {i : BitVec 32} (hcsr : isCsrInst i = false) :
    Made (StillMove (execSlack i)) PlainMove (riscvExecInstAt fp ilen i : RvM D (BitVec 64)) := by
  have hfs : opcode i ∈ [0x07, 0x27, 0x43, 0x47, 0x4b, 0x4f, 0x53] →
      (execSlack i).fs = true := fun h => decide_eq_true h
  unfold riscvExecInstAt
  split
  · exact thenFall_made (setX_effect _ _).made
  · exact thenFall_made (made_bind getPc_still fun pc => (setX_effect _ _).made)
  · exact jalOp_made _ _
  · exact jalrOp_made _ _
  · exact branchOp_made _ _
  · exact thenFall_made (loadOp_made _)
  · exact thenFall_made (storeOp_made _)
  · exact thenFall_made (unaryOp_made _ _)
  · exact thenFall_made (unaryOp_made _ _)
  · exact thenFall_made (binaryOp_made _ _)
  · exact thenFall_made (binaryOp_made _ _)
  · next h =>
    refine thenFall_made (made_of_still (miscMem_still i fun h2 => ?_))
    simp [execSlack, h, h2]
  · next hop =>
    split
    · exact systemOp_made _ _
    rename_i hzero
    split
    · next hfour =>
      simp only [isCsrInst, hop, hzero, hfour, ne_eq] at hcsr
      cases hcsr
    · exact made_of_still (illegal_still _)
  · exact thenFall_made (byWidth_made i fun b => amoOp_made i b)
  · next h =>
    exact thenFall_made (byWidth_made i fun b => fpLdst_made (hfs (by simp [h])) i false b)
  · next h =>
    exact thenFall_made (byWidth_made i fun b => fpLdst_made (hfs (by simp [h])) i true b)
  iterate 4
    · next h => exact thenFall_made (fmaOp_made (hfs (by simp [h])) fp i)
  · next h => exact thenFall_made (fpOp_made (hfs (by simp [h])) fp i)
  · exact made_of_still (illegal_still _)

theorem riscvExecInstAt_made (i : BitVec 32) :
    Made (StillMove (execSlack i)) Move (riscvExecInstAt fp ilen i : RvM D (BitVec 64)) := by
  cases h : isCsrInst i with
  | true =>
    rw [riscvExecInstAt_csr fp ilen h]
    exact thenFall_made (csrOp_made _ _)
  | false =>
    exact (riscvExecInstAt_plain fp ilen h).mono (.mono fun _ _ => PlainMove.weaken) fun _ _ h => h

end

/-! ### The compressed instructions -/

/-- The slack of a compressed instruction: c.fld and c.fsd are the two that mark FS. -/
def execCSlack (i : BitVec 16) : Slack where
  fs := decide (i.extractLsb' 0 2 = 0#2) && (decide (cf3 i = 1) || decide (cf3 i = 5))
  stores := false

section Compressed

variable {k : Slack} (i : BitVec 16)

theorem cIllegal_made {α : Type} :
    Acts D k (cIllegal i : RvM D α) := made_of_still (illegal_still _)

theorem skip_made : Acts D k (pure ()) := made_of_still (.pure ())

theorem updX_made (r : BitVec 5) (g : BitVec 64 → BitVec 64) : Acts D k (updX r g) :=
  made_bind (getX_still _) fun _ => (setX_effect _ _).made

theorem updX2_made (r r' : BitVec 5) (g : BitVec 64 → BitVec 64 → BitVec 64) :
    Acts D k (updX2 r r' g) :=
  made_bind (getX_still _) fun _ => made_bind (getX_still _) fun _ => (setX_effect _ _).made

section

variable (r base : BitVec 5) (imm : BitVec 64)

theorem cLoad_made {size : Nat} (hsize : BitVec.ofNat 64 size ≠ 0) (sextW : Bool) :
    Acts D k (cLoad r base imm size sextW) :=
  made_bind (getX_still _) fun _ => made_bind (load_still _ hsize _) fun _ =>
    (setX_effect _ _).made

theorem cStore_made (size : Nat) : Acts D k (cStore r base imm size) :=
  made_bind (getX_still _) fun _ => made_bind (getX_still _) fun _ => store_made k _ _ _

theorem cLoadF_made : Acts D k (cLoadF r base imm) :=
  made_bind (getX_still _) fun _ => made_bind (riscvMemLoad_still k _ (by decide) _) fun _ =>
    (setF_effect _ _).made

theorem cStoreF_made : Acts D k (cStoreF r base imm) :=
  made_bind (getX_still _) fun _ => made_bind (getF_still _) fun _ => store_made k _ _ _

end

theorem quadrant0_made (hk : cf3 i = 1 ∨ cf3 i = 5 → k.fs = true) : Acts D k (quadrant0 i) := by
  unfold quadrant0
  split
  · split
    · exact cIllegal_made i
    · exact made_bind (getX_still _) fun sp => (setX_effect _ _).made
  · next h => exact made_bind (fpEnter_still (hk (.inl h)) _) fun _ => cLoadF_made _ _ _
  · exact cLoad_made _ _ _ (by decide) _
  · exact cLoad_made _ _ _ (by decide) _
  · next h => exact made_bind (fpEnter_still (hk (.inr h)) _) fun _ => cStoreF_made _ _ _
  · exact cStore_made _ _ _ _
  · exact cStore_made _ _ _ _
  · exact cIllegal_made i

theorem quadrant1Alu_made : Acts D k (quadrant1Alu i) := by
  unfold quadrant1Alu
  split
  · exact made_ite skip_made (updX_made _ _)
  · exact made_ite skip_made (updX_made _ _)
  · exact updX_made _ _
  · split
    · split
      · exact updX2_made _ _ _
      · exact updX2_made _ _ _
      · exact cIllegal_made i
    · split <;> exact updX2_made _ _ _

theorem cBranch_made (onZero : Bool) : Acts D k (cBranch i onZero) := by
  refine made_bind (getX_still _) fun v => made_bind getPc_still fun pc => ?_
  split <;> exact (Effect.pure _).made

theorem quadrant1_made : Acts D k (quadrant1 i) := by
  unfold quadrant1
  split
  · exact thenFall_made (made_ite skip_made (updX_made _ _))
  · exact thenFall_made (made_ite (cIllegal_made i) (updX_made _ _))
  · exact thenFall_made (setX_effect _ _).made
  · refine thenFall_made ?_
    split
    · exact updX_made _ _
    split
    · exact (setX_effect _ _).made
    · exact skip_made
  · exact thenFall_made (quadrant1Alu_made i)
  · exact made_bind getPc_still fun pc => (Effect.pure _).made
  · exact cBranch_made i true
  · exact cBranch_made i false

theorem quadrant2Jump_made : Acts D k (quadrant2Jump i) := by
  unfold quadrant2Jump
  split
  · split
    · split
      · exact cIllegal_made i
      · exact made_bind (getX_still _) fun v => (Effect.pure _).made
    · refine thenFall_made ?_
      split
      · exact skip_made
      · exact made_bind (getX_still _) fun v => (setX_effect _ _).made
  split
  · split
    · exact made_of_still (getPc_still.bind fun pc => raiseTrap_still _ _)
    · exact made_bind getPc_still fun pc => made_bind (getX_still _) fun v =>
        ((setX_effect _ _).bind fun _ => .pure _).made
  · exact thenFall_made (made_ite skip_made (updX2_made _ _ _))

theorem quadrant2_made : Acts D k (quadrant2 i) := by
  unfold quadrant2
  split
  · exact thenFall_made (made_ite skip_made (updX_made _ _))
  · exact thenFall_made (made_ite skip_made (cLoadF_made _ _ _))
  · exact thenFall_made (made_ite (cIllegal_made i) (cLoad_made _ _ _ (by decide) _))
  · exact thenFall_made (made_ite (cIllegal_made i) (cLoad_made _ _ _ (by decide) _))
  · exact quadrant2Jump_made i
  · exact thenFall_made (made_ite skip_made (cStoreF_made _ _ _))
  · exact thenFall_made (cStore_made _ _ _ _)
  · exact thenFall_made (cStore_made _ _ _ _)

end Compressed

theorem riscvExecC_made (i : BitVec 16) :
    Made (StillMove (execCSlack i)) PlainMove (riscvExecC i : RvM D (BitVec 64)) := by
  unfold riscvExecC
  split
  · next h =>
    refine thenFall_made (quadrant0_made i fun hf => ?_)
    simpa [execCSlack, h] using hf
  · exact quadrant1_made i
  · exact quadrant2_made i

/-! ### The step -/

def Insn.slack : Insn → Slack
  | .compressed i => execCSlack i
  | .full i => execSlack i

def Insn.isCsr : Insn → Bool
  | .compressed _ => false
  | .full i => isCsrInst i

theorem execute_plain (fp : FpBackend) {insn : Insn} (h : insn.isCsr = false) :
    Made (StillMove insn.slack) PlainMove (execute fp insn : RvM D (BitVec 64)) := by
  cases insn with
  | compressed i => exact riscvExecC_made i
  | full i => exact riscvExecInstAt_plain fp 4 h

theorem execute_made (fp : FpBackend) (insn : Insn) :
    Made (StillMove insn.slack) Move (execute fp insn : RvM D (BitVec 64)) := by
  cases insn with
  | compressed i =>
    exact (riscvExecC_made i).mono (.mono fun _ _ => PlainMove.weaken) fun _ _ h => h
  | full i => exact riscvExecInstAt_made fp 4 i

theorem fetch_still (k : Slack) : Rests D k fetch := by
  refine get.bind fun m => ?_
  simp only
  split
  · refine (riscvMemLoad_still k _ (by decide) _).bind fun v => ?_
    split <;> exact .pure _
  · refine (riscvMemLoad_still k _ (by decide) _).bind fun v => ?_
    split
    · exact .pure _
    · exact (riscvMemLoad_still k _ (by decide) _).bind fun v => .pure _

theorem fetchChecked_still (k : Slack) : Rests D k fetchChecked := by
  refine get.bind fun m => ?_
  simp only
  split
  · exact raiseTrap_still _ _
  split
  · exact raiseTrap_still _ _
  · exact (fetch_still k).bind fun insn => (riscvTriggerCheck_still k _ _).bind fun _ => .pure _

theorem commit_made (fp : FpBackend) (insn : Insn) :
    Made (StillMove insn.slack) Move (commit fp insn : RvM D Unit) :=
  bind_made (fun _ _ => StillMove.weaken) (.modify fun m => .zero m) fun _ =>
    (execute_made fp insn).bind_effect fun _ => .modify fun _ => .outside rfl

def FetchSlack (m : Machine D) (k : Slack) : Prop :=
  k = ⟨false, false⟩ ∨ ∃ insn m', fetchChecked m = .ok insn m' ∧ k = insn.slack

variable {fp : FpBackend} {m m' : Machine D}

theorem stepInsn_raise {t : TrapRec} (h : stepInsn fp m = .raise t m') :
    ∃ k, FetchSlack m k ∧ ReflTransGen (StillMove k) m m' := by
  obtain hf | ⟨insn, m1, hf, h⟩ := bind_eq_raise h
  · exact ⟨_, .inl rfl, (fetchChecked_still _).of_raise hf⟩
  · refine ⟨insn.slack, .inr ⟨insn, m1, hf, rfl⟩, ?_⟩
    exact ((fetchChecked_still _).of_ok hf).trans ((commit_made fp insn).of_raise h)

theorem stepInsn_moves {u : Unit} (h : stepInsn fp m = .ok u m') : ReflTransGen Move m m' := by
  obtain ⟨insn, m1, hf, h⟩ := bind_eq_ok h
  have hfetch := (fetchChecked_still insn.slack).of_ok hf
  exact (ReflTransGen.mono (fun _ _ => StillMove.weaken) _ _ hfetch).trans
    ((commit_made fp insn).of_ok h)

theorem runInsn_moves (h : runInsn fp m = some m') : ReflTransGen Move m m' := by
  unfold runInsn at h
  split at h
  · next hok =>
    cases h
    exact stepInsn_moves hok
  · next t m1 hraise =>
    cases h
    obtain ⟨k, -, hrun⟩ := stepInsn_raise hraise
    exact (ReflTransGen.mono (fun _ _ => StillMove.weaken) _ _ hrun).tail (.trap m1 t)
  · cases h

theorem riscvSyncTimer_rs (m : Machine D) : (riscvSyncTimer m).rs = m.rs := by
  unfold riscvSyncTimer
  split
  · split <;> rfl
  · rfl

theorem stepPrologue_moves (m : Machine D) : ReflTransGen Move m (stepPrologue m).2 := by
  have htimer : ReflTransGen Move m (if atBoundary m then riscvSyncTimer m else m) := by
    split
    · exact .single (.outside (riscvSyncTimer_rs m))
    · exact .refl
  have hwake : ∀ m : Machine D, ReflTransGen Move m
      (if m.cpu.wait then m.setWait false else m) := by
    intro m
    split
    · exact .single (.outside rfl)
    · exact .refl
  simp only [stepPrologue]
  generalize (if atBoundary m then riscvSyncTimer m else m) = m1 at htimer ⊢
  split
  · exact htimer
  refine htimer.trans ?_
  split
  · exact (hwake m1).tail (.interrupt _)
  · exact hwake m1

theorem riscvStep_moves (h : riscvStep fp m = some m') : ReflTransGen Move m m' := by
  have hpro := stepPrologue_moves m
  unfold riscvStep at h
  split at h
  · next hp =>
    cases h
    rwa [hp] at hpro
  · next m1 hp =>
    rw [hp] at hpro
    obtain ⟨m2, hrun, rfl⟩ := Option.map_eq_some_iff.mp h
    exact hpro.trans ((runInsn_moves hrun).tail (.tick m2))

end Cemu.Rv64
