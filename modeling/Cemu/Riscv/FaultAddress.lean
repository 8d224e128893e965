import Cemu.Riscv.TranslateFault
import Cemu.Riscv32.Step
import Cemu.Riscv64.AmoFault

/-!
# The address a failed access reports

Every raise of the memory pipeline but one passes the virtual address as `tval`: a page-table entry
that PMP denies or the bus does not map raises with the physical address of the entry. So the trap
handler finds the virtual address in `mtval` or `stval` exactly when no such entry is met.
-/

namespace Cemu

open World RaiseM RadixWalk

inductive MemAccess where
  | load (acc : Rv64.Acc)
  | store (val : BitVec 64)

variable {D : Type}

def AtAddr (vaddr : BitVec 64) (t : Rv64.TrapRec) : Prop := t.tval = vaddr

section Stages

open Rv64 (TrigOp TrapRec Acc)
open Riscv Riscv.Walker

variable {σ α : Type}

namespace MemAccess

def acc : MemAccess → Acc
  | load acc => acc
  | store _ => .write

def trigger : MemAccess → Option TrigOp
  | load .ifetch => none
  | load _ => some .load
  | store _ => some .store

/-- The access made with the given functions, without what a load returns. -/
def run (load : Acc → RaiseM TrapRec σ (BitVec 64)) (store : BitVec 64 → RaiseM TrapRec σ Unit) :
    MemAccess → RaiseM TrapRec σ Unit
  | .load acc => do
    let _ ← load acc
    pure ()
  | .store val => store val

theorem run_raises {P : TrapRec → Prop} {load : Acc → RaiseM TrapRec σ (BitVec 64)}
    {store : BitVec 64 → RaiseM TrapRec σ Unit} (hload : ∀ acc, Raises P (load acc))
    (hstore : ∀ val, Raises P (store val)) (a : MemAccess) : Raises P (a.run load store) := by
  cases a with
  | load acc => exact (hload acc).bind fun _ => .pure _
  | store val => exact hstore val

end MemAccess

theorem hostOr_raises {P : TrapRec → Prop} {c : Prop} [Decidable c]
    {near : HostPtr → RaiseM TrapRec σ α} {next : RaiseM TrapRec σ α}
    (hnear : ∀ h, Raises P (near h)) (hnext : Raises P next) (host : Option HostPtr) :
    Raises P (match host with
      | some h => if c then near h else next
      | none => next) := by
  split
  · split
    · exact hnear _
    · exact hnext
  · exact hnext

/-- The stages of an access: its trigger, its translation, and the bytes. -/
def staged (check : TrigOp → RaiseM TrapRec σ Unit) (op : Option TrigOp)
    (translate : RaiseM TrapRec σ α)
    (finish : α → RaiseM TrapRec σ Unit) : RaiseM TrapRec σ Unit := do
  match op with
  | some o => check o
  | none => pure ()
  let place ← translate
  finish place

section

variable {fired : TrigOp → Option (BitVec 64)} {fire : BitVec 64 → RaiseM TrapRec σ Unit}
  {check : TrigOp → RaiseM TrapRec σ Unit} {op : Option TrigOp} {vaddr : BitVec 64} {m : σ}
  {translate : RaiseM TrapRec σ (BitVec 64 × Option HostPtr)}
  {finish : BitVec 64 × Option HostPtr → RaiseM TrapRec σ Unit} {n : Nat} {W : Walker n}
  {bare : Bool} {hit : Option (BitVec 64 × Option HostPtr)} {allowed : BitVec 64 → Bool}
  {host : World D → BitVec 64 → Option HostPtr} {setWorld : World D → σ}
  {fill : World D → BitVec 64 → σ} {w : World D}

theorem staged_quiet (hcheck : ∀ o, check o m = match fired o with
      | some t₁ => fire t₁ m
      | none => .ok () m) (hquiet : ∀ o ∈ op, fired o = none) :
    staged check op translate finish m = (translate >>= finish) m := by
  cases op with
  | none => rfl
  | some o =>
    change (check o >>= fun _ => translate >>= finish) m = _
    rw [bind_apply, hcheck, hquiet o rfl, Outcome.bind_ok]

theorem staged_fired (hcheck : ∀ o, check o m = match fired o with
      | some t₁ => fire t₁ m
      | none => .ok () m)
    (hfire : ∀ t₁, fire t₁ = fatal ∨ ∃ e, AtAddr vaddr e ∧ fire t₁ = raise e)
    (hop : ¬∀ o ∈ op, fired o = none) {t : TrapRec} {m' : σ}
    (hrun : staged check op translate finish m = .raise t m') : AtAddr vaddr t := by
  push Not at hop
  obtain ⟨o, rfl, hne⟩ := hop
  obtain ⟨t₁, ht₁⟩ := Option.ne_none_iff_exists'.mp hne
  change (check o >>= fun _ => translate >>= finish) m = _ at hrun
  rw [bind_apply, hcheck, ht₁] at hrun
  dsimp only at hrun
  obtain hstop | ⟨e, he, hstop⟩ := hfire t₁
  · rw [hstop] at hrun
    cases hrun
  · rw [hstop] at hrun
    cases hrun
    exact he

/-- The address is reported exactly if the walk is refused no entry elsewhere: nothing else raises
at another address. `report` is what a trap makes of an address. -/
theorem staged_tval_iff (op : Option TrigOp) (report : BitVec 64 → BitVec 64)
    (hreport : report W.vaddr = report vaddr) (hcheck : ∀ o, check o m = match fired o with
      | some t₁ => fire t₁ m
      | none => .ok () m)
    (hfire : ∀ t₁, fire t₁ = fatal ∨ ∃ e, AtAddr vaddr e ∧ fire t₁ = raise e)
    (htranslate : translate m = W.translate bare hit allowed host setWorld fill m w)
    (hfinish : ∀ place, Raises (AtAddr vaddr) (finish place)) :
    (∀ t m', staged check op translate finish m = .raise t m' → report t.tval = report vaddr) ↔
      ∀ a, (∀ o ∈ op, fired o = none) → bare = false → hit = none → W.canonical = true →
        (∃ w', W.tables w = .refused a w') → report a = report vaddr := by
  constructor
  · rintro h a hop rfl rfl hcan ⟨w', hrefused⟩
    have hraise := htranslate.trans (W.translate_of_run (run_of_refused hcan hrefused))
    exact h _ _ ((staged_quiet hcheck hop).trans (bind_of_raise hraise _))
  · intro h t m' hrun
    by_cases hop : ∀ o ∈ op, fired o = none
    swap
    · exact congrArg report (staged_fired hcheck hfire hop hrun)
    rw [staged_quiet hcheck hop] at hrun
    obtain htrans | ⟨place, m₁, -, hlast⟩ := bind_eq_raise hrun
    swap
    · exact congrArg report (hfinish place _ _ _ hlast)
    rw [htranslate] at htrans
    obtain ⟨p, rfl⟩ | ⟨hbare, hmiss, w', hwalk, -⟩ := W.translate_raise htrans
    · exact hreport
    obtain ⟨a, hcan, hrefused, rfl⟩ | ⟨htval, -⟩ | ⟨rfl, -⟩ := run_raise hwalk
    · exact h a hop hbare hmiss hcan ⟨w', hrefused⟩
    · exact (congrArg report htval).trans hreport
    · exact hreport

end

end Stages

theorem Rv64.loadVia_atAddr (vaddr : BitVec 64) (size : Nat) (acc : Acc) (paddr : BitVec 64) :
    Raises (AtAddr vaddr) (loadVia vaddr size acc paddr : WorldM D _) := by
  refine .bind (fun w t w' h => by cases h) fun r => ?_
  split
  · exact .raise rfl
  · intro w t w' h
    rw [busRead] at h
    split at h <;> cases h

theorem Rv64.storeVia_atAddr (vaddr : BitVec 64) (size : Nat) (val paddr : BitVec 64) :
    Raises (AtAddr vaddr) (storeVia vaddr size val paddr : WorldM D _) := by
  refine .bind (fun w t w' h => by cases h) fun r => ?_
  split
  · exact .raise rfl
  · intro w t w' h
    rw [busWrite] at h
    split at h <;> cases h

namespace Rv64

def runAccess (a : MemAccess) (vaddr : BitVec 64) (size : Nat) : RvM D Unit :=
  a.run (riscvMemLoad vaddr size) (riscvMemStore vaddr size)

theorem runAccess_eq (a : MemAccess) (vaddr : BitVec 64) (size : Nat) :
    (runAccess a vaddr size : RvM D Unit) = staged (riscvTriggerCheck · vaddr) a.trigger
      (riscvTranslate vaddr size a.acc) fun place =>
        a.run (loadAt vaddr size · place.1 place.2) (storeAt vaddr size · place.1 place.2) := by
  cases a with
  | load acc => cases acc <;> simp [runAccess, MemAccess.run, staged, riscvMemLoad,
      MemAccess.trigger, MemAccess.acc]
  | store val => simp [runAccess, MemAccess.run, staged, riscvMemStore, MemAccess.trigger,
      MemAccess.acc]

theorem riscvTriggerCheck_eq (op : TrigOp) (vaddr : BitVec 64) (m : Machine D) :
    riscvTriggerCheck op vaddr m = match firedTrigger m.rs op vaddr with
      | some t1 => fire t1 vaddr m
      | none => .ok () m := by
  simp only [riscvTriggerCheck, bind_apply, get_apply, Outcome.bind_ok]
  cases firedTrigger m.rs op vaddr <;> rfl

theorem fire_stops (vaddr t1 : BitVec 64) :
    (fire t1 vaddr : RvM D Unit) = fatal ∨
      ∃ e, AtAddr vaddr e ∧ (fire t1 vaddr : RvM D Unit) = raise e := by
  unfold fire
  split
  · exact .inl rfl
  · exact .inr ⟨⟨_, vaddr, _⟩, rfl, rfl⟩

/-- No trigger stops the access, the TLB does not know the address, and the walk is refused the
entry at `pteAddr`. -/
structure RefusedEntry (m : Machine D) (op : Option TrigOp) (vaddr : BitVec 64) (acc : Acc)
    (pteAddr : BitVec 64) : Prop where
  quiet : ∀ o ∈ op, firedTrigger m.rs o vaddr = none
  paged : isBare m.rs acc = false
  missed : tlbLookup m.rs vaddr acc = none
  canonical : isCanonical m.rs vaddr = true
  refused : ∃ w, (walker m.rs vaddr acc).tables m.w = .refused pteAddr w

theorem access_finish_atAddr (a : MemAccess) (vaddr : BitVec 64) (size : Nat)
    (place : BitVec 64 × Option HostPtr) :
    Raises (AtAddr vaddr)
      (a.run (loadAt vaddr size · place.1 place.2) (storeAt vaddr size · place.1 place.2) :
        RvM D Unit) := by
  refine MemAccess.run_raises (fun acc => Raises.get.bind fun m => ?_)
    (fun val => Raises.get.bind fun m => ?_) a
  · exact hostOr_raises (fun _ => .pure _)
      (onWorld_raises fun _ => loadVia_atAddr vaddr size acc _) _
  · exact hostOr_raises (fun _ => .modify _)
      (onWorld_raises fun _ => storeVia_atAddr vaddr size val _) _

def xtval (s : RiscvState) : BitVec 64 := if s.priv = kPrivMachine then s.mtval else s.stval

theorem xtval_landingPad (t : TrapRec) (m : Machine D) : xtval (landingPad t m).rs = t.tval := by
  simp only [landingPad, riscvTrap]
  split <;> rfl

/-- The trap an access raises is delivered with the virtual address in `xtval`. -/
def DeliversVaddr (m : Machine D) (a : MemAccess) (vaddr : BitVec 64) (size : Nat) : Prop :=
  ∀ t m', runAccess a vaddr size m = .raise t m' → xtval (landingPad t m').rs = vaddr

theorem deliversVaddr_iff (m : Machine D) (a : MemAccess) (vaddr : BitVec 64) (size : Nat) :
    DeliversVaddr m a vaddr size ↔
      ∀ pteAddr, RefusedEntry m a.trigger vaddr a.acc pteAddr → pteAddr = vaddr := by
  have hstages := staged_tval_iff (W := walker m.rs vaddr a.acc) a.trigger id rfl
    (fun o => riscvTriggerCheck_eq o vaddr m) (fire_stops vaddr)
    (riscvTranslate_eq vaddr a.acc size m) (access_finish_atAddr a vaddr size)
  simp only [DeliversVaddr, xtval_landingPad, runAccess_eq]
  refine hstages.trans (forall_congr' fun pteAddr => ⟨fun h hr => ?_, fun h hq hp hm hc hw => ?_⟩)
  · exact h hr.quiet hr.paged (Option.map_eq_none_iff.mpr hr.missed) hr.canonical hr.refused
  · exact h ⟨hq, hp, Option.map_eq_none_iff.mp hm, hc, hw⟩

end Rv64

namespace Rv32

open Rv64 (Acc TrigOp TrapRec WorldM kPrivMachine loadVia_atAddr storeVia_atAddr)

theorem low_low (v : BitVec 64) : low (low v) = low v := by
  rw [low, low, BitVec.and_assoc, BitVec.and_self]

theorem onWorld_raises {α : Type} {P : TrapRec → Prop} {c : Riscv32State → WorldM D α}
    (h : ∀ s, Raises P (c s)) : Raises P (onWorld c) := by
  intro m t m' hm
  rw [onWorld_apply] at hm
  cases hc : c m.rs m.w with
  | ok a w => rw [hc] at hm; cases hm
  | raise t' w =>
    rw [hc] at hm
    cases hm
    exact h m.rs m.w t w hc
  | fatal => rw [hc] at hm; cases hm

def runAccess (a : MemAccess) (vaddr : BitVec 64) (size : Nat) : RvM D Unit :=
  a.run (riscv32MemLoad vaddr size) (riscv32MemStore vaddr size)

theorem runAccess_eq (a : MemAccess) (vaddr : BitVec 64) (size : Nat) :
    (runAccess a vaddr size : RvM D Unit) = staged (riscv32TriggerCheck · vaddr) a.trigger
      (riscv32Translate vaddr size a.acc) fun place =>
        a.run (loadAt vaddr size · place.1 place.2) (storeAt vaddr size · place.1 place.2) := by
  cases a with
  | load acc => cases acc <;> simp [runAccess, MemAccess.run, staged, riscv32MemLoad,
      MemAccess.trigger, MemAccess.acc]
  | store val => simp [runAccess, MemAccess.run, staged, riscv32MemStore, MemAccess.trigger,
      MemAccess.acc]

theorem fire_stops (vaddr t1 : BitVec 64) :
    (fire t1 vaddr : RvM D Unit) = fatal ∨
      ∃ e, AtAddr vaddr e ∧ (fire t1 vaddr : RvM D Unit) = raise e := by
  unfold fire
  split
  · exact .inl rfl
  · exact .inr ⟨⟨_, vaddr, _⟩, rfl, rfl⟩

/-- No trigger stops the access, the TLB does not know the address, and the walk is refused the
entry at `pteAddr`. -/
structure RefusedEntry (m : Machine D) (op : Option TrigOp) (vaddr : BitVec 64) (acc : Acc)
    (pteAddr : BitVec 64) : Prop where
  quiet : ∀ o ∈ op, firedTrigger m.rs o vaddr = none
  paged : isBare m.rs acc = false
  missed : tlbLookup m.rs (low vaddr) acc = none
  refused : ∃ w, (walker m.rs (low vaddr) acc).tables m.w = .refused pteAddr w

theorem access_finish_atAddr (a : MemAccess) (vaddr : BitVec 64) (size : Nat)
    (place : BitVec 64 × Option HostPtr) :
    Raises (AtAddr vaddr)
      (a.run (loadAt vaddr size · place.1 place.2) (storeAt vaddr size · place.1 place.2) :
        RvM D Unit) := by
  refine MemAccess.run_raises (fun acc => Raises.get.bind fun m => ?_)
    (fun val => Raises.get.bind fun m => ?_) a
  · exact hostOr_raises (fun _ => .pure _)
      (onWorld_raises fun _ => loadVia_atAddr vaddr size acc _) _
  · exact hostOr_raises (fun _ => .modify _)
      (onWorld_raises fun _ => storeVia_atAddr vaddr size val _) _

def xtval (s : Riscv32State) : BitVec 64 := if s.priv = kPrivMachine then s.mtval else s.stval

theorem xtval_landingPad (t : TrapRec) (m : Machine D) :
    xtval (landingPad t m).rs = low t.tval := by
  simp only [landingPad, riscv32Trap]
  split <;> rfl

/-- The trap an access raises is delivered with the 32-bit virtual address in `xtval`. -/
def DeliversVaddr (m : Machine D) (a : MemAccess) (vaddr : BitVec 64) (size : Nat) : Prop :=
  ∀ t m', runAccess a vaddr size m = .raise t m' → xtval (landingPad t m').rs = low vaddr

theorem deliversVaddr_iff (m : Machine D) (a : MemAccess) (vaddr : BitVec 64) (size : Nat) :
    DeliversVaddr m a vaddr size ↔
      ∀ pteAddr, RefusedEntry m a.trigger vaddr a.acc pteAddr → low pteAddr = low vaddr := by
  have hstages := staged_tval_iff (W := walker m.rs (low vaddr) a.acc) a.trigger low
    (low_low vaddr) (fun o => riscv32TriggerCheck_apply o vaddr m) (fire_stops vaddr)
    (riscv32Translate_eq vaddr size a.acc m) (access_finish_atAddr a vaddr size)
  simp only [DeliversVaddr, xtval_landingPad, runAccess_eq]
  refine hstages.trans (forall_congr' fun pteAddr => ⟨fun h hr => ?_, fun h hq hp hm hc hw => ?_⟩)
  · exact h hr.quiet hr.paged (Option.map_eq_none_iff.mpr hr.missed) rfl hr.refused
  · exact h ⟨hq, hp, Option.map_eq_none_iff.mp hm, hw⟩

end Rv32

/-- On both machines an access that fails is delivered with its virtual address exactly when no
page-table entry elsewhere was refused to the walk. -/
theorem access_xtval_iff :
    (∀ (m : Rv64.Machine D) (a : MemAccess) (vaddr : BitVec 64) (size : Nat),
      Rv64.DeliversVaddr m a vaddr size ↔
        ∀ pteAddr, Rv64.RefusedEntry m a.trigger vaddr a.acc pteAddr → pteAddr = vaddr) ∧
    (∀ (m : Rv32.Machine D) (a : MemAccess) (vaddr : BitVec 64) (size : Nat),
      Rv32.DeliversVaddr m a vaddr size ↔
        ∀ pteAddr, Rv32.RefusedEntry m a.trigger vaddr a.acc pteAddr →
          Rv32.low pteAddr = Rv32.low vaddr) :=
  ⟨Rv64.deliversVaddr_iff, Rv32.deliversVaddr_iff⟩

/-- Paging is on with the root table at address zero, where the board maps nothing. -/
def Rv64.rootlessMachine : Rv64.Machine Unit :=
  (Machine.init (World.dram fun _ => 0) 0x80000000).setRs
    { riscvInit with priv := kPrivSupervisor, satp := kSatpModeSv39 <<< 60 }

def Rv32.rootlessMachine : Rv32.Machine Unit :=
  (Machine.init (World.dram fun _ => 0) 0x80000000).setRs
    { riscv32Init with priv := Rv64.kPrivSupervisor, satp := 0x80000000 }

/-- The handler of a load from `0x80000123` finds the address of the root entry in `mtval`. -/
theorem rootlessMachine_delivers_pteAddr :
    ¬ Rv64.DeliversVaddr Rv64.rootlessMachine (.load .read) 0x80000123 1 ∧
    ¬ Rv32.DeliversVaddr Rv32.rootlessMachine (.load .read) 0x80000123 1 := by
  constructor
  · intro h
    exact absurd (h ⟨Rv64.kExLoadFault, 0x10, some 0x10⟩ _ rfl) (by decide +kernel)
  · intro h
    exact absurd (h ⟨Rv64.kExLoadFault, 0x800, some 0x800⟩ _ rfl) (by decide +kernel)

end Cemu
