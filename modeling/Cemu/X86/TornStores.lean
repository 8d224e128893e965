import Cemu.X86.PageStores
import Cemu.X86.Stack

/-!
# x86: stores torn at a page boundary

A store translates a page right before it writes there. So a fault of a later page comes when the
bytes of the earlier pages are written. For every machine, in both memory modes, this says which
page fault leaves memory changed: the one of a translation that comes behind a write.
-/

namespace Cemu.X86

open RaiseM List X86State

variable {D : Type}

/-! ### The page faults of one store -/

/-- The translation for a write faults: the one through the cache, or with memory debugging on the
walk itself. -/
def PageFaults (lin : BitVec 64) (user : Bool) (m : Machine D) : Prop :=
  m.s.pg = true ∧ ∃ e m', if m.gMemSlow then walkPage lin true user false m = .raise e m'
    else tlbEntry lin true false user m = .raise e m'

/-- The first page of a store faults. The alignment check walks the page before it raises, so that
the page fault goes first. -/
def FirstFaults (lin : BitVec 64) (size : Nat) (user : Bool) (m : Machine D) : Prop :=
  if acRefused m.s lin size user false then
    m.s.pg = true ∧ ∃ e m', walkPage lin true user false m = .raise e m'
  else PageFaults lin user m

/-- The second page of a crossing store faults, in the machine `t` that the bytes written to the
first page leave. -/
structure SecondFaults (lin : BitVec 64) (size : Nat) (user : Bool) (v : BitVec 64)
    (m t : Machine D) : Prop where
  crosses : crosses lin size = true
  aligned : acRefused m.s lin size user false = false
  written : storeOne lin (firstPart lin) user (v &&& (1#64 <<< (firstPart lin * 8) - 1)) m =
    .ok () t
  faults : PageFaults (lin + .ofNat 64 (firstPart lin)) user t

section One

variable {P : (Nat → ByteMem) → Prop} {lin v : BitVec 64} {size : Nat} {user : Bool}
  {m t : Machine D}

theorem pageTranslateAs_apply (hpg : m.s.pg = true) (write fetch : Bool) :
    pageTranslateAs lin write user fetch m =
      (walkPage lin write user fetch >>= fun w => pure w.paddr) m := by
  show (if _ then _ else _ : X86M D (BitVec 64)) m = _
  rw [hpg]
  rfl

theorem PageFaults.storeOne (h : PageFaults lin user m) (size : Nat) (v : BitVec 64) :
    ∃ e m', storeOne lin size user v m = .raise e m' ∧ e.cause = vecPf := by
  obtain ⟨hpg, e, m', htranslate⟩ := h
  rw [storeOne_apply, hpg]
  split at htranslate
  · next hslow =>
    have hpage : pageTranslateAs lin true user false m = .raise e m' := by
      rw [pageTranslateAs_apply hpg]
      exact bind_of_raise htranslate _
    rw [hslow]
    exact ⟨e, m', bind_of_raise hpage _, PfOnly.walkPage _ _ _ htranslate⟩
  · next hfast =>
    rw [eq_false_of_ne_true hfast]
    exact ⟨e, m', bind_of_raise htranslate _, PfOnly.tlbEntry _ _ _ htranslate⟩

theorem FirstFaults.linStore (h : FirstFaults lin size user m) (v : BitVec 64) :
    ∃ e m', linStore lin size user v m = .raise e m' ∧ e.cause = vecPf ∧ m'.w.mem = m.w.mem := by
  unfold FirstFaults at h
  split at h
  · next hac =>
    obtain ⟨hpg, e, m', hwalk⟩ := h
    have hcheck : acCheckSlow lin size user false true m = .raise e m' := by
      rw [acCheckSlow_apply, hac, hpg]
      exact bind_of_raise hwalk _
    exact ⟨e, m', bind_of_raise hcheck _, PfOnly.walkPage _ _ _ hwalk,
      (LooksFirst.walkPage.raise hwalk).mem⟩
  · next hac =>
    unfold X86.linStore
    rw [bind_of_ok (acCheckSlow_of_aligned (eq_false_of_ne_true hac))]
    split
    · obtain ⟨e, m', hstore, he⟩ := h.storeOne (firstPart lin)
        (v &&& (1#64 <<< (firstPart lin * 8) - 1))
      exact ⟨e, m', bind_of_raise hstore _, he, (storeOne_raise hstore).2.mem⟩
    · obtain ⟨e, m', hstore, he⟩ := h.storeOne size v
      exact ⟨e, m', hstore, he, (storeOne_raise hstore).2.mem⟩

theorem SecondFaults.linStore (h : SecondFaults lin size user v m t) :
    ∃ e m', linStore lin size user v m = .raise e m' ∧ e.cause = vecPf ∧ m'.w.mem = t.w.mem := by
  obtain ⟨e, m', hstore, he⟩ := h.faults.storeOne (size - firstPart lin) (v >>> (firstPart lin * 8))
  refine ⟨e, m', ?_, he, (storeOne_raise hstore).2.mem⟩
  unfold X86.linStore
  rw [bind_of_ok (acCheckSlow_of_aligned h.aligned), h.crosses, if_pos rfl, bind_of_ok h.written]
  exact hstore

end One

/-! ### The stores of one instruction -/

section Several

variable {m : Machine D} {mem : Nat → ByteMem}

end Several

/-! ### PUSHA in one page -/

section Pusha

variable {vpn : BitVec 32} {mis w32 : Bool} {v : BitVec 32} {m m' : Machine D}

end Pusha

end Cemu.X86
