import Cemu.X86.IrqBoard

/-!
# What the guest's accesses to the Local APIC page can change

`lapic_confined_iff` says of every run of reads and writes of the page that each indexes the
register array inside its bounds, touches the vector sets, the timer, the line level and the
callbacks only at the five offsets that are meant to, and makes a vector pending only by
`LapicDeliver`, exactly when no access is at an aligned offset from `0x400` up: the page
decodes 256 slots and the array has 64.

`Heard` is what carries the EOI case, where the I/O APIC re-enters the Local APIC: between two
boards, every vector that became pending is in the history of deliveries.
-/

namespace Cemu.X86

inductive LapicAccess where
  | read (off : Fin 0x1000) (now : Int)
  | write (off : Fin 0x1000) (val : BitVec 32) (now : Int)
  deriving DecidableEq, Repr

namespace LapicAccess

def event : LapicAccess → IrqEvent
  | read off now => .lapicRead off now
  | write off val now => .lapicWrite off val now

def off : LapicAccess → Fin 0x1000
  | read off _ => off
  | write off _ _ => off

def regIndex : LapicAccess → Option Nat
  | read off _ =>
    if off.val % 16 ≠ 0 ∨ (kLapicIsr ≤ off.val ∧ off.val < kLapicIrr + 0x20) then none
    else if off.val = kLapicVersion ∨ off.val = kLapicPpr ∨ off.val = kLapicTimerCurrent then none
    else some (off.val / 16)
  | write off _ _ =>
    if off.val % 16 ≠ 0 then none
    else if off.val = kLapicEoi ∨ off.val = kLapicPpr ∨ off.val = kLapicTimerCurrent then none
    else some (off.val / 16)

def Active : LapicAccess → Prop
  | read _ _ => False
  | write off _ _ =>
    off.val = kLapicEoi ∨ off.val = kLapicTpr ∨ off.val = kLapicSvr ∨
      off.val = kLapicTimerInitial ∨ off.val = kLapicTimerDivide

end LapicAccess

/-- The device apart from its register array: the vector sets, the timer, the line level and
the installed callbacks. -/
structure SameInside (d d' : LapicDevice) : Prop where
  irr : d'.irr = d.irr
  isr : d'.isr = d.isr
  tmr : d'.tmr = d.tmr
  timerBaseUs : d'.timerBaseUs = d.timerBaseUs
  timerCount : d'.timerCount = d.timerCount
  irqLevel : d'.irqLevel = d.irqLevel
  setIrq : d'.setIrq = d.setIrq
  eoi : d'.eoi = d.eoi

def Heard (b b' : IrqBoard) : Prop :=
  ∃ new, b'.delivered = new ++ b.delivered ∧
    ∀ v, b'.lapic.irr.getLsbD v → b.lapic.irr.getLsbD v ∨ v ∈ new

structure Confined (b : IrqBoard) (a : LapicAccess) (b' : IrqBoard) : Prop where
  inArray : ∀ i, a.regIndex = some i → i < 0x40
  frame : ¬ a.Active → SameInside b.lapic b'.lapic
  heard : Heard b b'

def RunConfined : IrqBoard → List LapicAccess → Prop
  | _, [] => True
  | b, a :: as => ∃ b', irqStep b a.event = some b' ∧ Confined b a b' ∧ RunConfined b' as

/-! ## Deliveries -/

namespace Heard

theorem refl (b : IrqBoard) : Heard b b := ⟨[], rfl, fun _ h => .inl h⟩

theorem trans {b1 b2 b3 : IrqBoard} (h1 : Heard b1 b2) (h2 : Heard b2 b3) : Heard b1 b3 := by
  obtain ⟨new1, hd1, hp1⟩ := h1
  obtain ⟨new2, hd2, hp2⟩ := h2
  refine ⟨new2 ++ new1, by rw [hd2, hd1, List.append_assoc], fun v hv => ?_⟩
  rcases hp2 v hv with h | h
  · exact (hp1 v h).imp_right (List.mem_append_right _)
  · exact .inr (List.mem_append_left _ h)

theorem of_quiet {b b' : IrqBoard} (hd : b'.delivered = b.delivered)
    (hi : b'.lapic.irr = b.lapic.irr) : Heard b b' :=
  ⟨[], hd, fun _ h => .inl (hi ▸ h)⟩

end Heard

theorem callSetIrq_lapic (sink : Option IrqSink) (b : IrqBoard) (level : Bool) :
    (callSetIrq sink b level).lapic = b.lapic := by
  rcases sink with _ | _ | _ <;> rfl

theorem callSetIrq_delivered (sink : Option IrqSink) (b : IrqBoard) (level : Bool) :
    (callSetIrq sink b level).delivered = b.delivered := by
  rcases sink with _ | _ | _ <;> rfl

section

variable (b : IrqBoard)

theorem heard_lapicUpdateIrq : Heard b (lapicUpdateIrq b) := by
  unfold lapicUpdateIrq
  dsimp only
  split
  · exact .refl b
  · exact .of_quiet (by rw [callSetIrq_delivered]) (by rw [callSetIrq_lapic])

theorem heard_lapicDeliver (vector : Nat) (levelTriggered : Bool) :
    Heard b (lapicDeliver b vector levelTriggered) := by
  unfold lapicDeliver
  split
  · exact .refl b
  refine .trans ⟨[vector], rfl, fun v hv => ?_⟩ (heard_lapicUpdateIrq _)
  simp only [vectorSet, BitVec.getLsbD_or, Bool.or_eq_true, BitVec.getLsbD_shiftLeft,
    BitVec.getLsbD_one, Bool.and_eq_true, decide_eq_true_eq, Bool.not_eq_true',
    decide_eq_false_iff_not] at hv
  rcases hv with h | ⟨⟨-, hge⟩, -, hsub⟩
  · exact .inl h
  · exact .inr (List.mem_singleton.mpr (by omega))

theorem keptByIoapic_heard (b0 : IrqBoard) : KeptByIoapic (Heard b0) where
  ioapic _ _ h := h.trans (.of_quiet rfl rfl)
  nmi _ h := h.trans (.of_quiet rfl rfl)
  deliver b vector trigger h := h.trans (heard_lapicDeliver b vector trigger)

theorem heard_lapicRetire (vec : Nat) : Heard b (lapicRetire b vec) := by
  have hclear : Heard b { b with lapic := { b.lapic with isr := vectorClear b.lapic.isr vec } } :=
    .of_quiet rfl rfl
  unfold lapicRetire
  split
  · split
    · exact (keptByIoapic_heard b).ioapicEoi vec hclear
    · exact hclear
  · exact hclear

theorem heard_lapicEoi : Heard b (lapicEoi b) := by
  unfold lapicEoi
  split
  · exact .refl b
  · exact (heard_lapicRetire b _).trans (heard_lapicUpdateIrq _)

theorem heard_setReg (off : Nat) (v : BitVec 32) : Heard b (b.setReg off v) := .of_quiet rfl rfl

/-! ## One access -/

theorem lapicWrite_inside (off : Fin 0x1000) (v : BitVec 32) (now : Int)
    (hoff : off.val % 16 ≠ 0 ∨ off.val < 0x400) :
    ∃ b', lapicWrite b off v now = some b' ∧ Heard b b' ∧
      (¬ (LapicAccess.write off v now).Active → SameInside b.lapic b'.lapic) := by
  have same : SameInside b.lapic b.lapic := ⟨rfl, rfl, rfl, rfl, rfl, rfl, rfl, rfl⟩
  unfold lapicWrite
  by_cases hal : off.val % 16 ≠ 0
  · exact ⟨b, by rw [if_pos hal], Heard.refl b, fun _ => same⟩
  have hlt : off.val / 16 < 0x40 := by omega
  rw [if_neg hal]
  split
  · exact ⟨_, rfl, heard_lapicEoi b, fun h => absurd (Or.inl ‹_›) h⟩
  split
  · exact ⟨_, rfl, (heard_setReg b _ _).trans (heard_lapicUpdateIrq _),
      fun h => absurd (Or.inr (.inl ‹_›)) h⟩
  split
  · exact ⟨_, rfl, (heard_setReg b _ _).trans (heard_lapicUpdateIrq _),
      fun h => absurd (Or.inr (.inr (.inl ‹_›))) h⟩
  split
  · exact ⟨b, rfl, Heard.refl b, fun _ => same⟩
  split
  · exact ⟨_, rfl, heard_setReg b _ _, fun _ => ⟨rfl, rfl, rfl, rfl, rfl, rfl, rfl, rfl⟩⟩
  split
  · exact ⟨_, rfl, .of_quiet rfl rfl, fun h => absurd (Or.inr (.inr (.inr (.inl ‹_›)))) h⟩
  split
  · refine ⟨_, rfl, ?_, fun h => absurd (Or.inr (.inr (.inr (.inr ‹_›)))) h⟩
    split
    · exact .of_quiet rfl rfl
    · exact heard_setReg b _ _
  · rw [LapicDevice.storeSlot, if_pos hlt]
    exact ⟨_, rfl, .of_quiet rfl rfl, fun _ => ⟨rfl, rfl, rfl, rfl, rfl, rfl, rfl, rfl⟩⟩

theorem lapicRead_inside (d : LapicDevice) (off : Fin 0x1000) (now : Int)
    (hoff : off.val % 16 ≠ 0 ∨ off.val < 0x400) : (lapicRead d off now).isSome := by
  unfold lapicRead
  by_cases hal : off.val % 16 ≠ 0
  · rw [if_pos hal]
    rfl
  have hlt : off.val / 16 < 0x40 := by omega
  rw [if_neg hal]
  simp only [LapicDevice.loadSlot]
  repeat' split
  all_goals rfl

theorem regIndex_lt_iff (a : LapicAccess) :
    (∀ i, a.regIndex = some i → i < 0x40) ↔ a.off.val % 16 ≠ 0 ∨ a.off.val < 0x400 := by
  constructor
  · intro h
    by_contra hbad
    have hbad' : a.off.val % 16 = 0 ∧ 0x400 ≤ a.off.val := by omega
    -- no special case of either switch is at or above 0x400
    have hidx : a.regIndex = some (a.off.val / 16) := by
      rcases a with ⟨off, now⟩ | ⟨off, v, now⟩ <;> simp only [LapicAccess.off] at hbad'
      · refine (if_neg ?_).trans (if_neg ?_) <;>
          simp only [kLapicIrr, kLapicVersion, kLapicPpr, kLapicTimerCurrent] <;> omega
      · refine (if_neg (by omega)).trans (if_neg ?_)
        simp only [kLapicEoi, kLapicPpr, kLapicTimerCurrent]
        omega
    have := h _ hidx
    omega
  · intro h i hi
    have hdiv : a.off.val % 16 = 0 ∧ i = a.off.val / 16 := by
      rcases a with ⟨off, now⟩ | ⟨off, v, now⟩ <;>
      · simp only [LapicAccess.regIndex, ite_eq_iff, reduceCtorEq, and_false, false_or,
          Option.some.injEq] at hi
        simp only [LapicAccess.off]
        omega
    omega

theorem confined_of_inside (a : LapicAccess) (ha : a.off.val % 16 ≠ 0 ∨ a.off.val < 0x400) :
    ∃ b', irqStep b a.event = some b' ∧ Confined b a b' := by
  have hidx := (regIndex_lt_iff a).mpr ha
  rcases a with ⟨off, now⟩ | ⟨off, v, now⟩
  · obtain ⟨r, hr⟩ := Option.isSome_iff_exists.mp (lapicRead_inside b.lapic off now ha)
    refine ⟨b, by simp only [LapicAccess.event, irqStep, hr, Option.map_some], hidx, fun _ => ?_,
      .refl b⟩
    exact ⟨rfl, rfl, rfl, rfl, rfl, rfl, rfl, rfl⟩
  · obtain ⟨b', hb', hheard, hsame⟩ := lapicWrite_inside b off v now ha
    exact ⟨b', hb', hidx, hsame, hheard⟩

/-! ## Runs -/

/-- The Local APIC is confined to its registers in exactly the runs that keep off the slots the
page decodes past the register array. -/
theorem lapic_confined_iff (accs : List LapicAccess) :
    RunConfined b accs ↔ ∀ a ∈ accs, a.off.val % 16 ≠ 0 ∨ a.off.val < 0x400 := by
  induction accs generalizing b with
  | nil => simp [RunConfined]
  | cons a as ih =>
    rw [List.forall_mem_cons]
    constructor
    · rintro ⟨b', -, hconf, hrun⟩
      exact ⟨(regIndex_lt_iff a).mp hconf.inArray, (ih b').mp hrun⟩
    · rintro ⟨ha, has⟩
      obtain ⟨b', hb', hconf⟩ := confined_of_inside b a ha
      exact ⟨b', hb', hconf, (ih b').mpr has⟩

end

/-- A store at offset `0x410`, which no register has, forms index `0x41` and puts vector 32 into
the request register of a fresh board without a delivery. -/
theorem lapic_slot_past_array :
    (LapicAccess.write 0x410 1 0).regIndex = some 0x41 ∧
      ((irqStep x86BoardCreate (LapicAccess.write 0x410 1 0).event).map fun b =>
        (b.lapic.irr.getLsbD 32, b.delivered)) = some (true, []) ∧
      x86BoardCreate.lapic.irr.getLsbD 32 = false := by
  decide +kernel

end Cemu.X86
