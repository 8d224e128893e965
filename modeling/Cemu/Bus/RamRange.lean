import Cemu.Bus.Lookup

/-!
# The host pointer of a guest range

`BusRamRange` looks for the smallest host-backed region whose wrapping test accepts the range.
In exact arithmetic the test accepts the regions that hold the range, and besides them, for a
range that reaches 2^64, regions it does not lie in at all. And a region without host memory is
never looked at. `RangeOwned` says which maps and ranges escape both.
-/

namespace Cemu

/-- The region has a byte of the range `[addr, addr + len)`, in exact arithmetic. -/
def BusRegion.HasByte (r : BusRegion) (addr len : BitVec 64) : Prop :=
  ∃ b : Nat, addr.toNat ≤ b ∧ b < addr.toNat + len.toNat ∧
    r.base.toNat ≤ b ∧ b < r.base.toNat + r.size.toNat

def BusRegion.ramCovers (r : BusRegion) (addr len : BitVec 64) : Bool :=
  r.host.isSome && r.covers addr len

def ramRangeRegion (bus : Bus) (addr len : BitVec 64) : Option (Nat × BusRegion) :=
  firstLeast (fun r => r.ramCovers addr len) (fun r => r.size.toNat) bus.regions

theorem busRamRange_eq (bus : Bus) (addr len : BitVec 64) :
    busRamRange bus addr len = (ramRangeRegion bus addr len).bind fun ir =>
        ir.2.host.map fun p => p.add (addr - ir.2.base) := by
  unfold busRamRange ramRangeRegion BusRegion.ramCovers
  cases firstLeast (fun r : BusRegion => r.host.isSome && r.covers addr len)
    (fun r => r.size.toNat) bus.regions <;> rfl

/-- The pointer is in the chosen region and the region has the range to itself: it holds the range,
the pointer is at the range's offset, and no smaller region has a byte of it. -/
def RangeSound (bus : Bus) (addr len : BitVec 64) : Prop :=
  ∀ h, busRamRange bus addr len = some h → ∃ i r p,
    ramRangeRegion bus addr len = some (i, r) ∧ r.host = some p ∧ h = p.add (addr - r.base) ∧
    r.Contains addr len ∧ ∀ o ∈ bus.regions, o.size < r.size → ¬o.HasByte addr len

/-- A host-backed region that holds the range and ends on the same side of 2^64 as the range. -/
structure BusRegion.RamHolds (r : BusRegion) (addr len : BitVec 64) : Prop where
  host : r.host.isSome = true
  contains : r.Contains addr len
  side : r.base.toNat + r.size.toNat < 2 ^ 64 ↔ addr.toNat + len.toNat < 2 ^ 64

/-- A host-backed region taken for a range it does not hold: the range reaches 2^64, the region
ends below, and the range's end less 2^64 is not behind the region's. -/
structure BusRegion.FalseHit (r : BusRegion) (addr len : BitVec 64) : Prop where
  host : r.host.isSome = true
  fits : r.base.toNat + r.size.toNat < 2 ^ 64
  wraps : 2 ^ 64 ≤ addr.toNat + len.toNat
  start : r.base.toNat ≤ addr.toNat
  stop : addr.toNat + len.toNat ≤ r.base.toNat + r.size.toNat + 2 ^ 64

/-- Once a host-backed region holds the range, every other region with a byte of it (a window
without host memory, or one that has a part of it only) is at least as large as such a region. -/
def WindowsLarger (bus : Bus) (addr len : BitVec 64) : Prop :=
  ∀ r ∈ bus.regions, r.RamHolds addr len → ∀ o ∈ bus.regions, ¬o.RamHolds addr len →
    o.HasByte addr len → ∃ r' ∈ bus.regions, r'.RamHolds addr len ∧ r'.size ≤ o.size

/-- Every false hit comes behind a region that holds the range: a smaller one, or one as large and
earlier in the table. And no window inside the range is smaller than its RAM. -/
structure RangeOwned (bus : Bus) (addr len : BitVec 64) : Prop where
  behind : ∀ (i : Nat) (r : BusRegion), bus.regions[i]? = some r → r.FalseHit addr len →
    ∃ (j : Nat) (r' : BusRegion), bus.regions[j]? = some r' ∧ r'.RamHolds addr len ∧
      (r'.size < r.size ∨ r'.size = r.size ∧ j < i)
  windows : WindowsLarger bus addr len

variable {bus : Bus} {addr len : BitVec 64} {r : BusRegion}

/-- The wrapping test in exact arithmetic. -/
theorem BusRegion.ramCovers_iff :
    r.ramCovers addr len = true ↔ r.RamHolds addr len ∨ r.FalseHit addr len := by
  have haddr := addr.isLt
  have hlen := len.isLt
  have hbase := r.base.isLt
  have hsize := r.size.isLt
  rw [ramCovers, Bool.and_eq_true, covers_eq_true, stop, BitVec.le_def, BitVec.le_def,
    BitVec.toNat_add, BitVec.toNat_add]
  constructor
  · rintro ⟨hhost, hstart, hstop⟩
    rcases Nat.lt_or_ge (addr.toNat + len.toNat) (2 ^ 64) with hfit | hwrap
    · refine .inl ⟨hhost, ⟨hstart, ?_⟩, iff_of_true ?_ hfit⟩ <;> omega
    rcases Nat.lt_or_ge (r.base.toNat + r.size.toNat) (2 ^ 64) with hfits | hpast
    · exact .inr ⟨hhost, hfits, hwrap, hstart, by omega⟩
    · exact .inl ⟨hhost, ⟨hstart, by omega⟩, iff_of_false (by omega) (by omega)⟩
  · rintro (⟨hhost, ⟨hstart, hstop⟩, hside⟩ | ⟨hhost, hfits, hwrap, hstart, hstop⟩)
    · refine ⟨hhost, hstart, ?_⟩
      omega
    · refine ⟨hhost, hstart, ?_⟩
      omega

theorem BusRegion.FalseHit.not_contains (h : r.FalseHit addr len) : ¬r.Contains addr len := by
  have hfits := h.fits
  have hwraps := h.wraps
  intro hin
  have hstop := hin.2
  omega

theorem BusRegion.ramHolds_of_contains (hc : r.ramCovers addr len = true)
    (hin : r.Contains addr len) : r.RamHolds addr len :=
  (ramCovers_iff.mp hc).resolve_right fun h => h.not_contains hin

theorem ramRangeRegion_eq_some {i : Nat} : ramRangeRegion bus addr len = some (i, r) ↔
      bus.regions[i]? = some r ∧ r.ramCovers addr len = true ∧
        ∀ (j : Nat) (b : BusRegion), bus.regions[j]? = some b → b.ramCovers addr len = true →
          r.size.toNat ≤ b.size.toNat ∧ (j < i → r.size.toNat < b.size.toNat) :=
  firstLeast_eq_iff _ _

theorem exists_ramRangeRegion (hr : r ∈ bus.regions) (hc : r.ramCovers addr len = true) :
    ∃ i c, ramRangeRegion bus addr len = some (i, c) := by
  cases h : ramRangeRegion bus addr len with
  | some ic => exact ⟨ic.1, ic.2, rfl⟩
  | none =>
    have hnone := (firstLeast_eq_iff _ _).mp h r hr
    rw [hc] at hnone
    cases hnone

theorem busRamRange_of_region {i : Nat} (h : ramRangeRegion bus addr len = some (i, r)) :
    ∃ p, r.host = some p ∧ busRamRange bus addr len = some (p.add (addr - r.base)) := by
  obtain ⟨-, hc, -⟩ := ramRangeRegion_eq_some.mp h
  rw [BusRegion.ramCovers, Bool.and_eq_true] at hc
  obtain ⟨p, hp⟩ := Option.isSome_iff_exists.mp hc.1
  refine ⟨p, hp, ?_⟩
  rw [busRamRange_eq, h, Option.bind_some, hp]
  rfl

theorem RangeOwned.chosen (h : RangeOwned bus addr len) {i : Nat}
    (hr : ramRangeRegion bus addr len = some (i, r)) :
    r.Contains addr len ∧ ∀ o ∈ bus.regions, o.size < r.size → ¬o.HasByte addr len := by
  obtain ⟨hi, hc, hmin⟩ := ramRangeRegion_eq_some.mp hr
  have hholds : r.RamHolds addr len := by
    rcases BusRegion.ramCovers_iff.mp hc with hholds | hfalse
    · exact hholds
    obtain ⟨j, r', hj, hholds', hbetter⟩ := h.behind i r hi hfalse
    obtain ⟨hle, hlt⟩ := hmin j r' hj (BusRegion.ramCovers_iff.mpr (.inl hholds'))
    rcases hbetter with hsmall | ⟨hsize, hji⟩
    · exact absurd hle (Nat.not_le.mpr hsmall)
    · exact absurd (congrArg BitVec.toNat hsize) (Nat.ne_of_gt (hlt hji))
  refine ⟨hholds.contains, fun o ho hsmall hbyte => ?_⟩
  have hmin' : ∀ r' ∈ bus.regions, r'.RamHolds addr len → ¬r'.size ≤ o.size := by
    intro r' hr' hholds' hle
    obtain ⟨j, hj⟩ := List.mem_iff_getElem?.mp hr'
    have hleast := (hmin j r' hj (BusRegion.ramCovers_iff.mpr (.inl hholds'))).1
    exact absurd (Nat.lt_of_lt_of_le (Nat.lt_of_le_of_lt hle hsmall) hleast) (Nat.lt_irrefl _)
  by_cases ho' : o.RamHolds addr len
  · exact hmin' o ho ho' (Nat.le_refl _)
  · obtain ⟨r', hr', hholds', hle⟩ :=
      h.windows r (List.mem_of_getElem? hi) hholds o ho ho' hbyte
    exact hmin' r' hr' hholds' hle

theorem RangeSound.owned (h : RangeSound bus addr len) : RangeOwned bus addr len := by
  have hchosen : ∀ r ∈ bus.regions, r.ramCovers addr len = true → ∃ i c,
      ramRangeRegion bus addr len = some (i, c) ∧ c.RamHolds addr len ∧
        ∀ o ∈ bus.regions, o.size < c.size → ¬o.HasByte addr len := by
    intro r hr hc
    obtain ⟨i, c, hic⟩ := exists_ramRangeRegion hr hc
    obtain ⟨p, -, hp⟩ := busRamRange_of_region hic
    obtain ⟨i', c', -, hic', -, -, hin, hown⟩ := h _ hp
    rw [hic] at hic'
    cases hic'
    obtain ⟨-, hcc, -⟩ := ramRangeRegion_eq_some.mp hic
    exact ⟨i, c, hic, BusRegion.ramHolds_of_contains hcc hin, hown⟩
  constructor
  · intro i r hi hfalse
    have hc := BusRegion.ramCovers_iff.mpr (.inr hfalse)
    obtain ⟨j, c, hjc, hholds, -⟩ := hchosen r (List.mem_of_getElem? hi) hc
    obtain ⟨hj, -, hmin⟩ := ramRangeRegion_eq_some.mp hjc
    obtain ⟨hle, hlt⟩ := hmin i r hi hc
    refine ⟨j, c, hj, hholds, ?_⟩
    rcases Nat.lt_or_eq_of_le hle with hlt' | heq
    · exact .inl hlt'
    refine .inr ⟨BitVec.eq_of_toNat_eq heq, ?_⟩
    rcases Nat.lt_trichotomy j i with hji | hji | hij
    · exact hji
    · subst hji
      rw [hj] at hi
      cases hi
      exact absurd hholds.contains hfalse.not_contains
    · exact absurd heq (Nat.ne_of_lt (hlt hij))
  · intro r hr hholds o ho _ hbyte
    obtain ⟨j, c, hjc, hholds', hown⟩ :=
      hchosen r hr (BusRegion.ramCovers_iff.mpr (.inl hholds))
    refine ⟨c, List.mem_of_getElem? (ramRangeRegion_eq_some.mp hjc).1, hholds', ?_⟩
    by_contra hlt
    exact hown o ho (BitVec.not_le.mp hlt) hbyte

/-- On a map whose regions end below 2^64 nothing holds a range that wraps, so no false hit is
ever behind a region that holds it. -/
theorem rangeOwned_of_fits (hfit : ∀ r ∈ bus.regions, r.base.toNat + r.size.toNat < 2 ^ 64) :
    RangeOwned bus addr len ↔
      (∀ r ∈ bus.regions, ¬r.FalseHit addr len) ∧ WindowsLarger bus addr len := by
  constructor
  · intro h
    refine ⟨fun r hr hfalse => ?_, h.windows⟩
    obtain ⟨i, hi⟩ := List.mem_iff_getElem?.mp hr
    obtain ⟨j, r', hj, hholds, -⟩ := h.behind i r hi hfalse
    have hside := hholds.side.mp (hfit r' (List.mem_of_getElem? hj))
    exact absurd hfalse.wraps (Nat.not_le.mpr hside)
  · intro h
    exact ⟨fun i r hi hfalse => absurd hfalse (h.1 r (List.mem_of_getElem? hi)), h.2⟩

/-- For every map and every range: a successful call stays inside the region it chose, and that
region owns the range, exactly when every false hit is behind a region that holds the range and no
window inside the range is smaller. Where the regions end below 2^64 that means no false hit: the
range does not wrap, or no host-backed region starts before it and ends behind its wrapped end. -/
theorem busRamRange_sound_iff (bus : Bus) (addr len : BitVec 64) :
    (RangeSound bus addr len ↔ RangeOwned bus addr len) ∧
      ((∀ r ∈ bus.regions, r.base.toNat + r.size.toNat < 2 ^ 64) →
        (RangeSound bus addr len ↔
          (∀ r ∈ bus.regions, ¬r.FalseHit addr len) ∧ WindowsLarger bus addr len)) := by
  have hiff : RangeSound bus addr len ↔ RangeOwned bus addr len := by
    refine ⟨RangeSound.owned, fun h => ?_⟩
    intro ptr hptr
    rw [busRamRange_eq, Option.bind_eq_some_iff] at hptr
    obtain ⟨⟨i, r⟩, hr, hmap⟩ := hptr
    obtain ⟨p, hp, rfl⟩ := Option.map_eq_some_iff.mp hmap
    obtain ⟨hin, hown⟩ := h.chosen hr
    exact ⟨i, r, p, hr, hp, rfl, hin, hown⟩
  exact ⟨hiff, fun hfit => hiff.trans (rangeOwned_of_fits hfit)⟩

/-- The last page of the address space passes for DRAM at 2 GiB: its end wraps to zero. -/
theorem busRamRange_lastPage_unsound :
    let dram : BusRegion := ⟨0x80000000, 0x8000000, .kRamOps, 0, false, some ⟨0, 0⟩⟩
    let bus : Bus := ⟨[dram], none⟩
    runBusOps .empty [.addRam 0x80000000 0x8000000 .kRamOps 0 ⟨0, 0⟩] = some bus ∧
    busRamRange bus 0xfffffffffffff000 0x1000 = some ⟨0, 0xffffffff7ffff000⟩ ∧
    ¬RangeSound bus 0xfffffffffffff000 0x1000 := by
  refine ⟨by decide, by decide, fun h => ?_⟩
  obtain ⟨i, r, p, hr, -, -, hin, -⟩ := h ⟨0, 0xffffffff7ffff000⟩ (by decide)
  obtain ⟨-, rfl⟩ : i = 0 ∧ r = ⟨0x80000000, 0x8000000, .kRamOps, 0, false, some ⟨0, 0⟩⟩ := by
    cases hr
    exact ⟨rfl, rfl⟩
  exact absurd hin (by decide)

end Cemu
