import Cemu.Bus.Map

/-!
# The lookup cache is invisible

`findRegion` may answer from its one-entry cache without looking at the other regions.
That is right because the cached region never meets another one: `BusWf` says that every
`overlaps` flag is fresh and that the cache only points at a region whose flag is clear.
Every map operation re-establishes it, and under it the answer of `findRegion` is the
answer of the scan.
-/

namespace Cemu

open BusRegion Option
variable {regions : List BusRegion} {i dev : Nat} {a a' b r : BusRegion} {bus bus' : Bus}
  {base size addr len : BitVec 64}

theorem meetsOther_eq_true :
    meetsOther regions i a = true ↔ ∃ j b, regions[j]? = some b ∧ j ≠ i ∧ a.meets b = true := by
  simp only [meetsOther, List.any_eq_true, Prod.exists, List.mem_zipIdx_iff_getElem?,
    Bool.and_eq_true, decide_eq_true_eq]
  constructor
  · rintro ⟨b, j, hj, hne, hm⟩
    exact ⟨j, b, hj, hne, hm⟩
  · rintro ⟨j, b, hj, hne, hm⟩
    exact ⟨b, j, hj, hne, hm⟩

def BusRegion.range (r : BusRegion) : BitVec 64 × BitVec 64 := (r.base, r.size)

theorem BusRegion.meets_congr {b' : BusRegion} (ha : a.range = a'.range) (hb : b.range = b'.range) :
    a.meets b = a'.meets b' := by
  simp only [range, Prod.mk.injEq] at ha hb
  rw [meets, meets, stop, stop, stop, stop, ha.1, ha.2, hb.1, hb.2]

theorem meetsOther_congr {regions' : List BusRegion}
    (h : regions.map range = regions'.map range) (ha : a.range = a'.range) :
    meetsOther regions i a = meetsOther regions' i a' := by
  have one : ∀ {l l' : List BusRegion} {a a' : BusRegion},
      l.map range = l'.map range → a.range = a'.range →
      meetsOther l i a = true → meetsOther l' i a' = true := by
    intro l l' a a' h ha hm
    obtain ⟨j, b, hj, hne, hm⟩ := meetsOther_eq_true.mp hm
    have hj' : (l'.map range)[j]? = some b.range := by
      rw [← h, List.getElem?_map, hj]; rfl
    rw [List.getElem?_map, map_eq_some_iff] at hj'
    obtain ⟨b', hb', hr⟩ := hj'
    exact meetsOther_eq_true.mpr
      ⟨j, b', hb', hne, by rwa [← meets_congr ha hr.symm]⟩
  rw [Bool.eq_iff_iff]
  exact ⟨one h ha, one h.symm ha.symm⟩

structure BusWf (bus : Bus) : Prop where
  fresh : ∀ i r, bus.regions[i]? = some r → r.overlaps = meetsOther bus.regions i r
  last : ∀ i, bus.last = some i → ∃ r, bus.regions[i]? = some r ∧ r.overlaps = false

/-! ### Every operation keeps it -/

theorem BusWf.empty : BusWf .empty where
  fresh := by simp [Bus.empty]
  last := by simp [Bus.empty]

theorem BusWf.refresh (bus : Bus) : BusWf (refreshBus bus) where
  fresh := by
    intro i r hr
    have hranges : (refreshBus bus).regions.map range
        = bus.regions.map range := by
      apply List.ext_getElem?
      intro j
      simp only [refreshBus, List.getElem?_map, List.getElem?_mapIdx, map_map]
      rfl
    simp only [refreshBus, List.getElem?_mapIdx, map_eq_some_iff] at hr
    obtain ⟨a, -, rfl⟩ := hr
    exact (meetsOther_congr hranges rfl).symm
  last := by simp [refreshBus]

theorem BusWf.setHost (h : BusWf bus) (i : Nat) (host : HostPtr) : BusWf (bus.setHost i host) := by
  have hget : ∀ (j : Nat) (r : BusRegion), (bus.setHost i host).regions[j]? = some r →
      ∃ a : BusRegion, bus.regions[j]? = some a ∧ r.range = a.range ∧ r.overlaps = a.overlaps := by
    intro j r hr
    simp only [Bus.setHost, List.getElem?_modify, map_eq_map,
      map_eq_some_iff] at hr
    obtain ⟨a, ha, rfl⟩ := hr
    refine ⟨a, ha, ?_, ?_⟩ <;> split <;> rfl
  have hranges : (bus.setHost i host).regions.map range
      = bus.regions.map range := by
    apply List.ext_getElem?
    intro j
    simp only [Bus.setHost, List.getElem?_map, List.getElem?_modify, map_eq_map,
      map_map]
    congr 1
    funext r
    simp only [Function.comp_apply]
    split <;> rfl
  constructor
  · intro j r hr
    obtain ⟨a, ha, hrange, hov⟩ := hget j r hr
    rw [hov, h.fresh j a ha]
    exact meetsOther_congr hranges.symm hrange.symm
  · intro j hj
    obtain ⟨a, ha, hov⟩ := h.last j hj
    refine ⟨_, by simp only [Bus.setHost, List.getElem?_modify, ha]; rfl, ?_⟩
    split <;> exact hov

theorem BusWf.addRegion {ops : Ops} (h : busAddRegion bus base size ops dev = some bus') :
    BusWf bus' := by
  simp only [busAddRegion] at h
  split at h
  · cases h
  · simp only [some.injEq] at h
    exact h ▸ .refresh _

theorem BusWf.relocate {ops : Ops} (h : busRelocateRegion bus ops dev base size = some bus') :
    BusWf bus' := by
  unfold busRelocateRegion at h
  split at h
  · simp only [some.injEq] at h
    exact h ▸ .refresh _
  · exact .addRegion h

theorem BusWf.remove (h : BusWf bus) (ops : Ops) (dev : Nat) :
    BusWf (busRemoveRegion bus ops dev).2 := by
  unfold busRemoveRegion
  split
  · exact .refresh _
  · exact h

theorem scanRegions_getElem? (h : scanRegions regions addr len = some (i, r)) :
    regions[i]? = some r :=
  ((firstLeast_eq_iff _ _).mp h).1

theorem BusWf.find (h : BusWf bus) (addr len : BitVec 64) : BusWf (findRegion bus addr len).2 := by
  unfold findRegion
  split
  · exact h
  split
  · exact h
  split
  · next i r hscan =>
    refine ⟨h.fresh, ?_⟩
    intro j hj
    by_cases hov : r.overlaps
    · simp [hov] at hj
    · simp only [hov, Bool.false_eq_true, if_false, some.injEq] at hj
      exact ⟨r, hj ▸ scanRegions_getElem? hscan, by simpa using hov⟩
  · exact ⟨h.fresh, by simp⟩

theorem BusWf.apply (h : BusWf bus) {op : BusOp} (hop : op.apply bus = some bus') : BusWf bus' := by
  cases op with
  | add base size ops dev => exact BusWf.addRegion hop
  | addRam base size ops dev host =>
    obtain ⟨mid, hmid, rfl⟩ := map_eq_some_iff.mp hop
    exact (BusWf.addRegion hmid).setHost _ _
  | relocate ops dev base size => exact BusWf.relocate hop
  | remove ops dev =>
    simp only [BusOp.apply, some.injEq] at hop
    exact hop ▸ h.remove ops dev
  | find addr len =>
    simp only [BusOp.apply, some.injEq] at hop
    exact hop ▸ h.find addr len

theorem BusWf.run {ops : List BusOp} (h : runBusOps .empty ops = some bus) : BusWf bus :=
  runBusOps_invariant (fun _ _ _ hb hop => hb.apply hop) .empty h

/-! ### A hit is the answer of the scan -/

theorem BusRegion.covers_eq_true :
    r.covers addr len = true ↔ r.base ≤ addr ∧ addr + len ≤ r.stop := by
  simp [covers]

theorem BusRegion.meets_of_covers (hlen : len ≠ 0) (hwrap : len ≤ ~~~addr) (ha : a.covers addr len)
    (hb : b.covers addr len) : a.meets b = true := by
  obtain ⟨ha1, ha2⟩ := covers_eq_true.mp ha
  obtain ⟨hb1, hb2⟩ := covers_eq_true.mp hb
  simp only [meets, Bool.and_eq_true, decide_eq_true_eq]
  constructor <;> bv_omega

theorem cachedRegion_eq_some :
    cachedRegion bus addr len = some (i, r) ↔
      bus.last = some i ∧ bus.regions[i]? = some r ∧ r.overlaps = false ∧
        r.covers addr len = true := by
  simp only [cachedRegion, bind_eq_bind, bind_eq_some_iff]
  constructor
  · rintro ⟨j, hj, a, ha, h⟩
    split at h
    · next hc =>
      simp only [some.injEq, Prod.mk.injEq] at h
      obtain ⟨rfl, rfl⟩ := h
      simp only [Bool.and_eq_true, Bool.not_eq_true'] at hc
      exact ⟨hj, ha, hc⟩
    · cases h
  · rintro ⟨hi, hr, hov, hc⟩
    exact ⟨i, hi, r, hr, by simp [hov, hc]⟩

theorem cachedRegion_isFirstLeast (h : BusWf bus) (hlen : len ≠ 0) (hwrap : len ≤ ~~~addr)
    {hit : Nat × BusRegion} (hhit : cachedRegion bus addr len = some hit) :
    scanRegions bus.regions addr len = some hit := by
  obtain ⟨i, r⟩ := hit
  obtain ⟨-, hr, hov, hc⟩ := cachedRegion_eq_some.mp hhit
  refine (firstLeast_eq_iff _ _).mpr ⟨hr, hc, ?_⟩
  intro j b hj hb
  -- a second covering region would have set the flag of the first
  have hji : j = i := by
    by_contra hne
    have : meetsOther bus.regions i r = true :=
      meetsOther_eq_true.mpr ⟨j, b, hj, hne, meets_of_covers hlen hwrap hc hb⟩
    rw [← h.fresh i r hr, hov] at this
    cases this
  subst hji
  rw [hr, some.injEq] at hj
  exact ⟨hj ▸ le_rfl, fun hlt => absurd hlt (Nat.lt_irrefl _)⟩

theorem BusWf.findRegion_eq (h : BusWf bus) (hlen : len ≠ 0) : (findRegion bus addr len).1 =
      if ~~~addr < len then none else scanRegions bus.regions addr len := by
  unfold findRegion
  split
  · rfl
  rename_i hwrap
  cases hhit : cachedRegion bus addr len with
  | some hit => exact (cachedRegion_isFirstLeast h hlen (BitVec.not_lt.mp hwrap) hhit).symm
  | none =>
    dsimp only
    split
    · next hscan => exact hscan.symm
    · next hscan => exact hscan.symm

@[simp] theorem findRegion_regions (bus : Bus) (addr len : BitVec 64) :
    (findRegion bus addr len).2.regions = bus.regions := by
  unfold findRegion
  split
  · rfl
  · split
    · rfl
    · split <;> rfl

def BusRegion.Contains (r : BusRegion) (addr len : BitVec 64) : Prop :=
  r.base.toNat ≤ addr.toNat ∧ addr.toNat + len.toNat ≤ r.base.toNat + r.size.toNat

instance (r : BusRegion) (addr len : BitVec 64) : Decidable (r.Contains addr len) :=
  inferInstanceAs (Decidable (_ ∧ _))

theorem BusRegion.covers_iff_contains (hfit : r.base.toNat + r.size.toNat < 2 ^ 64)
    (hwrap : len ≤ ~~~addr) : r.covers addr len = true ↔ r.Contains addr len := by
  rw [covers_eq_true, Contains, stop]
  bv_omega

/-- On every bus built by map operations and lookups, the lookup returns what it returns
with an empty cache: the smallest region that wholly contains the access, the lowest index
on ties, or nothing. -/
theorem findRegion_cache_invisible (ops : List BusOp) (bus : Bus)
    (hrun : runBusOps Bus.empty ops = some bus)
    (hfit : ∀ r ∈ bus.regions, r.base.toNat + r.size.toNat < 2 ^ 64)
    (addr len : BitVec 64) (hlen : 1 ≤ len.toNat) :
    (findRegion bus addr len).1 = (findRegion { bus with last := none } addr len).1 ∧
    IsFirstLeast (fun r => decide (r.Contains addr len)) (fun r => r.size.toNat) bus.regions
      (findRegion bus addr len).1 := by
  have hwf := BusWf.run hrun
  have hne : len ≠ 0 := by
    rintro rfl
    simp at hlen
  have hwf' : BusWf { bus with last := none } := ⟨hwf.fresh, by simp⟩
  rw [hwf.findRegion_eq hne, hwf'.findRegion_eq hne]
  refine ⟨rfl, ?_⟩
  split
  · next hwrap =>
    intro b hb
    have := hfit b hb
    refine decide_eq_false ?_
    rw [BusRegion.Contains]
    bv_omega
  · next hwrap =>
    have hcov : ∀ r ∈ bus.regions, r.covers addr len = decide (r.Contains addr len) := by
      intro r hr
      rw [Bool.eq_iff_iff, decide_eq_true_eq]
      exact BusRegion.covers_iff_contains (hfit r hr) (BitVec.not_lt.mp hwrap)
    exact IsFirstLeast.congr hcov (isFirstLeast_firstLeast bus.regions)

/-- RAM and a device beside it, with the RAM region in the cache. -/
theorem findRegion_cache_invisible_cached_ram :
    let ram : BusRegion := ⟨0x80000000, 0x1000, .kRamOps, 0, false, some ⟨0, 0⟩⟩
    let uart : BusRegion := ⟨0x10000000, 0x100, .device 0, 1, false, none⟩
    let bus : Bus := ⟨[ram, uart], some 0⟩
    (findRegion bus 0x80000010 8).1 = (findRegion { bus with last := none } 0x80000010 8).1 ∧
    IsFirstLeast (fun r => decide (r.Contains 0x80000010 8)) (fun r => r.size.toNat) bus.regions
      (findRegion bus 0x80000010 8).1 :=
  findRegion_cache_invisible
    [.addRam 0x80000000 0x1000 .kRamOps 0 ⟨0, 0⟩, .add 0x10000000 0x100 (.device 0) 1,
      .find 0x80000020 4] _ (by decide) (by decide) 0x80000010 8 (by decide)

end Cemu
