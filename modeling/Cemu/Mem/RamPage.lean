import Cemu.Mem.World

/-!
# Direct access to RAM pages

`busRamPage` hands out a host pointer that loads and stores use without a bus decode. Away
from the topmost page of the address space it is sound: the page lies in one RAM region,
and every access inside the page decodes to that region. At the topmost page the sum
`addr + 0x1000` wraps to zero, every RAM region that starts low enough is accepted, and
the lookup itself refuses the page's last byte.
-/

namespace Cemu

open Option

def topPage : BitVec 64 := 0xFFFFFFFFFFFFF000

variable {regions l : List BusRegion} {i : Nat} {addr a len : BitVec 64} {r : BusRegion}
  {h : HostPtr}

theorem pageClear_eq_true :
    pageClear regions i addr = true ↔
      ∀ j o, regions[j]? = some o → j ≠ i → ¬ (addr < o.stop ∧ o.base < addr + 0x1000) := by
  simp only [pageClear, List.all_eq_true, Prod.forall, List.mem_zipIdx_iff_getElem?,
    Bool.or_eq_true, decide_eq_true_eq, Bool.not_eq_true', Bool.and_eq_false_iff,
    decide_eq_false_iff_not]
  constructor
  · intro h j o hj hne ⟨h1, h2⟩
    rcases h o j hj with rfl | h' | h'
    · exact hne rfl
    · exact h' h1
    · exact h' h2
  · intro h o j hj
    by_cases hne : j = i
    · exact .inl hne
    · have := h j o hj hne
      rw [not_and_or] at this
      exact .inr this

theorem ramPageAt_eq_some :
    ramPageAt regions addr i r = some h ↔
      ∃ host, r.host = some host ∧ r.base ≤ addr ∧ addr + 0x1000 ≤ r.stop ∧
        (r.overlaps = true → pageClear regions i addr = true) ∧
        h = host.add (addr - r.base) := by
  unfold ramPageAt
  cases r.host with
  | none => simp
  | some host =>
    simp only [some.injEq]
    constructor
    · intro heq
      split at heq
      · cases heq
      rename_i hr
      split at heq
      · cases heq
      rename_i hs
      simp only [Bool.or_eq_true, decide_eq_true_eq, not_or, BitVec.not_lt] at hr
      simp only [Bool.and_eq_true, Bool.not_eq_true', not_and, Bool.not_eq_false] at hs
      simp only [some.injEq] at heq
      exact ⟨host, rfl, hr.1, hr.2, hs, heq.symm⟩
    · rintro ⟨host', rfl, h1, h2, h3, rfl⟩
      rw [BitVec.ofNat_eq_ofNat] at h2
      rw [if_neg (by simp [h1, h2]), if_neg (by simpa using h3)]

theorem ramPageFrom_eq_some (hp : ramPageFrom regions addr i l = some h) :
    ∃ k r, l[k]? = some r ∧ ramPageAt regions addr (i + k) r = some h := by
  induction l generalizing i with
  | nil => cases hp
  | cons r rest ih =>
    rw [ramPageFrom] at hp
    split at hp
    · next host hr =>
      cases hp
      exact ⟨0, r, rfl, hr⟩
    · obtain ⟨k, r', hk, hr'⟩ := ih hp
      exact ⟨k + 1, r', hk, by rwa [Nat.add_comm k 1, ← Nat.add_assoc]⟩

theorem ramPageFrom_eq_none (hp : ramPageFrom regions addr i l = none) {k : Nat}
    (hk : l[k]? = some r) : ramPageAt regions addr (i + k) r = none := by
  induction l generalizing i k with
  | nil => cases hk
  | cons a rest ih =>
    rw [ramPageFrom] at hp
    split at hp
    · cases hp
    rename_i ha
    cases k with
    | zero =>
      simp only [List.getElem?_cons_zero, some.injEq] at hk
      exact hk ▸ ha
    | succ k =>
      have := ih hp hk
      rwa [Nat.add_assoc, Nat.add_comm 1 k] at this

variable {bus : Bus}

theorem busRamPage_eq_some (hp : busRamPage bus addr = some h) : addr &&& 0xfff = 0 ∧
      ∃ i r, bus.regions[i]? = some r ∧ ramPageAt bus.regions addr i r = some h := by
  unfold busRamPage at hp
  split at hp
  · cases hp
  · next ha =>
    obtain ⟨k, r, hk, hr⟩ := ramPageFrom_eq_some hp
    exact ⟨by simpa using ha, k, r, hk, by simpa using hr⟩

/-! ### Below the topmost page -/

theorem page_fits (halign : addr &&& 0xfff = 0) (htop : addr ≠ topPage) :
    addr.toNat + 4096 < 2 ^ 64 := by
  by_contra hge
  apply htop
  have hlow : addr.toNat % 4096 = 0 := by
    have := congrArg BitVec.toNat halign
    exact (Nat.and_two_pow_sub_one_eq_mod addr.toNat 12).symm.trans this
  apply BitVec.eq_of_toNat_eq
  have : topPage.toNat = 2 ^ 64 - 4096 := rfl
  omega

section

variable (hwf : BusWf bus) (hr : bus.regions[i]? = some r)
  (hp : ramPageAt bus.regions addr i r = some h) (hpage : addr.toNat + 4096 < 2 ^ 64)
  (hlen : len ≠ 0) (hlo : addr.toNat ≤ a.toNat) (hhi : a.toNat + len.toNat ≤ addr.toNat + 4096)

include hwf hr hp hpage hlen hlo hhi

theorem scanRegions_ramPage :
    scanRegions bus.regions a len = some (i, r) := by
  obtain ⟨host, -, hbase, hstop, hclear, -⟩ := ramPageAt_eq_some.mp hp
  have hcov : r.covers a len = true := by
    rw [BusRegion.covers_eq_true]
    constructor <;> bv_omega
  refine (firstLeast_eq_iff _ _).mpr ⟨hr, hcov, ?_⟩
  intro j b hj hb
  obtain ⟨hb1, hb2⟩ := BusRegion.covers_eq_true.mp hb
  have hji : j = i := by
    by_contra hne
    have hmeet : r.meets b = true :=
      BusRegion.meets_of_covers hlen (by bv_omega) hcov hb
    have hov : r.overlaps = true := by
      rw [hwf.fresh i r hr]
      exact meetsOther_eq_true.mpr ⟨j, b, hj, hne, hmeet⟩
    apply pageClear_eq_true.mp (hclear hov) j b hj hne
    constructor <;> bv_omega
  subst hji
  rw [hr, some.injEq] at hj
  exact ⟨hj ▸ le_rfl, fun hlt => absurd hlt (Nat.lt_irrefl _)⟩

theorem findRegion_ramPage :
    (findRegion bus a len).1 = some (i, r) := by
  rw [hwf.findRegion_eq hlen, if_neg (by bv_omega)]
  exact scanRegions_ramPage hwf hr hp hpage hlen hlo hhi

end

/-! ### The direct path and the bus path -/

namespace World

variable {D : Type}

/-- The region is the window of a RAM device: its callbacks and its host pointer lead to
the same bytes. This is how every board registers its RAM. -/
def Backs (w : World D) (r : BusRegion) : Prop :=
  r.ops = .kRamOps ∧ r.host = some ⟨r.dev, 0⟩ ∧ (w.ram r.dev).base = r.base

/-- One access agrees on the two paths: the bus returns the bytes behind the pointer, and
leaves in memory what the direct store leaves. -/
def DirectAgrees (w : World D) (p : HostPtr) (a : BitVec 64) (n : Nat) : Prop :=
  (w.busRead a n).map Prod.fst = some (w.hostLoad p n) ∧
  ∀ v, (w.busWrite a n v).map World.mem = some (w.hostStore p n v).mem

theorem directAgrees_of_find {w : World D} {i : Nat} {r : BusRegion} {addr a : BitVec 64}
    {n : Nat} (hb : w.Backs r)
    (hfind : (findRegion w.bus a (BitVec.ofNat 64 n)).1 = some (i, r)) :
    w.DirectAgrees ((HostPtr.add ⟨r.dev, 0⟩ (addr - r.base)).add (a - addr)) a n := by
  obtain ⟨hops, -, hbase⟩ := hb
  have hoff : (0 : BitVec 64) + (addr - r.base) + (a - addr) = a - r.base := by bv_omega
  simp only [DirectAgrees, busRead, busWrite, find, hfind, map_some, opsRead, opsWrite,
    hops, ramRead, ramWrite, hbase, HostPtr.add, hoff, hostLoad, hostStore, true_and,
    implies_true]

end World

/-- What a caller of `busRamPage` relies on, at one address: the page lies in one RAM
region in exact arithmetic, the pointer is that region's, every access inside the page is
decoded to that region, and so the direct path agrees with the bus path. -/
def RamPageSound (bus : Bus) (addr : BitVec 64) : Prop :=
  ∀ h, busRamPage bus addr = some h →
    ∃ i r host, bus.regions[i]? = some r ∧ r.host = some host ∧
      r.base.toNat ≤ addr.toNat ∧ addr.toNat + 0x1000 ≤ r.base.toNat + r.size.toNat ∧
      h = host.add (addr - r.base) ∧
      ∀ a n, 1 ≤ n → addr.toNat ≤ a.toNat → a.toNat + n ≤ addr.toNat + 0x1000 →
        (findRegion bus a (BitVec.ofNat 64 n)).1 = some (i, r) ∧
        ∀ (D : Type) (w : World D), w.bus = bus → w.Backs r →
          w.DirectAgrees (h.add (a - addr)) a n

theorem ramPageSound_of_fits (hwf : BusWf bus) {addr : BitVec 64}
    (htop : addr ≠ topPage) : RamPageSound bus addr := by
  intro h hp
  obtain ⟨halign, i, r, hr, hat⟩ := busRamPage_eq_some hp
  have hpage := page_fits halign htop
  obtain ⟨host, hhost, hbase, hstop, -, hh⟩ := ramPageAt_eq_some.mp hat
  refine ⟨i, r, host, hr, hhost, hbase, ?_, hh, ?_⟩
  · rw [BusRegion.stop] at hstop
    bv_omega
  · intro a n hn hlo hhi
    have hnat : (BitVec.ofNat 64 n).toNat = n := by
      rw [BitVec.toNat_ofNat, Nat.mod_eq_of_lt (by omega)]
    have hfind : (findRegion bus a (BitVec.ofNat 64 n)).1 = some (i, r) :=
      findRegion_ramPage hwf hr hat hpage (by bv_omega) hlo (by omega)
    refine ⟨hfind, ?_⟩
    intro D w hw hb
    subst hw
    have heq : host = ⟨r.dev, 0⟩ := by
      rw [hb.2.1, some.injEq] at hhost
      exact hhost.symm
    rw [hh, heq]
    exact World.directAgrees_of_find hb hfind

/-! ### The topmost page -/

/-- At the topmost page the wrapped end accepts every RAM region that starts low enough,
whatever its size and whatever else is mapped there. -/
theorem ramPageAt_topPage {regions : List BusRegion} {i : Nat} {r : BusRegion} {host : HostPtr}
    (hhost : r.host = some host) (hbase : r.base ≤ topPage) :
    ramPageAt regions topPage i r = some (host.add (topPage - r.base)) := by
  have hwrap : topPage + 0x1000 = 0 := rfl
  refine ramPageAt_eq_some.mpr ⟨host, hhost, hbase, ?_, fun _ => ?_, rfl⟩
  · rw [hwrap]
    bv_omega
  · rw [pageClear_eq_true, hwrap]
    rintro j o - - ⟨-, hlt⟩
    exact absurd hlt (BitVec.not_lt_zero)

theorem busRamPage_topPage_none :
    busRamPage bus topPage = none ↔
      ∀ r ∈ bus.regions, r.host.isSome → topPage < r.base := by
  constructor
  · intro hnone r hr hhost
    obtain ⟨k, hk⟩ := List.mem_iff_getElem?.mp hr
    obtain ⟨host, hhost⟩ := isSome_iff_exists.mp hhost
    by_contra hbase
    have hfrom : ramPageFrom bus.regions topPage 0 bus.regions = none := by
      simpa [busRamPage, topPage] using hnone
    have := ramPageFrom_eq_none hfrom hk
    rw [ramPageAt_topPage hhost (BitVec.not_lt.mp hbase)] at this
    cases this
  · intro hall
    by_contra hsome
    obtain ⟨h, hp⟩ := ne_none_iff_exists'.mp hsome
    obtain ⟨-, i, r, hr, hat⟩ := busRamPage_eq_some hp
    obtain ⟨host, hhost, hbase, -⟩ := ramPageAt_eq_some.mp hat
    have := hall r (List.mem_of_getElem? hr) (by simp [hhost])
    bv_omega

theorem RamPageSound.topPage_none (hsound : RamPageSound bus topPage) :
    busRamPage bus topPage = none := by
  by_contra hsome
  obtain ⟨h, hp⟩ := ne_none_iff_exists'.mp hsome
  obtain ⟨i, r, host, -, -, -, -, -, hall⟩ := hsound h hp
  have hlast := (hall 0xFFFFFFFFFFFFFFFF 1 le_rfl (by decide) (by decide)).1
  cases hlast

/-- On every bus the map operations build, `busRamPage` is sound at `addr` unless `addr` is
the topmost page and some RAM region starts at or below it. -/
theorem busRamPage_sound_iff (ops : List BusOp) (bus : Bus)
    (hrun : runBusOps Bus.empty ops = some bus) (addr : BitVec 64) :
    RamPageSound bus addr ↔
      (addr = topPage → ∀ r ∈ bus.regions, r.host.isSome → topPage < r.base) := by
  have hwf := BusWf.run hrun
  constructor
  · rintro hsound rfl
    exact busRamPage_topPage_none.mp hsound.topPage_none
  · intro hcond
    by_cases htop : addr = topPage
    · intro h hp
      rw [htop, busRamPage_topPage_none.mpr (hcond htop)] at hp
      cases hp
    · exact ramPageSound_of_fits hwf htop

theorem busRamPage_sound_iff_dram :
    let dram : BusRegion := ⟨0x80000000, 0x2000, .kRamOps, 0, false, some ⟨0, 0⟩⟩
    RamPageSound ⟨[dram], none⟩ 0x80001000 :=
  (busRamPage_sound_iff [.addRam 0x80000000 0x2000 .kRamOps 0 ⟨0, 0⟩] _ (by decide)
    0x80001000).mpr (by decide)

/-- Two pages of RAM at 2 GiB: the topmost page is accepted, with a pointer far outside the
RAM's host memory, and no region answers for its last byte. -/
theorem busRamPage_topPage_unsound :
    let dram : BusRegion := ⟨0x80000000, 0x2000, .kRamOps, 0, false, some ⟨0, 0⟩⟩
    runBusOps Bus.empty [.addRam 0x80000000 0x2000 .kRamOps 0 ⟨0, 0⟩] = some ⟨[dram], none⟩ ∧
    busRamPage ⟨[dram], none⟩ topPage = some ⟨0, 0xFFFFFFFF7FFFF000⟩ ∧
    ¬ RamPageSound ⟨[dram], none⟩ topPage := by
  refine ⟨by decide, by decide, ?_⟩
  intro hsound
  exact absurd hsound.topPage_none (by decide)

end Cemu
