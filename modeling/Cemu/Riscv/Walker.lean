import Cemu.Lib.RadixWalk
import Cemu.Riscv64.PureWalk

/-!
# A walk through page tables

What the walkers of the two machines have in common. Each is a lookup in a tree of tables and then a
use of the entry found; they differ in the width of an entry and in what an entry means. A `Walker`
is one such walk, with the two facts about entries on which the rest depends. From that, every way a
translation raises: with the value it puts into `tval` and with what it has done to memory by then.
-/

namespace Cemu

def World.wordAt {D : Type} (w : World D) (a : BitVec 64) (size : Nat) :
    Option (BitVec 64) × World D :=
  match w.regionAt a size with
  | none => (none, (w.find a size).2)
  | some r =>
    let w := ((w.find a size).2.find a size).2
    (some (w.opsRead r a size).1, (w.opsRead r a size).2)

namespace World

variable {D : Type} {w w' : World D} {a v : BitVec 64} {size : Nat}

theorem wordAt_sameMem (w : World D) (a : BitVec 64) (size : Nat) :
    SameMem w (w.wordAt a size).2 := by
  have hfind := (w.find_sameButCache a size).toSameMem
  have hfind' := ((w.find a size).2.find_sameButCache a size).toSameMem
  unfold wordAt
  split
  · exact hfind
  · exact (hfind.trans hfind').trans (opsRead_sameMem ..)

theorem wordAt_eq_some (h : w.wordAt a size = (some v, w')) :
    ∃ r, w.regionAt a size = some r ∧ (r.ops = .kRamOps → w.ramRead r.dev a size = v) := by
  have hfind := (w.find_sameButCache a size).toSameMem
  have hfind' := ((w.find a size).2.find_sameButCache a size).toSameMem
  unfold wordAt at h
  split at h
  · cases h
  · next r hr =>
    refine ⟨r, hr, fun hops => ?_⟩
    simp only [opsRead, hops, Prod.mk.injEq, Option.some.injEq] at h
    rw [← h.1, (hfind.trans hfind').ramRead]

/-- Memory after a write that region `r` takes: RAM stores the value, a device may start a
transfer. -/
def storedMem (w : World D) (r : BusRegion) (a : BitVec 64) (size : Nat) (v : BitVec 64) :
    Nat → ByteMem :=
  match r.ops with
  | .kRamOps => (w.ramWrite r.dev a size v).mem
  | .device k => ((w.ops k).write r.dev a size v w.ds w.mem).2

theorem SameButCache.storedMem (h : SameButCache w w') (r : BusRegion) (a : BitVec 64) (size : Nat)
    (v : BitVec 64) : w'.storedMem r a size v = w.storedMem r a size v := by
  simp only [World.storedMem, ramWrite, hostStore, h.ram, h.mem, h.ops, h.ds]

theorem opsWrite_mem (w : World D) (r : BusRegion) (a : BitVec 64) (size : Nat) (v : BitVec 64) :
    (w.opsWrite r a size v).mem = w.storedMem r a size v := by
  unfold opsWrite World.storedMem
  cases r.ops <;> rfl

theorem storedMem_device {r : BusRegion} (hops : r.ops ≠ .kRamOps) (hfour : size ≠ 4) :
    w.storedMem r a size v = w.mem := by
  unfold World.storedMem
  cases hk : r.ops with
  | kRamOps => exact absurd hk hops
  | device k => exact (w.ops k).dma _ _ _ _ _ _ hfour

theorem storedMem_ram {r : BusRegion} (hops : r.ops = .kRamOps) (hsize : size ≤ 8)
    (hsmall : ∀ k, size ≤ k → ByteMem.byteOf v k = 0#8) (hne : w.ramRead r.dev a size ≠ v) :
    w.storedMem r a size v ≠ w.mem := by
  intro h
  apply hne
  have hload : (w.ramWrite r.dev a size v).ramRead r.dev a size = v := by
    simp only [ramRead, ramWrite, hostLoad, hostStore, Function.update_self]
    exact ByteMem.load_store_of_small _ _ hsize hsmall
  simp only [World.storedMem, hops] at h
  rw [← hload]
  conv_rhs => rw [ramRead, hostLoad, h]
  rfl

end World

namespace Rv64

open World RadixWalk

variable {D : Type}

/-! ## Probed accesses -/

section

variable {w w' : World D} {a v : BitVec 64} {size : Nat} {t t' : TrapRec}

def probedRead (t : TrapRec) (a : BitVec 64) (size : Nat) : WorldM D (BitVec 64) := do
  match ← probe a size with
  | none => RaiseM.raise t
  | some _ => busRead a size

theorem probedRead_apply (hsize : BitVec.ofNat 64 size ≠ 0) (t : TrapRec) (w : World D) :
    probedRead t a size w = match w.wordAt a size with
      | (some v, w') => .ok v w'
      | (none, w') => .raise t w' := by
  have hfst := w.find_fst a hsize
  have hfst' := (w.find a size).2.find_fst a hsize
  rw [(w.find_sameButCache a size).regionAt] at hfst'
  simp only [probedRead, RaiseM.bind_apply, probe, Outcome.bind_ok, busProbe, hfst, wordAt]
  cases hr : w.regionAt a size with
  | none => rfl
  | some r =>
    rw [hr] at hfst'
    have hread : (w.find a size).2.busRead a size =
        some (((w.find a size).2.find a size).2.opsRead r a size) := by
      rw [World.busRead]
      generalize (w.find a size).2.find a size = found at hfst'
      obtain ⟨region, w1⟩ := found
      obtain rfl : region = some r := hfst'
      rfl
    simp only [Rv64.busRead, hread]

def probedWrite (t : TrapRec) (a : BitVec 64) (size : Nat) (v : BitVec 64) : WorldM D Unit := do
  match ← probe a size with
  | none => RaiseM.raise t
  | some _ => busWrite a size v

section

variable (hsize : BitVec.ofNat 64 size ≠ 0)
include hsize

theorem probedWrite_apply (t : TrapRec) (v : BitVec 64) (w : World D) :
    probedWrite t a size v w = match w.regionAt a size with
      | none => .raise t (w.find a size).2
      | some r => .ok () (((w.find a size).2.find a size).2.opsWrite r a size v) := by
  have hfst := w.find_fst a hsize
  have hfst' := (w.find a size).2.find_fst a hsize
  rw [(w.find_sameButCache a size).regionAt] at hfst'
  simp only [probedWrite, RaiseM.bind_apply, probe, Outcome.bind_ok, busProbe, hfst]
  cases hr : w.regionAt a size with
  | none => rfl
  | some r =>
    rw [hr] at hfst'
    have hwrite : (w.find a size).2.busWrite a size v =
        some (((w.find a size).2.find a size).2.opsWrite r a size v) := by
      rw [World.busWrite]
      generalize (w.find a size).2.find a size = found at hfst'
      obtain ⟨region, w1⟩ := found
      obtain rfl : region = some r := hfst'
      rfl
    simp only [Rv64.busWrite, hwrite]

theorem probedWrite_mapped {r : BusRegion} (hr : w.regionAt a size = some r) (t : TrapRec)
    (v : BitVec 64) :
    ∃ w', probedWrite t a size v w = .ok () w' ∧ w'.mem = w.storedMem r a size v := by
  have hsame := w.find_sameButCache a size
  have hsame' := (w.find a size).2.find_sameButCache a size
  refine ⟨_, by rw [probedWrite_apply hsize, hr], ?_⟩
  rw [opsWrite_mem, hsame'.storedMem, hsame.storedMem]

theorem probedWrite_raise (h : probedWrite t a size v w = .raise t' w') :
    t' = t ∧ SameMem w w' := by
  rw [probedWrite_apply hsize] at h
  split at h
  · cases h
    exact ⟨rfl, (w.find_sameButCache a size).toSameMem⟩
  · cases h

end

end

end Rv64

namespace Riscv

open World RadixWalk Rv64

/-- One walk for an access of class `acc` to `vaddr`, through tables of `n`-bit entries. -/
structure Walker (n : Nat) where
  vaddr : BitVec 64
  acc : Acc
  /-- The bytes of an entry. -/
  size : Nat
  /-- The tables can map the address. -/
  canonical : Bool
  lookup : Lookup (BitVec 64) (BitVec n)
  levels : Nat
  root : BitVec 64
  /-- PMP lets the walker read the entry at an address. -/
  allowed : BitVec 64 → Bool
  permits : BitVec n → Bool
  /-- The entry with its accessed and dirty bits, unless hardware may not set them. -/
  update : BitVec n → Option (BitVec n)
  place : BitVec n → Int → Option (BitVec 64)
  size_bits : 8 * size = n
  size_le : size ≤ 8
  size_ne : BitVec.ofNat 64 size ≠ 0
  /-- The accessed and dirty bits are no part of the address. -/
  place_update : ∀ e new level, update e = some new → place new level = place e level
  /-- Below the last level every entry has an address. -/
  place_last : ∀ e, place e (-1) ≠ none

namespace Walker

variable {D : Type} {n : Nat} (W : Walker n)

/-! ## The walk -/

def pageFault : TrapRec := ⟨pageFaultCause W.acc, W.vaddr, none⟩

/-- The walker may not read the entry at `a`: the one fault that names another address. -/
def denied (a : BitVec 64) : TrapRec := ⟨accessFaultCause W.acc, a, some a⟩

def readEntry (a : BitVec 64) : WorldM D (BitVec n) :=
  if !W.allowed a then RaiseM.raise (W.denied a)
  else do
    let v ← probedRead (W.denied a) a W.size
    pure (v.setWidth n)

/-- The entry the walker finds at a physical address: PMP lets it read there, and the address is
mapped. -/
def entryAt (a : BitVec 64) (w : World D) : Option (BitVec n) × World D :=
  if !W.allowed a then (none, w)
  else ((w.wordAt a W.size).1.map (·.setWidth n), (w.wordAt a W.size).2)

def tables (w : World D) : End (BitVec 64) (BitVec n) (World D) :=
  follow W.lookup W.entryAt W.levels W.root 0 0 w

def leafUse : Use (BitVec 64) (BitVec n) (BitVec 64) (World D) TrapRec where
  permits := W.permits
  update := W.update
  store a new :=
    probedWrite ⟨accessFaultCause W.acc, W.vaddr, some a⟩ a W.size (new.setWidth 64)
  place := W.place
  bad := W.pageFault

def run (w : World D) : Outcome TrapRec (World D) (BitVec 64) :=
  if W.canonical then (W.tables w).use W.leafUse W.denied else .raise W.pageFault w

theorem entryAt_sameMem (a : BitVec 64) (w : World D) : SameMem w (W.entryAt a w).2 := by
  unfold entryAt
  split
  · exact .refl w
  · exact w.wordAt_sameMem a W.size

theorem tables_sameMem (w : World D) : SameMem w (W.tables w).state :=
  follow_keeps .refl (fun _ _ _ => .trans) W.entryAt_sameMem

theorem readEntry_reads :
    ReadsAs (fun a => (W.readEntry a : WorldM D _)) W.entryAt W.denied := by
  intro a w
  cases hallowed : W.allowed a
  · simp [readEntry, entryAt, hallowed]
  · simp only [readEntry, entryAt, hallowed, Bool.not_true, Bool.false_eq_true, if_false,
      RaiseM.bind_apply, probedRead_apply W.size_ne]
    rcases w.wordAt a W.size with ⟨_ | v, w'⟩ <;> rfl

/-- A loop that reads entry by entry, and what is done with the leaf, make up the walk. -/
theorem loop_eq_run {ω : Type} {found : BitVec 64 → BitVec n → Int → ω}
    {loop : Nat → BitVec 64 → BitVec 64 → BitVec n → WorldM D ω} {use : ω → WorldM D (BitVec 64)}
    (hloop : Follows W.lookup W.readEntry W.pageFault found loop)
    (huse : ∀ a e level, use (found a e level) = W.leafUse.run a e level)
    (hcan : W.canonical = true) (w : World D) :
    (loop W.levels W.root 0 0 >>= use) w = W.run w := by
  rw [RaiseM.bind_apply, hloop.run W.readEntry_reads, run, if_pos hcan, tables]
  cases follow W.lookup W.entryAt W.levels W.root 0 0 w <;> simp only [End.outcome, End.use] <;>
    first | rfl | exact congrFun (huse ..) _

/-! ## The ways a walk raises -/

/-- A walk changes an entry and faults: the address is looked up, the tables hold a leaf that
permits the access and lacks an accessed or dirty bit, and the leaf is a misaligned superpage. -/
structure Spoiled (w : World D) (a : BitVec 64) (pte new : BitVec n) (level : Nat)
    (w' : World D) : Prop where
  canonical : W.canonical = true
  found : W.tables w = .reached a pte level w'
  permits : W.permits pte = true
  update : W.update pte = some new
  changed : new ≠ pte
  misaligned : W.place pte level = none

variable {W} {t : TrapRec} {w w' w₁ : World D} {a : BitVec 64} {pte new : BitVec n} {level : Nat}

/-- A walk that raises was refused an entry, or names the virtual address and has left memory alone,
or has spoiled an entry. -/
theorem run_raise (h : W.run w = .raise t w') :
    (∃ a, W.canonical = true ∧ W.tables w = .refused a w' ∧ t = W.denied a) ∨
      (t.tval = W.vaddr ∧ SameMem w w') ∨
      (t = W.pageFault ∧ ∃ a pte new level w₁, W.Spoiled w a pte new level w₁ ∧
        probedWrite ⟨accessFaultCause W.acc, W.vaddr, some a⟩ a W.size (new.setWidth 64) w₁ =
          .ok () w') := by
  unfold run at h
  split at h
  case isFalse =>
    cases h
    exact .inr (.inl ⟨rfl, .refl w⟩)
  case isTrue hcan =>
    have hmem := W.tables_sameMem w
    obtain ⟨a, hrefused, ht⟩ | ⟨rfl, rfl⟩ | ⟨a, new, hstore⟩ |
        ⟨ht, a, pte, level, w₁, new, hfound, hspoil, hstore⟩ := End.use_raise W.place_last h
    · exact .inl ⟨a, hcan, hrefused, ht⟩
    · exact .inr (.inl ⟨rfl, hmem⟩)
    · obtain ⟨rfl, hsame⟩ := probedWrite_raise W.size_ne hstore
      exact .inr (.inl ⟨rfl, hmem.trans hsame⟩)
    · have hplace := W.place_update pte new level hspoil.update
      exact .inr (.inr ⟨ht, a, pte, new, level, w₁, ⟨hcan, hfound, hspoil.permits, hspoil.update,
        hspoil.changed, hplace.symm.trans hspoil.misplaced⟩, hstore⟩)

/-- A walk that spoils an entry stores it and then raises a page fault; in RAM the store shows. -/
theorem Spoiled.run (h : W.Spoiled w a pte new level w₁) :
    ∃ r w', w.regionAt a W.size = some r ∧ W.run w = .raise W.pageFault w' ∧
      w'.mem = w₁.storedMem r a W.size (new.setWidth 64) ∧ SameMem w w₁ ∧
      (r.ops = .kRamOps → w'.mem ≠ w.mem) := by
  have hsame : SameMem w w₁ := by
    have hkeep := W.tables_sameMem w
    rwa [h.found] at hkeep
  -- the leaf is the low end of a word read from a world with the memory of `w`
  obtain ⟨-, -, w₀, hsame₀, hread⟩ := follow_reached .refl (fun _ _ _ => .trans)
    W.entryAt_sameMem h.found
  obtain ⟨v, hword, rfl⟩ : ∃ v, w₀.wordAt a W.size = (some v, w₁) ∧ v.setWidth n = pte := by
    unfold entryAt at hread
    split at hread
    · cases hread
    · simp only [Prod.mk.injEq, Option.map_eq_some_iff] at hread
      obtain ⟨⟨v, hv, rfl⟩, rfl⟩ := hread
      exact ⟨v, Prod.ext hv rfl, rfl⟩
  obtain ⟨r, hr, hpte⟩ := wordAt_eq_some hword
  have hr₁ : w₁.regionAt a W.size = some r := by
    rw [hsame.regionAt, ← hsame₀.regionAt, hr]
  obtain ⟨w', hstore, hmem⟩ := probedWrite_mapped W.size_ne hr₁
    ⟨accessFaultCause W.acc, W.vaddr, some a⟩ (new.setWidth 64)
  refine ⟨r, w', by rw [← hsame₀.regionAt, hr], ?_, hmem, hsame, fun hops => ?_⟩
  · have hspoil : (W.leafUse (D := D)).Spoils (v.setWidth n) level new :=
      ⟨h.permits, h.update, h.changed, (W.place_update _ _ _ h.update).trans h.misaligned⟩
    rw [Walker.run, if_pos h.canonical, h.found]
    exact hspoil.run hstore
  · have hn : n ≤ 64 := by
      have := W.size_bits
      have := W.size_le
      omega
    have hsmall : (new.setWidth 64).toNat < 2 ^ (8 * W.size) := by
      rw [W.size_bits, BitVec.toNat_setWidth_of_le hn]
      exact new.isLt
    rw [hmem, ← hsame.mem]
    refine storedMem_ram hops W.size_le (fun k hk => ByteMem.byteOf_eq_zero hsmall hk)
      fun hread => h.changed ?_
    rw [hsame.ramRead, ← hsame₀.ramRead, hpte hops] at hread
    rw [hread, BitVec.setWidth_setWidth_of_le new hn, BitVec.setWidth_eq]

theorem run_of_refused (hcan : W.canonical = true) (h : W.tables w = .refused a w') :
    W.run w = .raise (W.denied a) w' := by
  rw [run, if_pos hcan, h]
  rfl

/-! ## The whole translation -/

section

variable {σ : Type} (W) (bare : Bool) (hit : Option (BitVec 64 × Option HostPtr))
  (allowed : BitVec 64 → Bool) (host : World D → BitVec 64 → Option HostPtr)
  (setWorld : World D → σ) (fill : World D → BitVec 64 → σ) (m : σ)

/-- A translation as both machines make it: without paging only PMP is asked, an entry of the TLB
answers at once, and otherwise the walk is followed by PMP and fills the TLB. -/
def translate (w : World D) : Outcome TrapRec σ (BitVec 64 × Option HostPtr) :=
  if bare then
    if allowed W.vaddr then .ok (W.vaddr, host w W.vaddr) m
    else .raise ⟨accessFaultCause W.acc, W.vaddr, some W.vaddr⟩ m
  else
    match hit with
    | some r => .ok r m
    | none =>
      match W.run w with
      | .ok p w =>
        if allowed p then .ok (p, host w p) (fill w p)
        else .raise ⟨accessFaultCause W.acc, W.vaddr, some p⟩ (setWorld w)
      | .raise t w => .raise t (setWorld w)
      | .fatal => .fatal

variable {bare hit allowed host setWorld fill m} {m' : σ}

theorem translate_raise (h : W.translate bare hit allowed host setWorld fill m w = .raise t m') :
    (∃ p, t = ⟨accessFaultCause W.acc, W.vaddr, some p⟩) ∨
      (bare = false ∧ hit = none ∧ ∃ w', W.run w = .raise t w' ∧ m' = setWorld w') := by
  unfold translate at h
  cases bare with
  | true =>
    simp only [if_true] at h
    split at h <;> cases h
    exact .inl ⟨W.vaddr, rfl⟩
  | false =>
    cases hit with
    | some r => cases h
    | none =>
      cases hrun : W.run w with
      | ok p w' =>
        simp only [hrun, Bool.false_eq_true, if_false] at h
        split at h <;> cases h
        exact .inl ⟨p, rfl⟩
      | raise t' w' =>
        simp only [hrun, Bool.false_eq_true, if_false] at h
        cases h
        exact .inr ⟨rfl, rfl, w', rfl, rfl⟩
      | fatal =>
        simp only [hrun, Bool.false_eq_true, if_false] at h
        cases h

theorem translate_of_run (hrun : W.run w = .raise t w') :
    W.translate false none allowed host setWorld fill m w = .raise t (setWorld w') := by
  simp [translate, hrun]

end

end Walker

end Riscv

end Cemu
