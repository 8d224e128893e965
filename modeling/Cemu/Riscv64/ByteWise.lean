import Cemu.Lib.Sim
import Cemu.Mem.RamPage
import Cemu.Riscv64.PmpBytes
import Cemu.Riscv64.Tlb

/-!
# riscv64: an access and its bytes

A load or store of several bytes is translated and checked once, for its first byte. Inside
one page this is as good as doing each byte alone, as long as no PMP entry and no bus region
ends in the middle of it. The comparison goes through `locate`, the part of a translation
that does not depend on the size of the access.
-/

namespace Cemu.Rv64

open World RaiseM BitVec Outcome BusRegion

variable {D : Type}

/-! ### Addresses on one page -/

def OnPage (vaddr : BitVec 64) (size : Nat) : Prop := (vaddr &&& 0xfff).toNat + size ≤ 0x1000

instance (vaddr : BitVec 64) (size : Nat) : Decidable (OnPage vaddr size) :=
  inferInstanceAs (Decidable (_ ≤ _))

theorem pageOff_toNat (x : BitVec 64) : (x &&& 0xfff#64).toNat = x.toNat % 4096 :=
  Nat.and_two_pow_sub_one_eq_mod _ 12

section

variable {vaddr : BitVec 64} {size k : Nat} (hpage : OnPage vaddr size) (hk : k < size)

include hpage hk

theorem byteAt_toNat : (byteAt vaddr k).toNat = vaddr.toNat + k := by
  have hoff : vaddr.toNat % 4096 + size ≤ 4096 := pageOff_toNat vaddr ▸ hpage
  rw [byteAt, toNat_add, toNat_ofNat]
  omega

theorem byteAt_page : byteAt vaddr k >>> 12 = vaddr >>> 12 := by
  have hoff : vaddr.toNat % 4096 + size ≤ 4096 := pageOff_toNat vaddr ▸ hpage
  apply eq_of_toNat_eq
  rw [toNat_ushiftRight, toNat_ushiftRight, byteAt_toNat hpage hk]
  omega

theorem byteAt_off : byteAt vaddr k &&& 0xfff#64 = (vaddr &&& 0xfff#64) + .ofNat 64 k := by
  have hoff : vaddr.toNat % 4096 + size ≤ 4096 := pageOff_toNat vaddr ▸ hpage
  apply eq_of_toNat_eq
  rw [pageOff_toNat, byteAt_toNat hpage hk, toNat_add, pageOff_toNat, toNat_ofNat]
  omega

theorem frame_byteAt {frame : BitVec 64} (hframe : frame &&& 0xfff#64 = 0#64) :
    frame ||| (byteAt vaddr k &&& 0xfff#64) = byteAt (frame ||| (vaddr &&& 0xfff#64)) k := by
  have hdisjoint : ∀ x : BitVec 64, frame &&& (x &&& 0xfff#64) = 0#64 := by
    intro x
    rw [BitVec.and_comm x, ← BitVec.and_assoc, hframe]
    exact zero_and
  rw [← add_eq_or_of_and_eq_zero _ _ (hdisjoint _),
    ← add_eq_or_of_and_eq_zero _ _ (hdisjoint _), byteAt_off hpage hk, byteAt,
    BitVec.add_assoc]

end

theorem frame_off {frame : BitVec 64} (hframe : frame &&& 0xfff#64 = 0#64) (vaddr : BitVec 64) :
    (frame ||| (vaddr &&& 0xfff#64)) &&& 0xfff#64 = vaddr &&& 0xfff#64 := by
  rw [and_or_distrib_right, hframe, zero_or, BitVec.and_assoc, BitVec.and_self]

theorem pageBase_off (p : BitVec 64) : p &&& ~~~0xfff#64 &&& 0xfff#64 = 0#64 :=
  BitMask.and_and_eq_zero (by decide) p

theorem pageBase_or_off (p : BitVec 64) : p &&& ~~~0xfff#64 ||| (p &&& 0xfff#64) = p := by
  rw [← and_or_distrib_left, show ~~~0xfff#64 ||| 0xfff#64 = .allOnes 64 by decide, and_allOnes]

variable {size k : Nat} {vaddr paddr : BitVec 64}

theorem onPage_fits {p : BitVec 64} (hpage : OnPage p size) (htop : p &&& ~~~0xfff#64 ≠ topPage) :
    p.toNat + size < 2 ^ 64 := by
  have hbase := page_fits (pageBase_off p) htop
  have hoff : p.toNat % 4096 + size ≤ 4096 := pageOff_toNat p ▸ hpage
  have hsplit : p.toNat = (p &&& ~~~0xfff#64).toNat + p.toNat % 4096 := by
    have hadd : p &&& ~~~0xfff#64 &&& (p &&& 0xfff#64) = 0#64 := by
      rw [BitVec.and_comm p (0xfff#64), ← BitVec.and_assoc, pageBase_off]
      exact zero_and
    have := congrArg BitVec.toNat (pageBase_or_off p)
    rw [← add_eq_or_of_and_eq_zero _ _ hadd, toNat_add, pageOff_toNat] at this
    omega
  omega

theorem byteAt_frame (hpage : OnPage vaddr size) (hk : k < size)
    (hoff : paddr &&& 0xfff#64 = vaddr &&& 0xfff#64) :
    paddr &&& ~~~0xfff#64 ||| (byteAt vaddr k &&& 0xfff#64) = byteAt paddr k := by
  rw [frame_byteAt hpage hk (pageBase_off paddr), ← hoff, pageBase_or_off]

/-! ### The walk for a byte -/

abbrev SameCourse {σ α : Type} (R : α → α → Prop) :
    RaiseM TrapRec σ α → RaiseM TrapRec σ α → Prop :=
  RaiseM.Sim (fun _ _ => True) Eq R

theorem sameCourse_refl {σ α : Type} (m : RaiseM TrapRec σ α) : SameCourse Eq m m :=
  .refl (fun _ => trivial) m

theorem shiftLeft_pageOff (x : BitVec 64) : x <<< 12 &&& 0xfff#64 = 0#64 := by
  apply eq_of_toNat_eq
  rw [pageOff_toNat, toNat_shiftLeft, toNat_ofNat]
  omega

theorem leafPaddr_off {pte : BitVec 64} {level : Int} (h : leafPaddr vaddr pte level = some paddr) :
    paddr &&& 0xfff#64 = vaddr &&& 0xfff#64 := by
  have hframe : ∀ frame mask : BitVec 64, mask &&& 0xfff#64 = 0xfff#64 →
      (frame <<< 12 ||| (vaddr &&& mask)) &&& 0xfff#64 = vaddr &&& 0xfff#64 := by
    intro frame mask hmask
    rw [and_or_distrib_right, BitVec.and_assoc, hmask, shiftLeft_pageOff, zero_or]
  unfold leafPaddr at h
  simp only at h
  split at h
  · split at h
    · cases h
    · cases h
      exact hframe _ _ (offMask_pageOff _)
  · cases h
    exact hframe _ _ rfl

theorem walkFrom_sameCourse {vaddr' : BitVec 64} (hpage : vaddr' >>> 12 = vaddr >>> 12)
    (s : RiscvState) (acc : Acc) (n : Nat) (ppnBase pteAddr pte : BitVec 64) :
    SameCourse Eq (walkFrom s vaddr acc n ppnBase pteAddr pte : WorldM D Walk)
      (walkFrom s vaddr' acc n ppnBase pteAddr pte) := by
  induction n generalizing ppnBase pteAddr pte with
  | zero => exact .pure rfl
  | succ n ih =>
    rw [walkFrom, walkFrom, pteAddrAt_samePage hpage]
    refine (sameCourse_refl _).bind ?_
    rintro pte' _ rfl
    split
    · exact .raise trivial
    split
    · exact .pure rfl
    · exact ih _ _ _

/-- `b` is byte `k` of the physical access at `a`, which has the offset of `vaddr`. -/
def IsByteOf (vaddr : BitVec 64) (k : Nat) (a b : BitVec 64) : Prop :=
  a &&& 0xfff#64 = vaddr &&& 0xfff#64 ∧ b = byteAt a k

section

variable (hpage : OnPage vaddr size) (hk : k < size) (s : RiscvState) (acc : Acc) (eff : BitVec 8)

include hpage hk

theorem useLeaf_sameCourse (leaf : Walk) :
    SameCourse (IsByteOf vaddr k) (useLeaf s vaddr acc eff leaf : WorldM D (BitVec 64))
      (useLeaf s (byteAt vaddr k) acc eff leaf) := by
  unfold useLeaf
  split
  · exact .raise trivial
  cases adUpdate s acc leaf.pte with
  | none => exact .raise trivial
  | some new =>
    have hwrite : SameCourse Eq (writeBack vaddr acc leaf.pteAddr leaf.pte new : WorldM D Unit)
        (writeBack (byteAt vaddr k) acc leaf.pteAddr leaf.pte new) := by
      unfold writeBack
      split
      · exact .pure rfl
      refine (sameCourse_refl _).bind ?_
      rintro found _ rfl
      cases found with
      | none => exact .raise trivial
      | some r => exact sameCourse_refl _
    refine hwrite.bind ?_
    rintro _ _ rfl
    have hpages := byteAt_page hpage hk
    cases hp : leafPaddr vaddr new leaf.level with
    | none =>
      have hp' : leafPaddr (byteAt vaddr k) new leaf.level = none := by
        cases hq : leafPaddr (byteAt vaddr k) new leaf.level with
        | none => rfl
        | some q =>
          rw [leafPaddr_samePage hpages.symm hq] at hp
          cases hp
      rw [hp']
      exact .raise trivial
    | some p =>
      rw [leafPaddr_samePage hpages hp]
      have hoff := leafPaddr_off hp
      exact .pure ⟨hoff, byteAt_frame hpage hk hoff⟩

theorem walkPage_sameCourse :
    SameCourse (IsByteOf vaddr k) (walkPage s vaddr acc eff : WorldM D (BitVec 64))
      (walkPage s (byteAt vaddr k) acc eff) := by
  have hpages := byteAt_page hpage hk
  rw [walkPage, walkPage, isCanonical_samePage hpages]
  split
  · exact .raise trivial
  · refine (walkFrom_sameCourse hpages s acc _ _ _ _).bind ?_
    rintro leaf _ rfl
    exact useLeaf_sameCourse hpage hk s acc eff leaf

end

/-! ### The translation for a byte -/

inductive Via where
  | bare
  | cache
  | walk
  deriving DecidableEq, Repr

structure Located where
  paddr : BitVec 64
  host : Option HostPtr
  via : Via
  deriving DecidableEq, Repr

def locate (vaddr : BitVec 64) (acc : Acc) : RvM D Located := do
  let m ← RaiseM.get
  if isBare m.rs acc then pure ⟨vaddr, hostOf m.w vaddr, .bare⟩
  else
    match tlbLookup m.rs vaddr acc with
    | some e => pure ⟨e.pbase ||| (vaddr &&& 0xfff), e.host, .cache⟩
    | none => do
      let paddr ← onWorld fun s => walkPage s vaddr acc (effPriv s acc)
      let m ← RaiseM.get
      pure ⟨paddr, hostOf m.w paddr, .walk⟩

/-- The rest of it: the PMP check, which a cached translation skips, and the fill. -/
def letThrough (vaddr : BitVec 64) (size : Nat) (acc : Acc) (l : Located) :
    RvM D (BitVec 64 × Option HostPtr) := do
  let m ← RaiseM.get
  if l.via ≠ .cache ∧ riscvPmpAllowed m.rs l.paddr size acc m.rs.priv = false then
    raisePaddr (accessFaultCause acc) vaddr l.paddr
  else do
    if l.via = .walk then
      RaiseM.modify fun m => m.setRs (tlbFill m.rs vaddr acc l.paddr l.host)
    pure (l.paddr, l.host)

def Admits (s : RiscvState) (size : Nat) (acc : Acc) (l : Located) : Prop :=
  l.via = .cache ∨ riscvPmpAllowed s l.paddr size acc s.priv = true

instance (s : RiscvState) (size : Nat) (acc : Acc) (l : Located) :
    Decidable (Admits s size acc l) :=
  inferInstanceAs (Decidable (_ ∨ _))

def settle (vaddr : BitVec 64) (acc : Acc) (l : Located) (m : Machine D) : Machine D :=
  if l.via = .walk then m.setRs (tlbFill m.rs vaddr acc l.paddr l.host) else m

theorem letThrough_apply (vaddr : BitVec 64) (size : Nat) (acc : Acc) (l : Located)
    (m : Machine D) :
    letThrough vaddr size acc l m =
      if Admits m.rs size acc l then .ok (l.paddr, l.host) (settle vaddr acc l m)
      else .raise ⟨accessFaultCause acc, vaddr, some l.paddr⟩ m := by
  obtain ⟨paddr, host, via⟩ := l
  cases via <;> cases hpmp : riscvPmpAllowed m.rs paddr size acc m.rs.priv <;>
    simp [letThrough, Admits, settle, hpmp]

theorem riscvTranslate_eq_locate (vaddr : BitVec 64) (size : Nat) (acc : Acc) (m : Machine D) :
    riscvTranslate vaddr size acc m =
      (locate vaddr acc m).bind fun l m₁ => letThrough vaddr size acc l m₁ := by
  rw [riscvTranslate_apply, locate]
  simp only [bind_apply, get_apply, bind_ok]
  cases hbare : isBare m.rs acc with
  | true =>
    simp only [translateBare_apply, letThrough_apply]
    cases hpmp : riscvPmpAllowed m.rs vaddr size acc m.rs.priv <;> simp [Admits, settle, hpmp]
  | false =>
    simp only [Bool.false_eq_true, if_false]
    cases hl : tlbLookup m.rs vaddr acc with
    | some e => simp [letThrough_apply, Admits, settle]
    | none =>
      simp only [translateMiss_apply, bind_apply, onWorld_apply]
      cases hw : walkPage m.rs vaddr acc (effPriv m.rs acc) m.w with
      | ok p w =>
        cases hpmp : riscvPmpAllowed m.rs p size acc m.rs.priv <;>
          simp [letThrough_apply, Admits, settle]
      | raise t w => rfl
      | fatal => rfl

def TlbAligned (s : RiscvState) : Prop := ∀ i, (s.tlb i).pbase &&& 0xfff = 0

theorem tlbAligned_init (w : World D) (pc : BitVec 64) : TlbAligned (Machine.init w pc).rs :=
  fun _ => (by decide : (0 : BitVec 64) &&& 0xfff = 0)

theorem TlbAligned.move {m m' : Machine D} (h : TlbAligned m.rs) (hmove : Move m m') :
    TlbAligned m'.rs := by
  intro i
  obtain ⟨vaddr, size, acc, ht⟩ | rfl | ⟨htlb, -⟩ := hmove.cache
  · obtain ⟨-, -, htlb | ⟨paddr, -, htlb⟩⟩ := riscvTranslate_cache ht
    · rw [htlb]
      exact h i
    · rw [htlb, Function.update_apply]
      split
      · exact pageBase_off paddr
      · exact h i
  · exact h i
  · rw [htlb]
    exact h i

structure ByteLoc (vaddr : BitVec 64) (k : Nat) (l l' : Located) : Prop where
  paddr : IsByteOf vaddr k l.paddr l'.paddr
  host : l'.host = l.host
  via : l'.via = l.via

section

variable {vaddr : BitVec 64} {size k : Nat} (hpage : OnPage vaddr size) (hk : k < size)

include hpage hk

theorem IsByteOf.samePage {p q : BitVec 64} (h : IsByteOf vaddr k p q) : q >>> 12 = p >>> 12 := by
  have hp : OnPage p size := by
    have : (p &&& 0xfff#64).toNat + size ≤ 0x1000 := h.1 ▸ hpage
    exact this
  rw [h.2]
  exact byteAt_page hp hk

theorem IsByteOf.hostOf {p q : BitVec 64} (h : IsByteOf vaddr k p q) (w : World D) :
    hostOf w q = hostOf w p := by
  have hsame : q &&& ~~~0xfff#64 = p &&& ~~~0xfff#64 := by
    rw [and_pageMask, and_pageMask, h.samePage hpage hk]
  exact congrArg (busRamPage w.bus) hsame

theorem tlbLookup_byteAt (s : RiscvState) (acc : Acc) :
    tlbLookup s (byteAt vaddr k) acc = tlbLookup s vaddr acc := by
  have hmatch : ∀ e, tlbMatches s (byteAt vaddr k) acc e = tlbMatches s vaddr acc e := by
    intro e
    rw [tlbMatches, tlbMatches, byteAt_page hpage hk]
  simp only [tlbLookup, byteAt_page hpage hk, hmatch]

theorem locate_byteAt {m : Machine D} (halign : TlbAligned m.rs) (acc : Acc) :
    Outcome.Sim (fun _ _ => True) Eq (ByteLoc vaddr k) (locate vaddr acc m)
      (locate (byteAt vaddr k) acc m) := by
  have hself : IsByteOf vaddr k vaddr (byteAt vaddr k) := ⟨rfl, rfl⟩
  simp only [locate, bind_apply, get_apply, bind_ok, tlbLookup_byteAt hpage hk]
  cases isBare m.rs acc with
  | true => exact .ok ⟨hself, hself.hostOf hpage hk m.w, rfl⟩ rfl
  | false =>
    simp only [Bool.false_eq_true, if_false]
    cases hl : tlbLookup m.rs vaddr acc with
    | some e =>
      obtain ⟨i, rfl, -⟩ := tlbLookup_eq_some hl
      refine .ok ⟨⟨?_, frame_byteAt hpage hk (halign i)⟩, rfl, rfl⟩ rfl
      exact frame_off (halign i) vaddr
    | none =>
      simp only [bind_apply, onWorld_apply]
      have hwalk := walkPage_sameCourse hpage hk m.rs acc (effPriv m.rs acc) m.w m.w rfl
      generalize walkPage m.rs vaddr acc (effPriv m.rs acc) m.w = o at hwalk ⊢
      generalize walkPage m.rs (byteAt vaddr k) acc (effPriv m.rs acc) m.w = o' at hwalk ⊢
      cases hwalk with
      | ok hr hs =>
        subst hs
        exact .ok ⟨hr, hr.hostOf hpage hk _, rfl⟩ rfl
      | raise _ hs =>
        subst hs
        exact .raise trivial rfl
      | fatal => exact .fatal

theorem settle_byteAt {l l' : Located} (h : ByteLoc vaddr k l l') (acc : Acc) (m : Machine D) :
    settle (byteAt vaddr k) acc l' m = settle vaddr acc l m := by
  have hbase : l'.paddr &&& ~~~0xfff#64 = l.paddr &&& ~~~0xfff#64 := by
    rw [and_pageMask, and_pageMask, h.paddr.samePage hpage hk]
  have hentry : tlbEntryFor m.rs (byteAt vaddr k) acc l'.paddr l'.host =
      tlbEntryFor m.rs vaddr acc l.paddr l.host := by
    simp only [tlbEntryFor, byteAt_page hpage hk, h.host]
    exact congrArg (fun b => RiscvTlbEntry.mk _ b _ _ _ _ _ _ _ _ _) hbase
  rw [settle, settle, h.via, tlbFill, tlbFill, hentry, byteAt_page hpage hk]

end
variable {vaddr : BitVec 64} {acc : Acc} {m m₁ : Machine D}

theorem locate_frame (h : (locate vaddr acc m).state? = some m₁) :
    m₁.rs = m.rs ∧ m₁.cpu = m.cpu ∧ Walked m.rs m.w m₁.w := by
  have hself : Walked m.rs m.w m.w := .of_sameMem (.refl m.w)
  simp only [locate, bind_apply, get_apply, bind_ok] at h
  split at h
  · cases h
    exact ⟨rfl, rfl, hself⟩
  cases hl : tlbLookup m.rs vaddr acc with
  | some e =>
    rw [hl] at h
    cases h
    exact ⟨rfl, rfl, hself⟩
  | none =>
    rw [hl] at h
    have hwalk := walkPage_spec (D := D) m.rs vaddr acc (effPriv m.rs acc)
    simp only [bind_apply, onWorld_apply] at h
    cases hp : walkPage m.rs vaddr acc (effPriv m.rs acc) m.w with
    | fatal => rw [hp] at h; cases h
    | raise t w =>
      rw [hp] at h
      cases h
      exact ⟨rfl, rfl, hwalk.of_raise hp⟩
    | ok p w =>
      rw [hp] at h
      cases h
      exact ⟨rfl, rfl, hwalk.of_ok hp⟩

@[simp] theorem settle_w (vaddr : BitVec 64) (acc : Acc) (l : Located) (m : Machine D) :
    (settle vaddr acc l m).w = m.w := by
  unfold settle
  split <;> rfl

variable {l : Located}

theorem riscvTranslate_of_locate (h : locate vaddr acc m = .ok l m₁) (size : Nat) :
    riscvTranslate vaddr size acc m =
      if Admits m.rs size acc l then .ok (l.paddr, l.host) (settle vaddr acc l m₁)
      else .raise ⟨accessFaultCause acc, vaddr, some l.paddr⟩ m₁ := by
  have hrs := (locate_frame (show (locate vaddr acc m).state? = some m₁ by rw [h]; rfl)).1
  rw [riscvTranslate_eq_locate, h, bind_ok, letThrough_apply, hrs]

theorem riscvTranslate_byteAt {size k : Nat} (hpage : OnPage vaddr size) (hk : k < size)
    (halign : TlbAligned m.rs) (h : locate vaddr acc m = .ok l m₁) :
    riscvTranslate (byteAt vaddr k) 1 acc m =
      if Admits m.rs 1 acc { l with paddr := byteAt l.paddr k } then
        .ok (byteAt l.paddr k, l.host) (settle vaddr acc l m₁)
      else .raise ⟨accessFaultCause acc, byteAt vaddr k, some (byteAt l.paddr k)⟩ m₁ := by
  obtain ⟨l', m', hl', hbyte, rfl⟩ := (h ▸ locate_byteAt hpage hk halign acc).ok_left
  rw [riscvTranslate_of_locate hl', settle_byteAt hpage hk hbyte]
  have hloc : l' = { l with paddr := byteAt l.paddr k } := by
    obtain ⟨p', host', via'⟩ := l'
    obtain ⟨⟨-, rfl⟩, rfl, rfl⟩ := hbyte
    rfl
  rw [hloc]

theorem locate_onPage {size : Nat} (hpage : OnPage vaddr size) (hpos : 0 < size)
    (halign : TlbAligned m.rs) (h : locate vaddr acc m = .ok l m₁) : OnPage l.paddr size := by
  obtain ⟨l', -, -, hbyte, -⟩ := (h ▸ locate_byteAt hpage hpos halign acc).ok_left
  have : (l.paddr &&& 0xfff#64).toNat + size ≤ 0x1000 := hbyte.paddr.1 ▸ hpage
  exact this

/-! ### The bus for a byte -/

variable {w : World D}

theorem regionAt_eq_some {addr : BitVec 64} {len : Nat} {r : BusRegion} :
    w.regionAt addr len = some r ↔ ¬ ~~~addr < .ofNat 64 len ∧
      ∃ i, scanRegions w.bus.regions addr (.ofNat 64 len) = some (i, r) := by
  rw [World.regionAt]
  split
  · next h => simp [h]
  · next h => simp [h]

section

variable {p : BitVec 64} {size : Nat} (hpage : OnPage p size)

include hpage

theorem regionAt_of_bytes {r : BusRegion} (hpos : 0 < size)
    (hbytes : ∀ k < size, w.regionAt (byteAt p k) 1 = some r) :
    p.toNat + size < 2 ^ 64 ∧ w.regionAt p size = some r := by
  obtain ⟨-, i, hfirst⟩ := regionAt_eq_some.1 (hbytes 0 hpos)
  obtain ⟨hlast, j, hscan⟩ := regionAt_eq_some.1 (hbytes (size - 1) (by omega))
  have hbyte := byteAt_toNat hpage (show size - 1 < size by omega)
  have hfit : p.toNat + size < 2 ^ 64 := by bv_omega
  refine ⟨hfit, regionAt_eq_some.2 ⟨by bv_omega, i, ?_⟩⟩
  obtain ⟨hi, hcov, hmin⟩ := (firstLeast_eq_iff _ _).1 hfirst
  have hcov' := ((firstLeast_eq_iff _ _).1 hscan).2.1
  rw [covers_eq_true] at hcov hcov'
  simp only [byteAt] at hcov hcov' hmin
  refine (firstLeast_eq_iff _ _).2 ⟨hi, ?_, fun a b ha hb => hmin a b ha ?_⟩
  · rw [covers_eq_true]
    constructor <;> bv_omega
  · -- a region that covers the access covers its first byte
    rw [covers_eq_true] at hb ⊢
    constructor <;> bv_omega

theorem regionAt_none_of_byte {k : Nat} (hk : k < size)
    (hbyte : w.regionAt (byteAt p k) 1 = none) : w.regionAt p size = none := by
  have hle : size ≤ 4096 := by
    rw [OnPage] at hpage
    omega
  have hnat := byteAt_toNat hpage hk
  by_contra hsome
  obtain ⟨r, hr⟩ := Option.ne_none_iff_exists'.1 hsome
  obtain ⟨hwrap, i, hscan⟩ := regionAt_eq_some.1 hr
  obtain ⟨hi, hcov, -⟩ := (firstLeast_eq_iff _ _).1 hscan
  rw [World.regionAt, if_neg (by bv_omega), Option.map_eq_none_iff, scanRegions,
    firstLeast_eq_iff] at hbyte
  have hout := hbyte r (List.mem_of_getElem? hi)
  rw [← Bool.not_eq_true, covers_eq_true] at hout
  rw [covers_eq_true] at hcov
  apply hout
  constructor <;> bv_omega

end

/-! ### Faults -/

theorem Walked.trans_sameMem {s : RiscvState} {u v w : World D} (h : Walked s u v)
    (h' : SameMem v w) : Walked s u w :=
  ⟨h.toSameBoard.trans h'.toSameBoard, h.mem.imp (h'.mem.trans ·) fun ⟨a, ha, had⟩ =>
    ⟨a, ha, h'.mem ▸ had⟩⟩

/-- An access that is found lies below the topmost page of the physical address space, where
the sums of the PMP check wrap. -/
def BelowTop (m : Machine D) (vaddr : BitVec 64) (acc : Acc) : Prop :=
  ∀ l m₁, locate vaddr acc m = .ok l m₁ → l.paddr &&& ~~~0xfff ≠ topPage

/-- Where the translation of a byte raises, that of the access does; where it does not, the
access raises as well or is translated along with its byte. -/
theorem translate_byte_cases {vaddr : BitVec 64} {size k : Nat} (hpage : OnPage vaddr size)
    (hk : k < size) {acc : Acc} {m : Machine D} (halign : TlbAligned m.rs)
    (htop : BelowTop m vaddr acc) :
    riscvTranslate (byteAt vaddr k) 1 acc m = .fatal ∨
    (∃ t m', riscvTranslate vaddr size acc m = .raise t m' ∧ Walked m.rs m.w m'.w) ∨
    ∃ (l : Located) (m2 : Machine D), Walked m.rs m.w m2.w ∧ OnPage l.paddr size ∧
      riscvTranslate vaddr size acc m = .ok (l.paddr, l.host) m2 ∧
      riscvTranslate (byteAt vaddr k) 1 acc m = .ok (byteAt l.paddr k, l.host) m2 := by
  have hsim := locate_byteAt hpage hk halign acc
  cases hloc : locate vaddr acc m with
  | fatal =>
    rw [hloc] at hsim
    generalize hb : locate (byteAt vaddr k) acc m = o at hsim
    cases hsim
    exact .inl (by rw [riscvTranslate_eq_locate, hb]; rfl)
  | raise t m₁ =>
    have hframe := locate_frame (show (locate vaddr acc m).state? = some m₁ by rw [hloc]; rfl)
    exact .inr (.inl ⟨t, m₁, by rw [riscvTranslate_eq_locate, hloc]; rfl, hframe.2.2⟩)
  | ok l m₁ =>
    have hframe := locate_frame (show (locate vaddr acc m).state? = some m₁ by rw [hloc]; rfl)
    have hon := locate_onPage hpage (by omega) halign hloc
    have hwide := riscvTranslate_of_locate hloc size
    have hbyte := riscvTranslate_byteAt hpage hk halign hloc
    by_cases hgrant : Admits m.rs size acc l
    · rw [if_pos hgrant] at hwide
      have hgrant' : Admits m.rs 1 acc { l with paddr := byteAt l.paddr k } := by
        refine hgrant.imp_right fun hpmp => ?_
        by_contra hdenied
        have hfit := onPage_fits hon (htop l m₁ hloc)
        rw [Bool.not_eq_true] at hdenied
        rw [riscvPmpAllowed_denied hfit hk hdenied] at hpmp
        cases hpmp
      rw [if_pos hgrant'] at hbyte
      exact .inr (.inr ⟨l, _, by rw [settle_w]; exact hframe.2.2, hon, hwide, hbyte⟩)
    · rw [if_neg hgrant] at hwide
      exact .inr (.inl ⟨_, m₁, hwide, hframe.2.2⟩)

end Cemu.Rv64
