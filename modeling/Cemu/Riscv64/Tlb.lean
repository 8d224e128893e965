import Cemu.Riscv64.Moves
import Cemu.Riscv64.PureWalk

/-!
# riscv64: the translation cache

A hit skips the walk, the permission check and the PMP check. The first two are safe: along
every run in which the tables of live entries are written by the walker only, a live entry
holds what a walk would find now. The PMP check is not, since an entry is for a page and the
check is for the bytes of one access. `tlb_transparent_iff` says exactly when a translation
is the one a machine with an empty cache would give.
-/

namespace Cemu.Rv64

open World RaiseM Relation

variable {D : Type}

/-! ### What a live entry promises -/

def RiscvTlbEntry.ctx (e : RiscvTlbEntry) : RiscvState :=
  { riscvInit with satp := e.satp, mstatus := e.mstatus, menvcfg := e.menvcfg }

def EntryOk (w : World D) (e : RiscvTlbEntry) : Prop :=
  ∃ vaddr paddr : BitVec 64, vaddr >>> 12 = e.vpn ∧ Maps e.ctx w vaddr e.acc e.eff paddr ∧
    e.pbase = paddr &&& ~~~0xfff ∧ e.host = hostOf w paddr

def entryWords (w : World D) (e : RiscvTlbEntry) : List (BitVec 64) :=
  tableWords e.ctx w (e.vpn <<< 12)

variable {w w' : World D} {e : RiscvTlbEntry} {s : RiscvState} {vaddr paddr : BitVec 64} {acc : Acc}
  {m m' : Machine D}

theorem EntryOk.grow (hg : Grows w w') (h : EntryOk w e) : EntryOk w' e := by
  obtain ⟨vaddr, paddr, hvpn, hmaps, hbase, hhost⟩ := h
  refine ⟨vaddr, paddr, hvpn, hmaps.grow hg, hbase, ?_⟩
  rw [hhost, hostOf, hostOf, hg.ramPage]

theorem EntryOk.frozen (hregions : w'.bus.regions = w.bus.regions)
    (hwords : ∀ a ∈ entryWords w e, w'.ramWord a = w.ramWord a) (h : EntryOk w e) :
    EntryOk w' e := by
  obtain ⟨vaddr, paddr, hvpn, hmaps, hbase, hhost⟩ := h
  have hpage : (e.vpn <<< 12) >>> 12 = vaddr >>> 12 := by
    rw [← hvpn, ← and_pageMask, BitMask.and_ushiftRight (by decide)]
  refine ⟨vaddr, paddr, hvpn, hmaps.frozen fun a ha => hwords a ?_, hbase, ?_⟩
  · rwa [entryWords, tableWords, (ramWalk_samePage hpage _ _ _).2]
  · rw [hhost, hostOf, hostOf, busRamPage, busRamPage, hregions]

theorem entryOk_fill (hram : ∀ a ∈ tableWords s w vaddr, InRam w a)
    (h : walkPage s vaddr acc (effPriv s acc) w = .ok paddr w') :
    EntryOk w' (tlbEntryFor s vaddr acc paddr (hostOf w' paddr)) := by
  have hctx : SameCtx s (tlbEntryFor s vaddr acc paddr (hostOf w' paddr)).ctx := by
    refine ⟨rfl, ?_, ?_⟩
    · exact BitVec.and_assoc ..
    · exact BitVec.and_assoc ..
  exact ⟨vaddr, paddr, rfl, (maps_of_walkPage hram h).congr hctx, rfl, rfl⟩

theorem tlbLookup_eq_some (h : tlbLookup s vaddr acc = some e) :
    ∃ i, e = s.tlb i ∧ e.gen = s.tlbGen ∧ e.vpn = vaddr >>> 12 ∧ e.acc = acc ∧
      e.eff = effPriv s acc ∧ SameCtx e.ctx s := by
  obtain ⟨i, rfl, hmatch⟩ : ∃ i, e = s.tlb i ∧ tlbMatches s vaddr acc e = true := by
    simp only [tlbLookup] at h
    split at h
    · next hm =>
      cases h
      exact ⟨_, rfl, hm⟩
    split at h
    · next hm =>
      cases h
      exact ⟨_, rfl, hm⟩
    · cases h
  simp only [tlbMatches, Bool.and_eq_true, decide_eq_true_eq] at hmatch
  obtain ⟨⟨⟨⟨⟨⟨⟨⟨hgen, hvpn⟩, hacc⟩, hsatp⟩, -⟩, heff⟩, hstatus⟩, hmenvcfg⟩, -⟩ := hmatch
  refine ⟨i, rfl, hgen, hvpn, hacc, heff, hsatp.symm, ?_, ?_⟩
  · simp only [RiscvTlbEntry.ctx, hstatus, BitVec.and_assoc, BitVec.and_self]
  · simp only [RiscvTlbEntry.ctx, hmenvcfg, BitVec.and_assoc, BitVec.and_self]

theorem EntryOk.maps_of_lookup (h : EntryOk w e) (hl : tlbLookup s vaddr acc = some e) :
    Maps s w vaddr acc (effPriv s acc) (e.pbase ||| (vaddr &&& 0xfff)) ∧
      e.host = hostOf w (e.pbase ||| (vaddr &&& 0xfff)) := by
  obtain ⟨v, paddr, hvpn, hmaps, hbase, hhost⟩ := h
  obtain ⟨i, -, -, hvpn', hacc, heff, hctx⟩ := tlbLookup_eq_some hl
  have hmaps' := (hmaps.samePage (hvpn'.symm.trans hvpn.symm)).congr hctx
  rw [hacc, heff, ← hbase] at hmaps'
  refine ⟨hmaps', ?_⟩
  have hpage : (e.pbase ||| (vaddr &&& 0xfff#64)) &&& ~~~0xfff#64 = paddr &&& ~~~0xfff#64 := by
    rw [BitVec.and_or_distrib_right, BitMask.and_and_eq_zero (by decide),
      BitVec.or_zero, hbase, BitVec.and_assoc]
    rfl
  rw [hhost, hostOf]
  exact congrArg _ hpage.symm

/-! ### Which moves touch the cache -/

theorem riscvTrap_cache (pc : BitVec 64) (s : RiscvState) (cause tval : BitVec 64) :
    (riscvTrap pc s cause tval).2.tlb = s.tlb ∧
      (riscvTrap pc s cause tval).2.tlbGen = s.tlbGen := by
  unfold riscvTrap
  split <;> exact ⟨rfl, rfl⟩

theorem Move.cache (h : Move m m') :
    (∃ vaddr size acc, (riscvTranslate vaddr size acc m).state? = some m') ∨
    m' = m.setRs { m.rs with tlbGen := m.rs.tlbGen + 1 } ∨
    (m'.rs.tlb = m.rs.tlb ∧ m'.rs.tlbGen = m.rs.tlbGen) := by
  cases h with
  | still hs =>
    cases hs with
    | translate vaddr size acc ht => exact .inl ⟨vaddr, size, acc, ht⟩
    | _ => exact .inr (.inr ⟨rfl, rfl⟩)
  | outside hrs => exact .inr (.inr ⟨by rw [hrs], by rw [hrs]⟩)
  | csr hw =>
    obtain ⟨-, rfl | rfl | ⟨c, -, hc⟩⟩ := riscvCsrWrite_eq_some hw
    · exact .inr (.inr ⟨rfl, rfl⟩)
    · exact .inr (.inr ⟨rfl, rfl⟩)
    · exact .inr (.inr ((csrWrite_kept hc).1))
  | sfence => exact .inr (.inl rfl)
  | interrupt =>
    refine .inr (.inr ?_)
    unfold riscvDeliverInterrupt
    simp only
    split
    · exact riscvTrap_cache _ _ _ _
    · exact ⟨rfl, rfl⟩
  | trap t => exact .inr (.inr (riscvTrap_cache _ _ _ _))
  | _ => exact .inr (.inr ⟨rfl, rfl⟩)

theorem tlbFill_tlb (s : RiscvState) (vaddr : BitVec 64) (acc : Acc) (paddr : BitVec 64)
    (host : Option HostPtr) :
    (tlbFill s vaddr acc paddr host).tlb =
      Function.update s.tlb (tlbVictim s (tlbBase (vaddr >>> 12) acc))
        (tlbEntryFor s vaddr acc paddr host) := rfl

theorem riscvTranslate_cache {size : Nat} (h : (riscvTranslate vaddr size acc m).state? = some m') :
    m'.rs.tlbGen = m.rs.tlbGen ∧ Grows m.w m'.w ∧
      (m'.rs.tlb = m.rs.tlb ∨ ∃ paddr, walkPage m.rs vaddr acc (effPriv m.rs acc) m.w
          = .ok paddr m'.w ∧ m'.rs.tlb =
            Function.update m.rs.tlb (tlbVictim m.rs (tlbBase (vaddr >>> 12) acc))
              (tlbEntryFor m.rs vaddr acc paddr (hostOf m'.w paddr))) := by
  have hself : Grows m.w m.w := .of_sameMem (.refl m.w)
  rw [riscvTranslate_apply] at h
  split at h
  · rw [translateBare_apply] at h
    split at h <;> cases h <;> exact ⟨rfl, hself, .inl rfl⟩
  split at h
  · cases h
    exact ⟨rfl, hself, .inl rfl⟩
  rw [translateMiss_apply] at h
  have hwalk := walkPage_spec (D := D) m.rs vaddr acc (effPriv m.rs acc)
  cases hp : walkPage m.rs vaddr acc (effPriv m.rs acc) m.w with
  | fatal => rw [hp] at h; cases h
  | raise t w =>
    rw [hp] at h
    cases h
    exact ⟨rfl, (hwalk.of_raise hp).grows, .inl rfl⟩
  | ok paddr w =>
    rw [hp] at h
    simp only at h
    split at h <;> cases h
    · exact ⟨rfl, (hwalk.of_ok hp).grows, .inr ⟨paddr, rfl, tlbFill_tlb ..⟩⟩
    · exact ⟨rfl, (hwalk.of_ok hp).grows, .inl rfl⟩

/-! ### Generations -/

def Counted (m m' : Machine D) : Prop := Move m m' ∧ m.rs.tlbGen ≤ m'.rs.tlbGen

def fence (m : Machine D) : Machine D := m.setRs { m.rs with tlbGen := m.rs.tlbGen + 1 }

/-- The cache is empty: the machine was just reset, or a fence after some run has just begun
a new generation. -/
inductive Fresh : Machine D → Prop
  | reset (w : World D) (pc : BitVec 64) : Fresh (Machine.init w pc)
  | fence {w : World D} {pc : BitVec 64} {m : Machine D}
      (hrun : ReflTransGen Counted (Machine.init w pc) m) (h : m.rs.tlbGen + 1 ≠ 0) :
      Fresh (fence m)

theorem gen_le_of_run {pc : BitVec 64} (hrun : ReflTransGen Counted (.init w pc) m) (i : Nat) :
    (m.rs.tlb i).gen ≤ m.rs.tlbGen := by
  induction hrun with
  | refl => exact (by decide : 0 ≤ 1)
  | @tail b c _ hmove ih =>
    obtain ⟨hmove, hle⟩ := hmove
    obtain ⟨vaddr, size, acc, ht⟩ | rfl | ⟨htlb, -⟩ := hmove.cache
    · obtain ⟨hgen, -, htlb | ⟨paddr, -, htlb⟩⟩ := riscvTranslate_cache ht
      · rw [htlb, hgen]
        exact ih
      · rw [htlb, hgen, Function.update_apply]
        split
        · exact BitVec.le_refl _
        · exact ih
    · exact BitVec.le_trans ih hle
    · rw [htlb]
      exact BitVec.le_trans ih hle

theorem Fresh.dead (h : Fresh m) (i : Nat) : (m.rs.tlb i).gen ≠ m.rs.tlbGen := by
  cases h with
  | reset => exact (by decide : (0 : BitVec 64) ≠ 1)
  | @fence w pc m hrun h =>
    have hle := gen_le_of_run hrun i
    have hlt : (m.rs.tlb i).gen < m.rs.tlbGen + 1 := by bv_omega
    exact BitVec.ne_of_lt hlt

/-! ### Calm runs -/

def TlbOk (m : Machine D) : Prop :=
  ∀ i, (m.rs.tlb i).gen = m.rs.tlbGen → EntryOk m.w (m.rs.tlb i)

/-- The cache, the bus map and the tables behind the live entries are as they were. -/
structure Frozen (m m' : Machine D) : Prop where
  tlb : m'.rs.tlb = m.rs.tlb
  gen : m'.rs.tlbGen = m.rs.tlbGen
  regions : m'.w.bus.regions = m.w.bus.regions
  words : ∀ i, (m.rs.tlb i).gen = m.rs.tlbGen → ∀ a ∈ entryWords m.w (m.rs.tlb i),
    m'.w.ramWord a = m.w.ramWord a

/-- A move under which the cache must stay transparent: a translation through tables in
RAM, or a move that leaves the bus map and the tables of live entries alone. -/
inductive Calm : Machine D → Machine D → Prop
  | translate {m m' : Machine D} (vaddr : BitVec 64) (size : Nat) (acc : Acc)
      (h : (riscvTranslate vaddr size acc m).state? = some m')
      (hram : ∀ a ∈ tableWords m.rs m.w vaddr, InRam m.w a) : Calm m m'
  | other {m m' : Machine D} (h : Move m m') (hfrozen : Frozen m m') : Calm m m'

theorem TlbOk.calm (hok : TlbOk m) (h : Calm m m') : TlbOk m' := by
  intro i
  cases h with
  | translate vaddr size acc h hram =>
    obtain ⟨hgen, hg, htlb | ⟨paddr, hwalk, htlb⟩⟩ := riscvTranslate_cache h
    · rw [htlb, hgen]
      exact fun hlive => (hok i hlive).grow hg
    · rw [htlb, hgen, Function.update_apply]
      split
      · exact fun _ => entryOk_fill hram hwalk
      · exact fun hlive => (hok i hlive).grow hg
  | other h hfrozen =>
    rw [hfrozen.tlb, hfrozen.gen]
    exact fun hlive => (hok i hlive).frozen hfrozen.regions (hfrozen.words i hlive)

theorem tlbOk_of_run {m0 : Machine D} (hstart : Fresh m0) (hrun : ReflTransGen Calm m0 m) :
    TlbOk m := by
  induction hrun with
  | refl => exact fun i hlive => absurd hlive (hstart.dead i)
  | tail _ hstep ih => exact ih.calm hstep

/-! ### Transparency -/

def flushTlb (s : RiscvState) : RiscvState :=
  { s with tlb := fun i => { s.tlb i with gen := s.tlbGen - 1 } }

/-- What the caller of a translation learns: the physical address and the host page, or the
cause and trap value. -/
def answer {σ : Type} :
    Outcome TrapRec σ (BitVec 64 × Option HostPtr) →
      Option (Except (BitVec 64 × BitVec 64) (BitVec 64 × Option HostPtr))
  | .ok a _ => some (.ok a)
  | .raise t _ => some (.error (t.cause, t.tval))
  | .fatal => none

/-- If the access hits, then PMP as it is now allows the access in its whole length, and the
reads of the table words. -/
def HitAllowed (m : Machine D) (vaddr : BitVec 64) (size : Nat) (acc : Acc) : Prop :=
  isBare m.rs acc = false → ∀ e ∈ tlbLookup m.rs vaddr acc,
    riscvPmpAllowed m.rs (e.pbase ||| (vaddr &&& 0xfff)) size acc m.rs.priv = true ∧
      WordsAllowed m.rs (tableWords m.rs m.w vaddr)

instance (m : Machine D) (vaddr : BitVec 64) (size : Nat) (acc : Acc) :
    Decidable (HitAllowed m vaddr size acc) :=
  inferInstanceAs (Decidable (_ = _ → ∀ e ∈ tlbLookup m.rs vaddr acc, _ = _ ∧ WordsAllowed _ _))

theorem tlbLookup_flushTlb (s : RiscvState) (vaddr : BitVec 64) (acc : Acc) :
    tlbLookup (flushTlb s) vaddr acc = none := by
  have hdead : ∀ i, tlbMatches (flushTlb s) vaddr acc ((flushTlb s).tlb i) = false := by
    intro i
    have : ¬ s.tlbGen - 1 = s.tlbGen := by bv_omega
    simp only [tlbMatches, flushTlb, this, decide_false, Bool.false_and]
  simp only [tlbLookup, hdead, Bool.false_eq_true, if_false]

theorem sameWalk_flushTlb (s : RiscvState) : SameWalk s (flushTlb s) where
  cfg := rfl
  addr := rfl
  satp := rfl
  status := rfl
  menvcfg := rfl

section

variable (m : Machine D) (vaddr : BitVec 64) (size : Nat) (acc : Acc)

theorem answer_bare_flushTlb :
    answer (translateBare vaddr size acc (m.setRs (flushTlb m.rs))) =
      answer (translateBare vaddr size acc m) := by
  rw [translateBare_apply, translateBare_apply, setRs_rs, (sameWalk_flushTlb m.rs).pmpAllowed]
  change answer (if riscvPmpAllowed m.rs vaddr size acc m.rs.priv = true then _ else _) = _
  split <;> rfl

/-- A miss answers with what the walk finds, cut down by the final PMP check; the content of
the cache does not enter. -/
theorem answer_miss (eff : BitVec 8) :
    answer (translateMiss vaddr size acc eff m) = match walkPage m.rs vaddr acc eff m.w with
      | .ok paddr w => some (if riscvPmpAllowed m.rs paddr size acc m.rs.priv
          then .ok (paddr, hostOf w paddr) else .error (accessFaultCause acc, vaddr))
      | .raise t _ => some (.error (t.cause, t.tval))
      | .fatal => none := by
  rw [translateMiss_apply]
  cases walkPage m.rs vaddr acc eff m.w with
  | ok paddr w =>
    simp only
    split <;> rfl
  | raise t w => rfl
  | fatal => rfl

theorem answer_miss_flushTlb (eff : BitVec 8) :
    answer (translateMiss vaddr size acc eff (m.setRs (flushTlb m.rs))) =
      answer (translateMiss vaddr size acc eff m) := by
  rw [answer_miss, answer_miss, setRs_rs, (sameWalk_flushTlb m.rs).walkPage]
  simp only [(sameWalk_flushTlb m.rs).pmpAllowed]
  rfl

end

/-- What the tables map is the answer of a miss exactly when PMP allows the access and the
walk. -/
theorem answer_miss_of_maps {eff : BitVec 8} (hmaps : Maps m.rs m.w vaddr acc eff paddr)
    (size : Nat) :
    some (.ok (paddr, hostOf m.w paddr)) = answer (translateMiss vaddr size acc eff m) ↔
      riscvPmpAllowed m.rs paddr size acc m.rs.priv = true ∧
        WordsAllowed m.rs (tableWords m.rs m.w vaddr) := by
  rw [answer_miss]
  constructor
  · intro h
    cases hwalk : walkPage m.rs vaddr acc eff m.w with
    | ok p w' =>
      rw [hwalk] at h
      cases hpmp : riscvPmpAllowed m.rs p size acc m.rs.priv with
      | false => simp [hpmp] at h
      | true =>
        simp only [hpmp, if_true, Option.some.injEq, Except.ok.injEq, Prod.mk.injEq] at h
        exact ⟨h.1 ▸ hpmp, hmaps.wordsAllowed hwalk⟩
    | raise t w' => simp [hwalk] at h
    | fatal => simp [hwalk] at h
  · rintro ⟨hpmp, hwords⟩
    obtain ⟨w', hwalk, hsame⟩ := hmaps.walkPage hwords
    rw [hwalk]
    simp only [hpmp, if_true]
    rw [hostOf, hostOf, hsame.ramPage]

/-- In every state in which neither the bus map nor the tables have changed since the last
new generation, the cache is transparent for an access exactly when `HitAllowed` holds of
it. -/
theorem tlb_transparent_iff {m₀ m : Machine D} (hstart : Fresh m₀)
    (hrun : ReflTransGen Calm m₀ m) (vaddr : BitVec 64) (size : Nat) (acc : Acc) :
    answer (riscvTranslate vaddr size acc m) =
        answer (riscvTranslate vaddr size acc (m.setRs (flushTlb m.rs))) ↔
      HitAllowed m vaddr size acc := by
  have hok := tlbOk_of_run hstart hrun
  have hbare : isBare (flushTlb m.rs) acc = isBare m.rs acc := rfl
  have heff : effPriv (flushTlb m.rs) acc = effPriv m.rs acc := rfl
  rw [riscvTranslate_apply, riscvTranslate_apply, setRs_rs, hbare, heff, tlbLookup_flushTlb,
    HitAllowed]
  cases isBare m.rs acc with
  | true => simp [answer_bare_flushTlb]
  | false =>
    simp only [Bool.false_eq_true, if_false, answer_miss_flushTlb]
    cases hl : tlbLookup m.rs vaddr acc with
    | none => simp
    | some e =>
      obtain ⟨i, rfl, hlive, -⟩ := tlbLookup_eq_some hl
      obtain ⟨hmaps, hhost⟩ := (hok i hlive).maps_of_lookup hl
      rw [answer, hhost, answer_miss_of_maps hmaps size]
      simp

/-! ### A page with a hole in it -/

def csrw (addr val : BitVec 64) (m : Machine D) : Machine D :=
  match riscvCsrWrite m.rs addr val 0 with
  | some rs => m.setRs rs
  | none => m

theorem calm_csrw (addr val : BitVec 64) (m : Machine D) : Calm m (csrw addr val m) := by
  unfold csrw
  split
  · next rs h =>
    have hcache : rs.tlb = m.rs.tlb ∧ rs.tlbGen = m.rs.tlbGen := by
      obtain ⟨-, rfl | rfl | ⟨c, -, hc⟩⟩ := riscvCsrWrite_eq_some h
      · exact ⟨rfl, rfl⟩
      · exact ⟨rfl, rfl⟩
      · exact (csrWrite_kept hc).1
    exact .other (.csr h) ⟨hcache.1, hcache.2, rfl, fun _ _ _ _ => rfl⟩
  · exact .other (.outside rfl) ⟨rfl, rfl, rfl, fun _ _ _ _ => rfl⟩

theorem calm_mret (h : m.rs.priv = kPrivMachine) : Calm m (m.setRs (riscvMret m.rs).2) :=
  .other (.mret m h) ⟨rfl, rfl, rfl, fun _ _ _ _ => rfl⟩

/-- An Sv39 root table at the start of RAM that maps the third gigabyte to itself, with every
permission and with A and D set. -/
def gigapage : ByteMem := ByteMem.store (fun _ => 0) 0x10 8 0x200000CF

/-- PMP entry 0 denies the 16 bytes at `0x80001010`, entry 1 allows the rest; paging is on. -/
def holeMachine : Machine Unit :=
  csrw 0x300 (1#64 <<< 11) <| csrw 0x180 0x8000000000080000 <| csrw 0x3A0 0x1f18 <|
    csrw 0x3B1 (~~~0) <| csrw 0x3B0 0x20000405 <| Machine.init (World.dram gigapage) 0x80000000

def holeCached : Machine Unit :=
  let m := holeMachine.setRs (riscvMret holeMachine.rs).2
  ((riscvTranslate 0x80001000 8 .read m).state?).getD m

theorem holeCached_reachable :
    ReflTransGen Calm (Machine.init (World.dram gigapage) 0x80000000) holeCached := by
  have hcsr : ReflTransGen Calm (Machine.init (World.dram gigapage) 0x80000000) holeMachine :=
    ((((ReflTransGen.single (calm_csrw _ _ _)).tail (calm_csrw _ _ _)).tail
      (calm_csrw _ _ _)).tail (calm_csrw _ _ _)).tail (calm_csrw _ _ _)
  have hmachine : holeMachine.rs.priv = kPrivMachine := by decide +kernel
  refine (hcsr.tail (calm_mret hmachine)).tail ?_
  refine .translate 0x80001000 8 .read ?_ ?_
  · obtain ⟨m, hm⟩ := Option.isSome_iff_exists.1 (show (riscvTranslate 0x80001000 8 .read
      (holeMachine.setRs (riscvMret holeMachine.rs).2)).state?.isSome = true by decide +kernel)
    rw [holeCached, hm]
    rfl
  · -- one word is read, and the only region there is is RAM
    have hwords : tableWords (riscvMret holeMachine.rs).2 holeMachine.w 0x80001000
        = [0x80000010] := by decide +kernel
    intro a ha r hr
    rw [setRs_rs, setRs_w, hwords, List.mem_singleton] at ha
    subst ha
    have hregion : (holeMachine.w.regionAt 0x80000010 8).map (·.ops) = some .kRamOps := by
      decide +kernel
    rw [setRs_w] at hr
    rw [hr] at hregion
    exact Option.some.inj hregion

theorem holeCached_hitAllowed : HitAllowed holeCached 0x80001000 8 .read := by
  have hbase : (tlbLookup holeCached.rs 0x80001000 .read).map (·.pbase) = some 0x80001000 := by
    decide +kernel
  have hwords : tableWords holeCached.rs holeCached.w 0x80001000 = [0x80000010] := by
    decide +kernel
  intro _ e he
  rw [Option.mem_def.1 he] at hbase
  have hpage : e.pbase = 0x80001000 := Option.some.inj hbase
  rw [hwords, hpage, WordsAllowed, List.forall_mem_singleton]
  exact ⟨by decide +kernel, by decide +kernel⟩

theorem tlb_transparent_iff_hole :
    (tlbLookup holeCached.rs 0x80001000 .read).isSome = true ∧
    answer (riscvTranslate 0x80001000 8 .read holeCached) =
      answer (riscvTranslate 0x80001000 8 .read (holeCached.setRs (flushTlb holeCached.rs))) :=
  ⟨by decide +kernel,
    (tlb_transparent_iff (.reset _ _) holeCached_reachable _ _ _).2 holeCached_hitAllowed⟩

/-- A later load from the same page hits and reaches the denied bytes; with the cache emptied
it faults. -/
theorem tlb_hit_bypasses_pmp :
    Fresh (Machine.init (World.dram gigapage) 0x80000000) ∧
    ReflTransGen Calm (Machine.init (World.dram gigapage) 0x80000000) holeCached ∧
    answer (riscvTranslate 0x80001010 8 .read holeCached) =
      some (.ok (0x80001010, some ⟨0, 0x1000⟩)) ∧
    answer (riscvTranslate 0x80001010 8 .read (holeCached.setRs (flushTlb holeCached.rs))) =
      some (.error (kExLoadFault, 0x80001010)) :=
  ⟨.reset _ _, holeCached_reachable, by decide +kernel, by decide +kernel⟩

end Cemu.Rv64
