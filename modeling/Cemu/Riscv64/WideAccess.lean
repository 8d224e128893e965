import Cemu.Riscv64.ByteWise

/-!
# riscv64: loads and stores of several bytes

The funnels `riscv_mem_load` and `riscv_mem_store` against the same funnels run byte by
byte. `riscvMem_bytewise` collects the results for an access inside one page: the bytes a
load returns and a store leaves are those of the one-byte accesses, and a byte that faults
makes the whole access fault before it stores anything.
-/

namespace Cemu.Rv64

open World RaiseM Outcome Function

variable {D : Type}

/-! ### The physical end of an access -/

def NoTrigger (s : RiscvState) : Prop :=
  ∀ i < kTrigCount, s.tdata1 i &&& (kMc6Load ||| kMc6Store ||| kMc6Execute) = 0

instance (s : RiscvState) : Decidable (NoTrigger s) :=
  inferInstanceAs (Decidable (∀ i < kTrigCount, _ = _))

variable {m : Machine D}

theorem riscvTriggerCheck_apply (h : NoTrigger m.rs) (op : TrigOp) (addr : BitVec 64) :
    riscvTriggerCheck op addr m = .ok () m := by
  have hbit : ∀ i < kTrigCount, m.rs.tdata1 i &&& op.bit = 0 := by
    intro i hi
    have hsub : (kMc6Load ||| kMc6Store ||| kMc6Execute) &&& op.bit = op.bit := by
      cases op <;> decide
    rw [← hsub, ← BitVec.and_assoc, h i hi]
    exact BitVec.zero_and
  have hmiss : ∀ i < kTrigCount, ∀ t2 t3, mc6Match m.rs (m.rs.tdata1 i) t2 t3 op addr = false := by
    intro i hi t2 t3
    simp only [mc6Match, hbit i hi, if_true]
  have hnone : firedTrigger m.rs op addr = none := by
    simp [firedTrigger, hmiss 0 (by decide), hmiss 1 (by decide)]
  simp [riscvTriggerCheck, hnone]

theorem riscvMemLoad_apply (h : NoTrigger m.rs) (vaddr : BitVec 64) (size : Nat) (acc : Acc) :
    riscvMemLoad vaddr size acc m =
      (riscvTranslate vaddr size acc m).bind fun a m₁ => loadAt vaddr size acc a.1 a.2 m₁ := by
  unfold riscvMemLoad
  split
  · rw [bind_apply, riscvTriggerCheck_apply h]
    rfl
  · rfl

theorem riscvMemStore_apply (h : NoTrigger m.rs) (vaddr : BitVec 64) (size : Nat)
    (val : BitVec 64) :
    riscvMemStore vaddr size val m = (riscvTranslate vaddr size .write m).bind fun a m₁ =>
        storeAt vaddr size val a.1 a.2 m₁ := by
  rw [riscvMemStore, bind_apply, riscvTriggerCheck_apply h]
  rfl

/-- The host pointer an access uses directly, if it does: the page has one and memory is not
being watched. -/
def directPtr (w : World D) (host : Option HostPtr) : Option HostPtr :=
  if w.dbgMem then none else host

section

variable {vaddr : BitVec 64} {size : Nat} (hpage : OnPage vaddr size)

include hpage

theorem inHostPage_of_onPage (m : Machine D) : inHostPage m vaddr size = !m.w.dbgMem := by
  have hle : (vaddr &&& 0xfff) + .ofNat 64 size ≤ 0x1000 := by
    rw [OnPage] at hpage
    bv_omega
  simp only [inHostPage, hle, decide_true, Bool.true_and]

theorem loadAt_apply (acc : Acc) (paddr : BitVec 64) (host : Option HostPtr) (m : Machine D) :
    loadAt vaddr size acc paddr host m = match directPtr m.w host with
      | some h => .ok (m.w.hostLoad (h.add (vaddr &&& 0xfff)) size) m
      | none => onWorld (fun _ => loadVia vaddr size acc paddr) m := by
  simp only [loadAt, directPtr, bind_apply, get_apply, bind_ok, inHostPage_of_onPage hpage]
  cases host with
  | none => cases m.w.dbgMem <;> rfl
  | some h => cases m.w.dbgMem <;> rfl

theorem storeAt_apply (val paddr : BitVec 64) (host : Option HostPtr) (m : Machine D) :
    storeAt vaddr size val paddr host m = match directPtr m.w host with
      | some h => .ok () (m.setWorld (m.w.hostStore (h.add (vaddr &&& 0xfff)) size val))
      | none => onWorld (fun _ => storeVia vaddr size val paddr) m := by
  simp only [storeAt, directPtr, bind_apply, get_apply, bind_ok, inHostPage_of_onPage hpage]
  cases host with
  | none => cases m.w.dbgMem <;> rfl
  | some h => cases m.w.dbgMem <;> rfl

end

section

variable {paddr : BitVec 64} {size : Nat} (hsize : BitVec.ofNat 64 size ≠ 0)

include hsize

theorem probe_apply (w : World D) :
    probe paddr size w = .ok (w.regionAt paddr size) (w.find paddr size).2 := by
  rw [probe, busProbe, w.find_fst paddr hsize]

variable {w w' : World D}

theorem loadVia_ram {r : BusRegion} (hr : w.regionAt paddr size = some r) (hops : r.ops = .kRamOps)
    (vaddr : BitVec 64) (acc : Acc) :
    ∃ w', loadVia vaddr size acc paddr w = .ok (w.ramRead r.dev paddr size) w' := by
  have hsame := w.find_sameButCache paddr size
  have hread := busRead_of_ram hsize ((hsame.regionAt paddr size).trans hr) hops
  refine ⟨((w.find paddr size).2.find paddr size).2, ?_⟩
  simp only [loadVia, bind_apply, probe_apply hsize, bind_ok, hr, Rv64.busRead,
    hread, hsame.toSameMem.ramRead]

theorem loadVia_none (hr : w.regionAt paddr size = none) (vaddr : BitVec 64) (acc : Acc) :
    loadVia vaddr size acc paddr w =
      .raise ⟨faultCause acc, vaddr, some paddr⟩ (w.find paddr size).2 := by
  simp only [loadVia, bind_apply, probe_apply hsize, bind_ok, hr, raisePaddr_apply]

theorem regionAt_of_loadVia {vaddr : BitVec 64} {acc : Acc} {t : TrapRec}
    (h : loadVia vaddr size acc paddr w = .raise t w') : w.regionAt paddr size = none := by
  by_contra hsome
  obtain ⟨r, hr⟩ := Option.ne_none_iff_exists'.1 hsome
  simp only [loadVia, bind_apply, probe_apply hsize, bind_ok, hr, Rv64.busRead] at h
  cases hread : (w.find paddr size).2.busRead paddr size <;> rw [hread] at h <;> cases h

theorem storeVia_ram {r : BusRegion} (hr : w.regionAt paddr size = some r) (hops : r.ops = .kRamOps)
    (vaddr val : BitVec 64) :
    ∃ w', storeVia vaddr size val paddr w = .ok () w' ∧ SameBoard w w' ∧
      w'.mem = (w.ramWrite r.dev paddr size val).mem := by
  have hsame := w.find_sameButCache paddr size
  have hfind := ((w.find paddr size).2.find_fst paddr hsize).trans
    ((hsame.regionAt paddr size).trans hr)
  cases hwrite : (w.find paddr size).2.busWrite paddr size val with
  | none =>
    rw [World.busWrite] at hwrite
    split at hwrite
    · cases hwrite
    · next hnone =>
      rw [hnone] at hfind
      cases hfind
  | some w' =>
    obtain ⟨hboard, r', hr', hmem, -⟩ := busWrite_eq_some hsize hwrite
    rw [hsame.regionAt, hr] at hr'
    obtain rfl : r = r' := Option.some.inj hr'
    refine ⟨w', ?_, hsame.toSameBoard.trans hboard, ?_⟩
    · simp only [storeVia, bind_apply, probe_apply hsize, bind_ok, hr,
        Rv64.busWrite, hwrite]
    · rw [hmem hops]
      simp only [ramWrite, hostStore, hsame.ram, hsame.mem]

theorem storeVia_none (hr : w.regionAt paddr size = none) (vaddr val : BitVec 64) :
    storeVia vaddr size val paddr w =
      .raise ⟨kExStoreFault, vaddr, some paddr⟩ (w.find paddr size).2 := by
  simp only [storeVia, bind_apply, probe_apply hsize, bind_ok, hr, raisePaddr_apply]

theorem regionAt_of_storeVia {vaddr val : BitVec 64} {t : TrapRec}
    (h : storeVia vaddr size val paddr w = .raise t w') : w.regionAt paddr size = none := by
  by_contra hsome
  obtain ⟨r, hr⟩ := Option.ne_none_iff_exists'.1 hsome
  simp only [storeVia, bind_apply, probe_apply hsize, bind_ok, hr, Rv64.busWrite] at h
  cases hwrite : (w.find paddr size).2.busWrite paddr size val <;> rw [hwrite] at h <;> cases h

end

/-! ### A byte that faults -/

section

variable {vaddr : BitVec 64} {size k : Nat} (hpage : OnPage vaddr size) (hk : k < size)

include hpage hk

theorem onPage_byteAt : OnPage (byteAt vaddr k) 1 := by
  have hoff := byteAt_off hpage hk
  have hnat : (byteAt vaddr k &&& 0xfff#64).toNat = (vaddr &&& 0xfff#64).toNat + k := by
    rw [OnPage] at hpage
    bv_omega
  have : (vaddr &&& 0xfff#64).toNat + size ≤ 0x1000 := hpage
  have hle : (byteAt vaddr k &&& 0xfff#64).toNat + 1 ≤ 0x1000 := by omega
  exact hle

theorem ofNat_size_ne_zero : BitVec.ofNat 64 size ≠ 0 := by
  rw [OnPage] at hpage
  bv_omega

theorem load_fault {acc : Acc} {m m' : Machine D} {t : TrapRec} (htrig : NoTrigger m.rs)
    (halign : TlbAligned m.rs) (htop : BelowTop m vaddr acc)
    (h : riscvMemLoad (byteAt vaddr k) 1 acc m = .raise t m') :
    ∃ t' m'', riscvMemLoad vaddr size acc m = .raise t' m'' ∧ Walked m.rs m.w m''.w := by
  rw [riscvMemLoad_apply htrig] at h ⊢
  obtain hf | ⟨t', m₁, hwide, hwalked⟩ | ⟨l, m2, hwalked, hon, hwide, hbyte⟩ :=
    translate_byte_cases hpage hk halign htop
  · rw [hf] at h
    cases h
  · exact ⟨t', m₁, by rw [hwide]; rfl, hwalked⟩
  · rw [hbyte, bind_ok, loadAt_apply (onPage_byteAt hpage hk)] at h
    rw [hwide, bind_ok, loadAt_apply hpage]
    cases hptr : directPtr m2.w l.host with
    | some p => rw [hptr] at h; cases h
    | none =>
      rw [hptr] at h
      have hnone : m2.w.regionAt (byteAt l.paddr k) 1 = none := by
        simp only [onWorld_apply] at h
        cases hvia : loadVia (byteAt vaddr k) 1 acc (byteAt l.paddr k) m2.w with
        | raise t1 w1 => exact regionAt_of_loadVia (by decide) hvia
        | ok v w1 => rw [hvia] at h; cases h
        | fatal => rw [hvia] at h; cases h
      have hvia := loadVia_none (ofNat_size_ne_zero hpage hk)
        (regionAt_none_of_byte hon hk hnone) vaddr acc
      refine ⟨_, m2.setWorld (m2.w.find l.paddr size).2,
        by simp only [onWorld_apply, hvia]; rfl, ?_⟩
      exact hwalked.trans_sameMem (find_sameButCache _ _ _).toSameMem

theorem store_fault {val val' : BitVec 64} {m m' : Machine D} {t : TrapRec}
    (htrig : NoTrigger m.rs) (halign : TlbAligned m.rs) (htop : BelowTop m vaddr .write)
    (h : riscvMemStore (byteAt vaddr k) 1 val' m = .raise t m') :
    ∃ t' m'', riscvMemStore vaddr size val m = .raise t' m'' ∧ Walked m.rs m.w m''.w := by
  rw [riscvMemStore_apply htrig] at h ⊢
  obtain hf | ⟨t', m₁, hwide, hwalked⟩ | ⟨l, m2, hwalked, hon, hwide, hbyte⟩ :=
    translate_byte_cases hpage hk halign htop
  · rw [hf] at h
    cases h
  · exact ⟨t', m₁, by rw [hwide]; rfl, hwalked⟩
  · rw [hbyte, bind_ok, storeAt_apply (onPage_byteAt hpage hk)] at h
    rw [hwide, bind_ok, storeAt_apply hpage]
    cases hptr : directPtr m2.w l.host with
    | some p => rw [hptr] at h; cases h
    | none =>
      rw [hptr] at h
      have hnone : m2.w.regionAt (byteAt l.paddr k) 1 = none := by
        simp only [onWorld_apply] at h
        cases hvia : storeVia (byteAt vaddr k) 1 val' (byteAt l.paddr k) m2.w with
        | raise t1 w1 => exact regionAt_of_storeVia (by decide) hvia
        | ok v w1 => rw [hvia] at h; cases h
        | fatal => rw [hvia] at h; cases h
      have hvia := storeVia_none (ofNat_size_ne_zero hpage hk)
        (regionAt_none_of_byte hon hk hnone) vaddr val
      refine ⟨_, m2.setWorld (m2.w.find l.paddr size).2,
        by simp only [onWorld_apply, hvia]; rfl, ?_⟩
      exact hwalked.trans_sameMem (find_sameButCache _ _ _).toSameMem

end

/-! ### An access in one piece -/

def OneRegion (w : World D) (p : BitVec 64) (size : Nat) : Prop :=
  ∃ r, r.ops = .kRamOps ∧ ∀ k < size, w.regionAt (byteAt p k) 1 = some r

/-- The physical access is not cut by a PMP entry or by the end of a bus region. -/
def OnePiece (m : Machine D) (vaddr : BitVec 64) (size : Nat) (acc : Acc) : Prop :=
  ∀ l m₁, locate vaddr acc m = .ok l m₁ →
    PmpWhole m.rs l.paddr size ∧ OneRegion m.w l.paddr size

@[simp] theorem byteAt_zero (p : BitVec 64) : byteAt p 0 = p := by
  simp [byteAt]

variable {acc : Acc}

theorem translate_onePiece {vaddr : BitVec 64} {size : Nat} (hpage : OnPage vaddr size)
    (hpos : 0 < size) {m m' : Machine D} {a : BitVec 64 × Option HostPtr}
    (halign : TlbAligned m.rs) (hpiece : OnePiece m vaddr size acc)
    (hfirst : riscvTranslate (byteAt vaddr 0) 1 acc m = .ok a m') :
    ∃ l m₁ r, locate vaddr acc m = .ok l m₁ ∧ SameBoard m.w m₁.w ∧ OnPage l.paddr size ∧
      r.ops = .kRamOps ∧ m.w.regionAt l.paddr size = some r ∧
      (∀ k < size, m.w.regionAt (byteAt l.paddr k) 1 = some r ∧
        Admits m.rs 1 acc { l with paddr := byteAt l.paddr k }) ∧
      riscvTranslate vaddr size acc m = .ok (l.paddr, l.host) (settle vaddr acc l m₁) ∧
      ∀ k < size, riscvTranslate (byteAt vaddr k) 1 acc m =
        .ok (byteAt l.paddr k, l.host) (settle vaddr acc l m₁) := by
  cases hloc : locate vaddr acc m with
  | fatal =>
    rw [byteAt_zero, riscvTranslate_eq_locate, hloc] at hfirst
    cases hfirst
  | raise t m₁ =>
    rw [byteAt_zero, riscvTranslate_eq_locate, hloc] at hfirst
    cases hfirst
  | ok l m₁ =>
    have hframe := locate_frame (show (locate vaddr acc m).state? = some m₁ by rw [hloc]; rfl)
    have hon := locate_onPage hpage hpos halign hloc
    obtain ⟨hwhole, r, hops, hbytes⟩ := hpiece l m₁ hloc
    obtain ⟨hfit, hregion⟩ := regionAt_of_bytes hon hpos hbytes
    -- PMP gives one verdict on the access and on all of its bytes
    have hverdict : ∀ k < size, Admits m.rs 1 acc { l with paddr := byteAt l.paddr k } ↔
        Admits m.rs size acc l := by
      intro k hk
      rw [Admits, Admits, riscvPmpAllowed_whole hfit hk hwhole]
    have hgrant : Admits m.rs size acc l := by
      rw [riscvTranslate_byteAt hpage hpos halign hloc] at hfirst
      split at hfirst
      · next h => exact (hverdict 0 hpos).1 h
      · cases hfirst
    refine ⟨l, m₁, r, rfl, hframe.2.2.toSameBoard, hon, hops, hregion, ?_, ?_, ?_⟩
    · exact fun k hk => ⟨hbytes k hk, (hverdict k hk).2 hgrant⟩
    · rw [riscvTranslate_of_locate hloc, if_pos hgrant]
    · intro k hk
      rw [riscvTranslate_byteAt hpage hk halign hloc, if_pos ((hverdict k hk).2 hgrant)]

def endPtr (w : World D) (vaddr paddr : BitVec 64) (host : Option HostPtr) (r : BusRegion) :
    HostPtr :=
  match directPtr w host with
  | some h => h.add (vaddr &&& 0xfff)
  | none => ⟨r.dev, paddr - (w.ram r.dev).base⟩

theorem endPtr_byteAt {vaddr : BitVec 64} {size k : Nat} (hpage : OnPage vaddr size)
    (hk : k < size) (w : World D) (paddr : BitVec 64) (host : Option HostPtr) (r : BusRegion) :
    endPtr w (byteAt vaddr k) (byteAt paddr k) host r =
      (endPtr w vaddr paddr host r).add (.ofNat 64 k) := by
  have hoff : byteAt vaddr k &&& 0xfff = (vaddr &&& 0xfff) + .ofNat 64 k := byteAt_off hpage hk
  unfold endPtr
  split
  · rw [hoff, HostPtr.add, HostPtr.add, HostPtr.add, BitVec.add_assoc]
  · rw [byteAt]
    congr 1
    bv_omega

theorem endPtr_sameBoard {w w' : World D} (h : SameBoard w w') (vaddr paddr : BitVec 64)
    (host : Option HostPtr) (r : BusRegion) :
    endPtr w' vaddr paddr host r = endPtr w vaddr paddr host r := by
  simp only [endPtr, directPtr, h.dbgMem, h.ram]

section

variable {vaddr paddr : BitVec 64} {size : Nat} (hpage : OnPage vaddr size) (hpos : 0 < size)
  {m : Machine D} {r : BusRegion} (hr : m.w.regionAt paddr size = some r)
  (hops : r.ops = .kRamOps)

include hpage hpos hr hops

theorem loadAt_ram (acc : Acc) (host : Option HostPtr) : ∃ m', loadAt vaddr size acc paddr host m =
      .ok (m.w.hostLoad (endPtr m.w vaddr paddr host r) size) m' := by
  rw [loadAt_apply hpage, endPtr]
  cases directPtr m.w host with
  | some h => exact ⟨m, rfl⟩
  | none =>
    obtain ⟨w', hvia⟩ := loadVia_ram (ofNat_size_ne_zero hpage hpos) hr hops vaddr acc
    exact ⟨m.setWorld w', by simp only [onWorld_apply, hvia]; rfl⟩

theorem storeAt_ram (val : BitVec 64) (host : Option HostPtr) :
    ∃ w', storeAt vaddr size val paddr host m = .ok () (m.setWorld w') ∧ SameBoard m.w w' ∧
      w'.mem = (m.w.hostStore (endPtr m.w vaddr paddr host r) size val).mem := by
  rw [storeAt_apply hpage, endPtr]
  cases directPtr m.w host with
  | some h => exact ⟨_, rfl, ⟨rfl, rfl, rfl, rfl, rfl⟩, rfl⟩
  | none =>
    obtain ⟨w', hvia, hboard, hmem⟩ :=
      storeVia_ram (ofNat_size_ne_zero hpage hpos) hr hops vaddr val
    exact ⟨w', by simp only [onWorld_apply, hvia], hboard, hmem⟩

end
variable {n size : Nat} {vaddr : BitVec 64} {m m₁ : Machine D}

theorem hostLoad_eq_pack (w : World D) (p : HostPtr) (hn : n ≤ 8) {b : Nat → BitVec 64}
    (hb : ∀ k < n, w.hostLoad (p.add (.ofNat 64 k)) 1 = b k) :
    w.hostLoad p n = ByteMem.pack (fun k => (b k).setWidth 8) n := by
  have hone : ∀ q : HostPtr, (w.hostLoad q 1).setWidth 8 = w.mem q.obj q.off := by
    intro q
    rw [hostLoad, ByteMem.load]
    simp
  rw [hostLoad, ByteMem.load_eq_pack _ _ hn]
  refine ByteMem.pack_congr fun k hk => ?_
  rw [← hb k hk, hone]
  rfl

theorem load_onePiece (hpage : OnPage vaddr size) (hpos : 0 < size) (hsize : size ≤ 8)
    (htrig : NoTrigger m.rs) (halign : TlbAligned m.rs) (hpiece : OnePiece m vaddr size acc)
    {b : Nat → BitVec 64}
    (hok : ∀ k < size, ∃ m', riscvMemLoad (byteAt vaddr k) 1 acc m = .ok (b k) m') :
    ∃ m', riscvMemLoad vaddr size acc m =
      .ok (ByteMem.pack (fun k => (b k).setWidth 8) size) m' := by
  obtain ⟨m0, h0⟩ := hok 0 hpos
  rw [riscvMemLoad_apply htrig] at h0
  obtain ⟨a, m', hfirst, -⟩ := Outcome.bind_eq_ok h0
  obtain ⟨l, m₁, r, -, hboard, hon, hops, hregion, hbytes, hwide, hbyte⟩ :=
    translate_onePiece hpage hpos halign hpiece hfirst
  have hregions : ∀ p n, (settle vaddr acc l m₁).w.regionAt p n = m.w.regionAt p n := by
    intro p n
    rw [settle_w, hboard.regionAt]
  obtain ⟨m', hload⟩ := loadAt_ram hpage hpos ((hregions _ _).trans hregion) hops acc l.host
  refine ⟨m', ?_⟩
  rw [riscvMemLoad_apply htrig, hwide, bind_ok, hload, hostLoad_eq_pack _ _ hsize]
  intro k hk
  -- the byte is read where the access finds it
  obtain ⟨m2, hk'⟩ := hok k hk
  obtain ⟨m3, hbyte'⟩ := loadAt_ram (onPage_byteAt hpage hk) (by decide)
    ((hregions _ _).trans (hbytes k hk).1) hops acc l.host
  rw [riscvMemLoad_apply htrig, hbyte k hk, bind_ok, hbyte', endPtr_byteAt hpage hk] at hk'
  exact (Outcome.ok.inj hk').1

/-! ### Stores one byte after the other -/

theorem tlbVictim_cases (s : RiscvState) (base : Nat) :
    tlbVictim s base = base ∨ tlbVictim s base = base + 1 := by
  have hbit : (s.tlbClock &&& 1#32).toNat = s.tlbClock.toNat % 2 :=
    Nat.and_two_pow_sub_one_eq_mod _ 1
  unfold tlbVictim
  split
  · exact .inl rfl
  split
  · exact .inr rfl
  · have : (s.tlbClock &&& 1).toNat = s.tlbClock.toNat % 2 := hbit
    omega

theorem tlbLookup_tlbFill {s : RiscvState} (hmiss : tlbLookup s vaddr acc = none)
    (paddr : BitVec 64) (host : Option HostPtr) :
    tlbLookup (tlbFill s vaddr acc paddr host) vaddr acc =
      some (tlbEntryFor s vaddr acc paddr host) := by
  have hsame : ∀ e, tlbMatches (tlbFill s vaddr acc paddr host) vaddr acc e =
      tlbMatches s vaddr acc e := fun _ => rfl
  have hnew : tlbMatches s vaddr acc (tlbEntryFor s vaddr acc paddr host) = true := by
    simp [tlbMatches, tlbEntryFor]
  have hfirst : tlbMatches s vaddr acc (s.tlb (tlbBase (vaddr >>> 12) acc)) = false := by
    rw [tlbLookup] at hmiss
    split at hmiss
    · cases hmiss
    · next h => simpa using h
  simp only [tlbLookup, hsame, tlbFill_tlb]
  obtain hv | hv := tlbVictim_cases s (tlbBase (vaddr >>> 12) acc)
  · rw [hv, update_self, if_pos hnew]
  · rw [hv, update_of_ne (by omega), hfirst, update_self, hnew]
    rfl

/-- Once an access has been translated, its bytes are translated the same way without any
further effect, as long as the control state and the bus map stay. -/
theorem riscvTranslate_again {k : Nat} (hpage : OnPage vaddr size) (hk : k < size)
    {M : Machine D} {l : Located} (halign : TlbAligned m.rs) (hloc : locate vaddr acc m = .ok l m₁)
    (hrs : M.rs = (settle vaddr acc l m₁).rs) (hboard : SameBoard m₁.w M.w)
    (hgrant : Admits m.rs 1 acc { l with paddr := byteAt l.paddr k }) :
    riscvTranslate (byteAt vaddr k) 1 acc M = .ok (byteAt l.paddr k, l.host) M := by
  obtain ⟨l', m', hl', hbyte, rfl⟩ := (hloc ▸ locate_byteAt hpage hk halign acc).ok_left
  simp only [locate, bind_apply, get_apply, bind_ok] at hloc
  rw [riscvTranslate_apply, tlbLookup_byteAt hpage hk]
  cases hbare : isBare m.rs acc with
  | true =>
    rw [hbare] at hloc
    cases hloc
    have hrs' : M.rs = m.rs := hrs
    rw [hrs', hbare, if_pos rfl, translateBare_apply, hrs',
      if_pos (hgrant.resolve_left (by simp))]
    have hhost : hostOf M.w (byteAt vaddr k) = hostOf m.w vaddr := by
      rw [IsByteOf.hostOf hpage hk ⟨rfl, rfl⟩, hostOf, hostOf, hboard.ramPage]
    rw [hhost]
  | false =>
    rw [hbare] at hloc
    simp only [Bool.false_eq_true, if_false] at hloc
    cases hl : tlbLookup m.rs vaddr acc with
    | some e =>
      rw [hl] at hloc
      cases hloc
      have hrs' : M.rs = m.rs := hrs
      obtain ⟨i, rfl, -⟩ := tlbLookup_eq_some hl
      rw [hrs', hbare, if_neg Bool.false_ne_true, hl]
      simp only
      rw [show (m.rs.tlb i).pbase ||| (byteAt vaddr k &&& 0xfff) = _ from
        frame_byteAt hpage hk (halign i)]
      rfl
    | none =>
      rw [hl] at hloc
      simp only [bind_apply, onWorld_apply] at hloc
      cases hw : walkPage m.rs vaddr acc (effPriv m.rs acc) m.w with
      | fatal => rw [hw] at hloc; cases hloc
      | raise t w => rw [hw] at hloc; cases hloc
      | ok p w =>
        rw [hw] at hloc
        cases hloc
        have hrs' : M.rs = tlbFill m.rs vaddr acc p (hostOf w p) := hrs
        have hbare' : isBare M.rs acc = false := by
          rw [hrs']
          exact hbare
        rw [hbare', if_neg Bool.false_ne_true, hrs', tlbLookup_tlbFill hl]
        simp only [tlbEntryFor]
        rw [show p &&& ~~~0xfff ||| (byteAt vaddr k &&& 0xfff) = byteAt p k from
          byteAt_frame hpage hk hbyte.paddr.1]
        rfl

def storeBytes (vaddr val : BitVec 64) : Nat → RvM D Unit
  | 0 => pure ()
  | n + 1 => do
    storeBytes vaddr val n
    riscvMemStore (byteAt vaddr n) 1 (val >>> (8 * n))

theorem hostStore_succ (w : World D) (p : HostPtr) (val : BitVec 64) (hn : n < 8) :
    (w.hostStore p (n + 1) val).mem =
      ((w.hostStore p n val).hostStore (p.add (.ofNat 64 n)) 1 (val >>> (8 * n))).mem := by
  have hobj : (p.add (.ofNat 64 n)).obj = p.obj := rfl
  simp only [hostStore, hobj, update_self, update_idem]
  rw [ByteMem.store_succ _ _ _ hn]
  rfl

theorem NoTrigger.settle (h : NoTrigger m.rs) (hrs : m₁.rs = m.rs) (vaddr : BitVec 64) (acc : Acc)
    (l : Located) : NoTrigger (settle vaddr acc l m₁).rs := by
  have hsame : (Rv64.settle vaddr acc l m₁).rs.tdata1 = m.rs.tdata1 := by
    rw [Rv64.settle, ← hrs]
    split <;> rfl
  rwa [NoTrigger, hsame]

theorem store_onePiece {val : BitVec 64} (hpage : OnPage vaddr size) (hpos : 0 < size)
    (hsize : size ≤ 8) (htrig : NoTrigger m.rs) (halign : TlbAligned m.rs)
    (hpiece : OnePiece m vaddr size .write)
    (hok : ∀ k < size, ∃ m', riscvMemStore (byteAt vaddr k) 1 (val >>> (8 * k)) m = .ok () m') :
    ∃ m' m'', riscvMemStore vaddr size val m = .ok () m' ∧
      storeBytes vaddr val size m = .ok () m'' ∧ m'.w.mem = m''.w.mem := by
  obtain ⟨m0, h0⟩ := hok 0 hpos
  rw [riscvMemStore_apply htrig] at h0
  obtain ⟨a, m', hfirst, -⟩ := Outcome.bind_eq_ok h0
  obtain ⟨l, m₁, r, hloc, hboard, hon, hops, hregion, hbytes, hwide, hbyte⟩ :=
    translate_onePiece hpage hpos halign hpiece hfirst
  have hrs := (locate_frame (show (locate vaddr .write m).state? = some m₁ by rw [hloc]; rfl)).1
  obtain ⟨w', hstore, -, hmem⟩ := storeAt_ram (m := settle vaddr .write l m₁) hpage hpos
    (by rw [settle_w, hboard.regionAt]; exact hregion) hops val l.host
  -- storing byte `k` on a machine whose board is still the same
  have hbyteStore : ∀ k < size, ∀ M : Machine D, SameBoard m₁.w M.w →
      ∃ w1, storeAt (byteAt vaddr k) 1 (val >>> (8 * k)) (byteAt l.paddr k) l.host M =
          .ok () (M.setWorld w1) ∧ SameBoard m₁.w w1 ∧
        w1.mem = (M.w.hostStore ((endPtr m₁.w vaddr l.paddr l.host r).add (BitVec.ofNat 64 k)) 1
          (val >>> (8 * k))).mem := by
    intro k hk M hM
    obtain ⟨w1, h, hb, hm⟩ := storeAt_ram (m := M) (onPage_byteAt hpage hk) (by decide)
      (by rw [hM.regionAt, hboard.regionAt]; exact (hbytes k hk).1) hops (val >>> (8 * k)) l.host
    rw [endPtr_byteAt hpage hk, endPtr_sameBoard hM] at hm
    exact ⟨w1, h, hM.trans hb, hm⟩
  have hrun : ∀ n, n < size → ∃ M : Machine D, storeBytes vaddr val (n + 1) m = .ok () M ∧
      M.rs = (settle vaddr .write l m₁).rs ∧ SameBoard m₁.w M.w ∧
      M.w.mem = (m₁.w.hostStore (endPtr m₁.w vaddr l.paddr l.host r) (n + 1) val).mem := by
    intro n hn
    induction n with
    | zero =>
      obtain ⟨w1, h, hb, hm⟩ := hbyteStore 0 hn (settle vaddr .write l m₁)
        (by rw [settle_w]; exact .refl _)
      refine ⟨(settle vaddr .write l m₁).setWorld w1, ?_, rfl, hb, ?_⟩
      · rw [storeBytes, storeBytes, bind_apply, pure_apply, bind_ok,
          riscvMemStore_apply htrig, hbyte 0 hn, bind_ok, h]
      · have hzero : (m₁.w.hostStore (endPtr m₁.w vaddr l.paddr l.host r) 0 val).mem = m₁.w.mem :=
          update_eq_self _ _
        rw [settle_w] at hm
        rw [hostStore_succ _ _ _ (by decide), setWorld_w, hm]
        simp only [hostStore] at hzero ⊢
        rw [hzero]
    | succ n ih =>
      obtain ⟨M, hM, hMrs, hMb, hMmem⟩ := ih (by omega)
      obtain ⟨w1, h, hb, hm⟩ := hbyteStore (n + 1) hn M hMb
      have htrig' : NoTrigger M.rs := hMrs ▸ htrig.settle hrs vaddr .write l
      refine ⟨M.setWorld w1, ?_, hMrs, hb, ?_⟩
      · rw [storeBytes, bind_apply, hM, bind_ok, riscvMemStore_apply htrig',
          riscvTranslate_again hpage hn halign hloc hMrs hMb (hbytes _ hn).2, bind_ok, h]
      · rw [hostStore_succ _ _ _ (show n + 1 < 8 by omega), setWorld_w, hm]
        simp only [hostStore] at hMmem ⊢
        rw [hMmem]
  obtain ⟨M, hM, -, -, hMmem⟩ := hrun (size - 1) (by omega)
  rw [Nat.sub_add_cancel hpos] at hM hMmem
  refine ⟨(settle vaddr .write l m₁).setWorld w', M, ?_, hM, ?_⟩
  · rw [riscvMemStore_apply htrig, hwide, bind_ok, hstore]
  · rw [hMmem, setWorld_w, hmem, settle_w]

/-! ### The funnels, byte by byte -/

/-- An access of at most eight bytes inside one page, with no trigger armed, does what its
bytes do: in one piece, it loads and stores the same bytes, and if one byte faults, it faults
and stores nothing. -/
theorem riscvMem_bytewise (m : Machine D) (htrig : NoTrigger m.rs) (halign : TlbAligned m.rs)
    (vaddr : BitVec 64) (size : Nat) (hsize : size ∈ [1, 2, 4, 8]) (hpage : OnPage vaddr size) :
    (∀ (acc : Acc) (b : Nat → BitVec 64), OnePiece m vaddr size acc →
      (∀ k < size, ∃ m', riscvMemLoad (byteAt vaddr k) 1 acc m = .ok (b k) m') →
      ∃ m', riscvMemLoad vaddr size acc m =
        .ok (ByteMem.pack (fun k => (b k).setWidth 8) size) m') ∧
    (∀ val : BitVec 64, OnePiece m vaddr size .write →
      (∀ k < size, ∃ m', riscvMemStore (byteAt vaddr k) 1 (val >>> (8 * k)) m = .ok () m') →
      ∃ m' m'', riscvMemStore vaddr size val m = .ok () m' ∧
        storeBytes vaddr val size m = .ok () m'' ∧ m'.w.mem = m''.w.mem) ∧
    (∀ acc, BelowTop m vaddr acc → ∀ k < size, ∀ t m',
      riscvMemLoad (byteAt vaddr k) 1 acc m = .raise t m' →
      ∃ t' m'', riscvMemLoad vaddr size acc m = .raise t' m'' ∧ Walked m.rs m.w m''.w) ∧
    (∀ val : BitVec 64, BelowTop m vaddr .write → ∀ k < size, ∀ t m',
      riscvMemStore (byteAt vaddr k) 1 (val >>> (8 * k)) m = .raise t m' →
      ∃ t' m'', riscvMemStore vaddr size val m = .raise t' m'' ∧ Walked m.rs m.w m''.w) := by
  have hpos : 0 < size := by
    simp only [List.mem_cons, List.not_mem_nil, or_false] at hsize
    omega
  have hle : size ≤ 8 := by
    simp only [List.mem_cons, List.not_mem_nil, or_false] at hsize
    omega
  refine ⟨?_, ?_, ?_, ?_⟩
  · exact fun acc b hpiece hok => load_onePiece hpage hpos hle htrig halign hpiece hok
  · exact fun val hpiece hok => store_onePiece hpage hpos hle htrig halign hpiece hok
  · exact fun acc htop k hk t m' h => load_fault hpage hk htrig halign htop h
  · exact fun val htop k hk t m' h => store_fault hpage hk htrig halign htop h

def countingMachine : Machine Unit := Machine.init (World.dram fun a => a.setWidth 8) 0x80000000

theorem countingMachine_onePiece : OnePiece countingMachine 0x80000001 4 .read := by
  intro l m₁ hloc
  have hl : l.paddr = 0x80000001 := by
    have h : (locate 0x80000001 .read countingMachine).result.map (·.toOption.map (·.paddr)) =
        some (some 0x80000001) := by decide +kernel
    rw [hloc] at h
    exact Option.some.inj (Option.some.inj h)
  rw [hl]
  refine ⟨fun i hi base len hregion => ?_,
    ⟨⟨0x80000000, 0x10000, .kRamOps, 0, false, some ⟨0, 0⟩⟩, rfl, ?_⟩⟩
  · have hnone : pmpRegion countingMachine.rs i = none := by
      have hcfg : pmpCfg countingMachine.rs i = 0 := by
        rw [pmpCfg]
        exact ByteMem.byteOf_zero_left _
      rw [pmpRegion, hcfg, if_neg (by decide), if_neg (by decide), if_neg (by decide)]
    rw [hnone] at hregion
    cases hregion
  · decide +kernel

-- a misaligned word, loaded as its four bytes are
theorem riscvMem_bytewise_counting :
    ∃ m', riscvMemLoad 0x80000001 4 .read countingMachine = .ok 0x04030201 m' :=
  have hpack : ByteMem.pack (fun k => (BitVec.ofNat 64 (k + 1)).setWidth 8) 4 = 0x04030201 := by
    decide
  hpack ▸ (riscvMem_bytewise countingMachine (by decide) (tlbAligned_init _ _) 0x80000001 4
    (by decide) (by decide)).1 .read (fun k => .ofNat 64 (k + 1)) countingMachine_onePiece
    fun k hk => by
      obtain rfl | rfl | rfl | rfl : k = 0 ∨ k = 1 ∨ k = 2 ∨ k = 3 := by omega
      all_goals exact ⟨_, rfl⟩

/-- The machine with PMP entry 0 over the eight bytes at `0x80000008`, with every permission
and not locked. -/
def entryMachine : Machine Unit :=
  csrw 0x3A0 0x1f (csrw 0x3B0 0x20000002 countingMachine)

/-- Each byte of an eight-byte load at `0x80000004` can be loaded, and the load itself is
denied, because the entry holds only half of it. -/
theorem riscvMemLoad_straddles_pmp :
    NoTrigger entryMachine.rs ∧
    (∀ k < 8, (riscvMemLoad (byteAt 0x80000004 k) 1 .read entryMachine).result =
      some (.ok (BitVec.ofNat 64 (k + 4)))) ∧
    (riscvMemLoad 0x80000004 8 .read entryMachine).result =
      some (.error ⟨kExLoadFault, 0x80000004, some 0x80000004⟩) :=
  ⟨by decide +kernel, by decide +kernel, by decide +kernel⟩

end Cemu.Rv64
