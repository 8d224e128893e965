import Cemu.Riscv64.Translate

/-!
# riscv64: what a page-table walk does to memory

A walk reads page-table entries and may write one back. The reads leave memory alone; the
write sets accessed and dirty bits in a leaf entry and nothing else. Both facts hold
however the walk ends.
-/

namespace Cemu.Rv64

open World RaiseM
open BitVec hiding not_not

variable {D : Type}

def kPteAd : BitVec 64 := kPteA ||| kPteD

/-- `mem` is the memory of `w` with A and D bits set in the leaf entry that RAM holds at
physical address `a`. -/
structure AdSet (w : World D) (a : BitVec 64) (mem : Nat → ByteMem) : Prop where
  intro ::
  aligned : a % 8 = 0
  write : ∃ r pte new, w.regionAt a 8 = some r ∧ r.ops = .kRamOps ∧ w.ramRead r.dev a 8 = pte ∧
    pteInvalid pte = false ∧ pteLeaf pte = true ∧ pte &&& new = pte ∧
    new &&& ~~~kPteAd = pte &&& ~~~kPteAd ∧ mem = (w.ramWrite r.dev a 8 new).mem

variable {u w w' : World D} {a pteAddr pte vaddr ppnBase new : BitVec 64} {s : RiscvState}
  {size n : Nat} {acc : Acc} {leaf : Walk}

theorem AdSet.of_sameMem (h : SameMem u w) {mem : Nat → ByteMem} (had : AdSet w a mem) :
    AdSet u a mem := by
  obtain ⟨halign, r, pte, new, hr, hops, hpte, hval, hleaf, hsub, had, rfl⟩ := had
  refine ⟨halign, r, pte, new, ?_, hops, ?_, hval, hleaf, hsub, had, ?_⟩
  · rw [← h.regionAt, hr]
  · rw [← h.ramRead, hpte]
  · simp only [ramWrite, hostStore, h.ram, h.mem]

def IsLeafAt (s : RiscvState) (w : World D) (a : BitVec 64) : Prop :=
  ∃ vaddr acc leaf w', walkFrom s vaddr acc (walkLevels s) (satpRoot s) 0 0 w = .ok leaf w' ∧
    leaf.pteAddr = a

/-- The effect of a walk on the world: A and D bits of at most one leaf of the tables. -/
structure Walked (s : RiscvState) (w w' : World D) : Prop extends SameBoard w w' where
  mem : w'.mem = w.mem ∨ ∃ a, IsLeafAt s w a ∧ AdSet w a w'.mem

theorem Walked.of_sameMem (h : SameMem w w') : Walked s w w' := ⟨h.toSameBoard, .inl h.mem⟩

theorem Walked.congr {s' : RiscvState} (hpmp : SamePmp s s') (hsatp : s'.satp = s.satp)
    (h : Walked s' w w') : Walked s w w' := by
  refine ⟨h.toSameBoard, h.mem.imp_right ?_⟩
  rintro ⟨a, ⟨vaddr, acc, leaf, w1, hwalk, ha⟩, had⟩
  refine ⟨a, ⟨vaddr, acc, leaf, w1, ?_, ha⟩, had⟩
  rw [← hwalk, hpmp.walkFrom, walkLevels, walkLevels, satpMode, satpMode, satpRoot, satpRoot, hsatp]

/-! ### Reading entries -/

theorem pteAddrAt_aligned (vaddr : BitVec 64) (level : Nat) (ppnBase : BitVec 64) :
    pteAddrAt vaddr level ppnBase % 8 = 0 := by
  rw [pteAddrAt]
  apply eq_of_toNat_eq
  simp only [ofNat_eq_ofNat, toNat_umod, toNat_add, toNat_shiftLeft,
    toNat_mul, toNat_ofNat, Nat.reducePow, Nat.reduceMod]
  omega

theorem probe_spec (addr : BitVec 64) (len : Nat) :
    Quiet SameMem (probe addr len : WorldM D (Option BusRegion)) :=
  fun w => (w.find_sameButCache addr len).toSameMem

theorem busRead_spec (addr : BitVec 64) (hsize : BitVec.ofNat 64 size ≠ 0) :
    Quiet SameMem (busRead addr size : WorldM D (BitVec 64)) := by
  intro w
  cases h : w.busRead addr size with
  | none => exact .of_fatal (by rw [Rv64.busRead, h])
  | some p => exact .of_ok (by rw [Rv64.busRead, h]) (busRead_eq_some hsize h).1

theorem pteRead_spec (s : RiscvState) (pteAddr : BitVec 64) (acc : Acc) :
    Quiet SameMem (pteRead s pteAddr acc : WorldM D (BitVec 64)) := by
  unfold pteRead
  split
  · exact .raise _ .refl
  · refine .bind (probe_spec _ _) (fun found => ?_) fun _ _ _ => .trans
    cases found with
    | none => exact .raise _ .refl
    | some r => exact busRead_spec _ (by decide)

theorem pteRead_eq_ok (h : pteRead s pteAddr acc w = .ok pte w') :
    riscvPmpAllowed s pteAddr 8 .read kPrivSupervisor = true ∧
      ∃ r, w.regionAt pteAddr 8 = some r ∧
        (r.ops = .kRamOps → pte = w.ramRead r.dev pteAddr 8) := by
  unfold pteRead at h
  split at h
  · cases h
  rename_i hpmp
  refine ⟨by simpa using hpmp, ?_⟩
  simp only [bind_apply, probe, Outcome.bind_ok, busProbe] at h
  have hsame := w.find_sameButCache pteAddr 8
  cases hfind : (w.find pteAddr 8).1 with
  | none => rw [hfind] at h; cases h
  | some r =>
    rw [hfind] at h
    simp only [Rv64.busRead] at h
    cases hread : (w.find pteAddr 8).2.busRead pteAddr 8 with
    | none => rw [hread] at h; cases h
    | some p =>
      rw [hread] at h
      cases h
      obtain ⟨-, r, hr, hval⟩ := busRead_eq_some (by decide) hread
      refine ⟨r, ?_, fun hops => ?_⟩
      · rw [← hsame.regionAt, hr]
      · rw [← hsame.toSameMem.ramRead]
        exact hval hops

/-! ### The loop over the levels -/

theorem walkFrom_succ_eq_ok (h : walkFrom s vaddr acc (n + 1) ppnBase pteAddr pte w = .ok leaf w') :
    ∃ pte' w1, pteRead s (pteAddrAt vaddr n ppnBase) acc w = .ok pte' w1 ∧
      pteInvalid pte' = false ∧
      ((pteLeaf pte' = true ∧ leaf = ⟨pteAddrAt vaddr n ppnBase, pte', n⟩ ∧ w' = w1) ∨
       (pteLeaf pte' = false ∧
        walkFrom s vaddr acc n (pte' >>> 10) (pteAddrAt vaddr n ppnBase) pte' w1 =
          .ok leaf w')) := by
  obtain ⟨pte', w1, hread, h⟩ := bind_eq_ok h
  refine ⟨pte', w1, hread, ?_⟩
  cases hinv : pteInvalid pte' with
  | true => simp [hinv] at h
  | false =>
    refine ⟨rfl, ?_⟩
    cases hleaf : pteLeaf pte' with
    | true =>
      simp only [hinv, hleaf, Bool.false_eq_true, if_false, if_true] at h
      cases h
      exact .inl ⟨rfl, rfl, rfl⟩
    | false =>
      simp only [hinv, hleaf, Bool.false_eq_true, if_false] at h
      exact .inr ⟨rfl, h⟩

theorem walkFrom_spec (s : RiscvState) (vaddr : BitVec 64) (acc : Acc) (n : Nat)
    (ppnBase pteAddr pte : BitVec 64) :
    Quiet SameMem (walkFrom s vaddr acc n ppnBase pteAddr pte : WorldM D Walk) := by
  induction n generalizing ppnBase pteAddr pte with
  | zero => exact .pure _ .refl
  | succ n ih =>
    refine .bind (pteRead_spec _ _ _) (fun pte' => ?_) fun _ _ _ => .trans
    split
    · exact .raise _ .refl
    split
    · exact .pure _ .refl
    · exact ih _ _ _

def IsPointer (pte : BitVec 64) : Prop := pteLeaf pte = false ∧ pte &&& kPteW = 0

structure FoundAt (w : World D) (leaf : Walk) : Prop where
  aligned : leaf.pteAddr % 8 = 0
  valid : pteInvalid leaf.pte = false
  isLeaf : pteLeaf leaf.pte = true
  read : ∃ r, w.regionAt leaf.pteAddr 8 = some r ∧
    (r.ops = .kRamOps → leaf.pte = w.ramRead r.dev leaf.pteAddr 8)

theorem FoundAt.of_sameMem (h : SameMem w w') (hf : FoundAt w' leaf) : FoundAt w leaf := by
  obtain ⟨r, hr, hval⟩ := hf.read
  refine ⟨hf.aligned, hf.valid, hf.isLeaf, r, ?_, fun hops => ?_⟩
  · rw [← h.regionAt, hr]
  · rw [← h.ramRead, ← hval hops]

theorem isPointer_of_valid (hval : pteInvalid pte = false) (hleaf : pteLeaf pte = false) :
    IsPointer pte := by
  refine ⟨hleaf, ?_⟩
  simp only [pteLeaf, decide_eq_false_iff_not, not_not] at hleaf
  have hr : pte &&& kPteR = 0 := by
    have : pte &&& (kPteR ||| kPteX) &&& kPteR = 0 := by rw [hleaf]; exact zero_and
    rwa [BitVec.and_assoc, show (kPteR ||| kPteX) &&& kPteR = kPteR by decide] at this
  simp only [pteInvalid, hr, Bool.or_eq_false_iff, decide_true, Bool.true_and,
    decide_eq_false_iff_not, not_not] at hval
  exact hval.1.2

theorem walkFrom_found (hpte : IsPointer pte)
    (h : walkFrom s vaddr acc n ppnBase pteAddr pte w = .ok leaf w') :
    FoundAt w leaf ∨ IsPointer leaf.pte := by
  induction n generalizing ppnBase pteAddr pte w with
  | zero =>
    cases h
    exact .inr hpte
  | succ n ih =>
    obtain ⟨pte', w1, hread, hval, ⟨hleaf, rfl, rfl⟩ | ⟨hleaf, hrest⟩⟩ := walkFrom_succ_eq_ok h
    · exact .inl ⟨pteAddrAt_aligned _ _ _, hval, hleaf, (pteRead_eq_ok hread).2⟩
    · refine (ih (isPointer_of_valid hval hleaf) hrest).imp_left fun hf => ?_
      exact hf.of_sameMem ((pteRead_spec s _ acc).of_ok hread)

theorem ptePermits_pointer (h : IsPointer pte) (s : RiscvState) (eff : BitVec 8) (acc : Acc) :
    ptePermits s eff acc pte = false := by
  obtain ⟨hleaf, hw⟩ := h
  simp only [pteLeaf, decide_eq_false_iff_not, not_not] at hleaf
  have hsub : ∀ b : BitVec 64, (kPteR ||| kPteX) &&& b = b → pte &&& b = 0 := by
    intro b hb
    rw [← hb, ← BitVec.and_assoc, hleaf]
    exact zero_and
  have hr := hsub kPteR (by decide)
  have hx := hsub kPteX (by decide)
  cases acc <;> simp [ptePermits, hr, hx, hw]

/-! ### The write -/

theorem adUpdate_eq_some (h : adUpdate s acc pte = some new) :
    pte &&& new = pte ∧ new &&& ~~~kPteAd = pte &&& ~~~kPteAd := by
  have hor : ∀ a b : BitVec 64, b &&& ~~~kPteAd = 0 →
      a &&& (a ||| b) = a ∧ (a ||| b) &&& ~~~kPteAd = a &&& ~~~kPteAd := by
    intro a b hb
    refine ⟨?_, ?_⟩
    · ext i
      simp
      grind
    · rw [and_or_distrib_right, hb]
      exact or_zero
  have hand : ∀ a b : BitVec 64, a &&& b = a → ∀ c, b &&& c = b → a &&& c = a := by
    intro a b hab c hbc
    rw [← hab, BitVec.and_assoc, hbc]
  have ha : kPteA &&& ~~~kPteAd = 0 := by decide
  have hd : kPteD &&& ~~~kPteAd = 0 := by decide
  simp only [adUpdate] at h
  split at h
  · cases h
  · cases h
    obtain ⟨h1, h1'⟩ := hor pte kPteD hd
    obtain ⟨h2, h2'⟩ := hor pte kPteA ha
    obtain ⟨h3, h3'⟩ := hor (pte ||| kPteD) kPteA ha
    split <;> split
    · exact ⟨hand _ _ h1 _ h3, h3'.trans h1'⟩
    · exact ⟨h2, h2'⟩
    · exact ⟨h1, h1'⟩
    · exact ⟨BitVec.and_self, rfl⟩

structure WroteBack (a : BitVec 64) (w w' : World D) : Prop extends SameBoard w w' where
  mem : w'.mem = w.mem ∨ AdSet w a w'.mem

theorem WroteBack.of_sameMem (h : SameMem w w') : WroteBack a w w' := ⟨h.toSameBoard, .inl h.mem⟩

theorem WroteBack.of_sameMem_trans {v : World D} (h : SameMem u v) (h' : WroteBack a v w) :
    WroteBack a u w :=
  ⟨h.toSameBoard.trans h'.toSameBoard, h'.mem.imp (·.trans h.mem) (·.of_sameMem h)⟩

theorem writeBack_spec (hf : FoundAt w leaf) (hsub : leaf.pte &&& new = leaf.pte)
    (had : new &&& ~~~kPteAd = leaf.pte &&& ~~~kPteAd) (vaddr : BitVec 64) (acc : Acc) :
    SpecAt (WroteBack leaf.pteAddr) (WroteBack leaf.pteAddr)
      (writeBack vaddr acc leaf.pteAddr leaf.pte new) w := by
  unfold writeBack
  split
  · exact WroteBack.of_sameMem (.refl w)
  obtain ⟨found, w1, hprobe⟩ : ∃ found w1, probe leaf.pteAddr 8 w = .ok found w1 := ⟨_, _, rfl⟩
  have hsame := (probe_spec leaf.pteAddr 8).of_ok hprobe
  refine .bind_ok hprobe (B := WroteBack leaf.pteAddr) (F := WroteBack leaf.pteAddr) ?_
    (fun _ => .of_sameMem_trans hsame) (fun _ => .of_sameMem_trans hsame)
  cases found with
  | none => exact WroteBack.of_sameMem (.refl w1)
  | some _ =>
    cases hwrite : w1.busWrite leaf.pteAddr 8 new with
    | none => exact .of_fatal (by simp only [Rv64.busWrite, hwrite])
    | some w' =>
      obtain ⟨hboard, r, hr, hram, hdev⟩ := busWrite_eq_some (by decide) hwrite
      refine .of_ok (by simp only [Rv64.busWrite, hwrite]; rfl) ⟨hboard, ?_⟩
      by_cases hops : r.ops = .kRamOps
      · obtain ⟨r', hr', hval⟩ := hf.read
        obtain rfl : r = r' := by
          rw [hsame.regionAt, hr'] at hr
          exact (Option.some.inj hr).symm
        refine .inr ⟨hf.aligned, r, leaf.pte, new, hr, hops, ?_, hf.valid, hf.isLeaf, hsub, had,
          hram hops⟩
        rw [hsame.ramRead, ← hval hops]
      · exact .inl (hdev hops (by decide))

section

variable (s : RiscvState) (vaddr : BitVec 64) (acc : Acc) (eff : BitVec 8)

theorem useLeaf_spec (hleaf : FoundAt w leaf ∨ IsPointer leaf.pte) :
    SpecAt (WroteBack leaf.pteAddr) (WroteBack leaf.pteAddr) (useLeaf s vaddr acc eff leaf) w := by
  have hrefl : WroteBack leaf.pteAddr w w := .of_sameMem (.refl w)
  unfold useLeaf
  split
  · exact hrefl
  rename_i hperm
  have hfound := hleaf.resolve_right fun hp => hperm (by rw [ptePermits_pointer hp]; rfl)
  split
  · exact hrefl
  rename_i new had
  obtain ⟨hsub, hrest⟩ := adUpdate_eq_some had
  have hwrite := writeBack_spec hfound hsub hrest vaddr acc
  cases hback : writeBack vaddr acc leaf.pteAddr leaf.pte new w with
  | fatal => exact .bind_fatal hback
  | raise t w' =>
    rw [SpecAt, hback] at hwrite
    exact .bind_raise hback hwrite
  | ok u w' =>
    rw [SpecAt, hback] at hwrite
    -- nothing after the write touches the world
    refine .bind_ok hback (B := Eq) (F := Eq) ?_ (fun _ h => h ▸ hwrite) (fun _ h => h ▸ hwrite)
    cases leafPaddr vaddr new leaf.level <;> rfl

theorem walkPage_spec :
    Quiet (Walked s) (walkPage s vaddr acc eff : WorldM D (BitVec 64)) := by
  intro w
  have hloop := walkFrom_spec (D := D) s vaddr acc (walkLevels s) (satpRoot s) 0 0
  unfold walkPage
  split
  · exact Walked.of_sameMem (.refl w)
  cases hwalk : walkFrom s vaddr acc (walkLevels s) (satpRoot s) 0 0 w with
  | fatal => exact .bind_fatal hwalk
  | raise t w1 => exact .bind_raise hwalk (.of_sameMem (hloop.of_raise hwalk))
  | ok leaf w1 =>
    have hsame := hloop.of_ok hwalk
    have hleaf := (walkFrom_found ⟨rfl, rfl⟩ hwalk).imp_left (·.of_sameMem hsame.symm)
    have hwalked : ∀ u, WroteBack leaf.pteAddr w1 u → Walked s w u := by
      intro u hu
      obtain ⟨hboard, hmem⟩ := WroteBack.of_sameMem_trans hsame hu
      exact ⟨hboard, hmem.imp_right fun had => ⟨_, ⟨vaddr, acc, leaf, w1, hwalk, rfl⟩, had⟩⟩
    exact .bind_ok hwalk (useLeaf_spec s vaddr acc eff hleaf) hwalked hwalked

end

/-! ### The whole translation -/

def SameButTlb (s s' : RiscvState) : Prop :=
  s' = { s with tlb := s'.tlb, tlbClock := s'.tlbClock }

theorem riscvTranslate_frame {m m' : Machine D}
    (h : (riscvTranslate vaddr size acc m).state? = some m') :
    m'.cpu = m.cpu ∧ SameButTlb m.rs m'.rs ∧ Walked m.rs m.w m'.w := by
  have hself : m.cpu = m.cpu ∧ SameButTlb m.rs m.rs ∧ Walked m.rs m.w m.w :=
    ⟨rfl, rfl, .of_sameMem (.refl m.w)⟩
  rw [riscvTranslate_apply] at h
  split at h
  · rw [translateBare_apply] at h
    split at h <;> cases h <;> exact hself
  split at h
  · cases h
    exact hself
  rw [translateMiss_apply] at h
  have hwalk := walkPage_spec (D := D) m.rs vaddr acc (effPriv m.rs acc)
  cases hp : walkPage m.rs vaddr acc (effPriv m.rs acc) m.w with
  | fatal => rw [hp] at h; cases h
  | raise t w =>
    rw [hp] at h
    cases h
    exact ⟨rfl, rfl, hwalk.of_raise hp⟩
  | ok paddr w =>
    rw [hp] at h
    simp only at h
    split at h <;> cases h <;> exact ⟨rfl, rfl, hwalk.of_ok hp⟩

end Cemu.Rv64
