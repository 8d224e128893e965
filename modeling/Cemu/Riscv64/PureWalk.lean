import Cemu.Riscv64.Walk

/-!
# riscv64: the walk as a function of memory

A walk whose entries lie in RAM is a function of the words it reads. `Walks` collects what
makes such a walk go through with nothing left to update; the walker then returns the
address it names and leaves memory alone. The results say how `Walks` carries over to
another page offset, to memory in which A and D bits were set, and to memory that agrees on
the words of the walk.
-/

namespace Cemu

open BitVec Outcome Option

/-- The word at `a`, where RAM answers there. -/
def World.ramWord {D : Type} (w : World D) (a : BitVec 64) : Option (BitVec 64) :=
  match w.regionAt a 8 with
  | some r => if r.ops = .kRamOps then some (w.ramRead r.dev a 8) else none
  | none => none

variable {D : Type}

theorem World.ramWord_eq_some {w : World D} {a v : BitVec 64} : w.ramWord a = some v ↔
      ∃ r, w.regionAt a 8 = some r ∧ r.ops = .kRamOps ∧ w.ramRead r.dev a 8 = v := by
  unfold ramWord
  cases w.regionAt a 8 with
  | none => simp
  | some r => simp

theorem World.SameMem.ramWord {w w' : World D} (h : SameMem w w') (a : BitVec 64) :
    w'.ramWord a = w.ramWord a := by
  simp only [World.ramWord, h.regionAt, h.ramRead]

theorem World.ramRead_ramWrite_same (w : World D) (dev : Nat) (a v : BitVec 64) :
    (w.ramWrite dev a 8 v).ramRead dev a 8 = v := by
  simp only [ramRead, ramWrite, hostLoad, hostStore, Function.update_self]
  exact ByteMem.load_store_same _ _ _

theorem World.ramRead_ramWrite_other (w : World D) (dev dev' : Nat) {a b : BitVec 64}
    (v : BitVec 64) (hne : a ≠ b) (ha : a % 8 = 0) (hb : b % 8 = 0) :
    (w.ramWrite dev b 8 v).ramRead dev' a 8 = w.ramRead dev' a 8 := by
  simp only [ramRead, ramWrite, hostLoad, hostStore]
  by_cases hdev : dev' = dev
  · subst hdev
    rw [Function.update_self]
    generalize (w.ram dev').base = base
    refine ByteMem.load_store_other _ _ (fun h => hne ?_) ?_
    · bv_omega
    · have hsub : a - base - (b - base) = a - b := by bv_omega
      have ha' := congrArg BitVec.toNat ha
      have hb' := congrArg BitVec.toNat hb
      simp only [toNat_umod, ofNat_eq_ofNat, toNat_ofNat, Nat.reducePow, Nat.reduceMod] at ha' hb'
      rw [hsub, toNat_sub]
      omega
  · rw [Function.update_of_ne hdev]

namespace Rv64

open World RaiseM

variable {D : Type}

/-- The addresses of the words it reads. -/
def walkWords (w : World D) (vaddr : BitVec 64) : Nat → BitVec 64 → List (BitVec 64)
  | 0, _ => []
  | n + 1, ppnBase =>
    pteAddrAt vaddr n ppnBase ::
      match w.ramWord (pteAddrAt vaddr n ppnBase) with
      | some pte => if pteInvalid pte || pteLeaf pte then [] else walkWords w vaddr n (pte >>> 10)
      | none => []

/-- The walk as a function of the words in RAM. -/
def ramWalk (w : World D) (vaddr : BitVec 64) : Nat → BitVec 64 → Option Walk
  | 0, _ => none
  | n + 1, ppnBase =>
    match w.ramWord (pteAddrAt vaddr n ppnBase) with
    | some pte =>
      if pteInvalid pte then none
      else if pteLeaf pte then some ⟨pteAddrAt vaddr n ppnBase, pte, n⟩
      else ramWalk w vaddr n (pte >>> 10)
    | none => none

variable {w w' : World D} {vaddr ppnBase vaddr' pte pteAddr : BitVec 64} {n : Nat} {leaf : Walk}
  {s : RiscvState}

theorem ramWalk_succ_eq_some (h : ramWalk w vaddr (n + 1) ppnBase = some leaf) :
    ∃ pte, w.ramWord (pteAddrAt vaddr n ppnBase) = some pte ∧ pteInvalid pte = false ∧
      ((pteLeaf pte = true ∧ leaf = ⟨pteAddrAt vaddr n ppnBase, pte, n⟩ ∧
          walkWords w vaddr (n + 1) ppnBase = [pteAddrAt vaddr n ppnBase]) ∨
       (pteLeaf pte = false ∧ ramWalk w vaddr n (pte >>> 10) = some leaf ∧
          walkWords w vaddr (n + 1) ppnBase =
            pteAddrAt vaddr n ppnBase :: walkWords w vaddr n (pte >>> 10))) := by
  rw [ramWalk] at h
  rw [walkWords]
  cases hword : w.ramWord (pteAddrAt vaddr n ppnBase) with
  | none => rw [hword] at h; cases h
  | some pte =>
    rw [hword] at h
    simp only at h
    refine ⟨pte, rfl, ?_⟩
    cases hinv : pteInvalid pte with
    | true => simp [hinv] at h
    | false =>
      refine ⟨rfl, ?_⟩
      cases hleaf : pteLeaf pte with
      | true =>
        simp only [hinv, hleaf, Bool.false_eq_true, if_false, if_true, some.injEq] at h
        exact .inl ⟨rfl, h.symm, by simp [hleaf]⟩
      | false =>
        simp only [hinv, hleaf, Bool.false_eq_true, if_false] at h
        exact .inr ⟨rfl, h, by simp [hinv, hleaf]⟩

theorem ramWalk_congr (h : ∀ a ∈ walkWords w vaddr n ppnBase, w'.ramWord a = w.ramWord a) :
    ramWalk w' vaddr n ppnBase = ramWalk w vaddr n ppnBase ∧
      walkWords w' vaddr n ppnBase = walkWords w vaddr n ppnBase := by
  induction n generalizing ppnBase with
  | zero => exact ⟨rfl, rfl⟩
  | succ n ih =>
    rw [walkWords] at h
    have hhead := h _ List.mem_cons_self
    simp only [ramWalk, walkWords, hhead]
    cases hword : w.ramWord (pteAddrAt vaddr n ppnBase) with
    | none => exact ⟨rfl, rfl⟩
    | some pte =>
      rw [hword] at h
      cases hinv : pteInvalid pte <;> cases hleaf : pteLeaf pte <;> simp only [hinv, hleaf] at h ⊢
      · obtain ⟨hwalk, hwords⟩ := ih fun a ha => h a (List.mem_cons_of_mem _ ha)
        simp [hwalk, hwords]
      all_goals simp

theorem ramWalk_sameMem (h : SameMem w w') (vaddr ppnBase : BitVec 64) (n : Nat) :
    ramWalk w' vaddr n ppnBase = ramWalk w vaddr n ppnBase ∧
      walkWords w' vaddr n ppnBase = walkWords w vaddr n ppnBase :=
  ramWalk_congr fun a _ => h.ramWord a

theorem ramWord_of_ramWalk (h : ramWalk w vaddr n ppnBase = some leaf) :
    w.ramWord leaf.pteAddr = some leaf.pte := by
  induction n generalizing ppnBase with
  | zero => cases h
  | succ n ih =>
    obtain ⟨pte, hword, -, ⟨-, rfl, -⟩ | ⟨-, hrest, -⟩⟩ := ramWalk_succ_eq_some h
    · exact hword
    · exact ih hrest

theorem pteAddrAt_samePage (hpage : vaddr' >>> 12 = vaddr >>> 12) (level : Nat) (base : BitVec 64) :
    pteAddrAt vaddr' level base = pteAddrAt vaddr level base := by
  rw [pteAddrAt, pteAddrAt, shiftRight_add, hpage, shiftRight_add]

theorem ramWalk_samePage (hpage : vaddr' >>> 12 = vaddr >>> 12) (w : World D) (n : Nat)
    (ppnBase : BitVec 64) :
    ramWalk w vaddr' n ppnBase = ramWalk w vaddr n ppnBase ∧
      walkWords w vaddr' n ppnBase = walkWords w vaddr n ppnBase := by
  induction n generalizing ppnBase with
  | zero => exact ⟨rfl, rfl⟩
  | succ n ih =>
    simp only [ramWalk, walkWords, pteAddrAt_samePage hpage, fun base => (ih base).1,
      fun base => (ih base).2]
    trivial

/-! ### The walker and the walk through RAM -/

def WordsAllowed (s : RiscvState) (words : List (BitVec 64)) : Prop :=
  ∀ a ∈ words, riscvPmpAllowed s a 8 .read kPrivSupervisor = true

instance (s : RiscvState) (words : List (BitVec 64)) : Decidable (WordsAllowed s words) :=
  inferInstanceAs (Decidable (∀ a ∈ words, _ = _))

theorem pteRead_of_ramWord {a : BitVec 64} (acc : Acc)
    (hpmp : riscvPmpAllowed s a 8 .read kPrivSupervisor = true) (h : w.ramWord a = some pte) :
    ∃ w', pteRead s a acc w = .ok pte w' ∧ SameMem w w' := by
  obtain ⟨r, hr, hops, rfl⟩ := World.ramWord_eq_some.1 h
  have hsame := w.find_sameButCache a 8
  have hfind : (w.find a 8).1 = some r := by rw [w.find_fst a (by decide), hr]
  have hread := World.busRead_of_ram (by decide) ((hsame.regionAt a 8).trans hr) hops
  refine ⟨((w.find a 8).2.find a 8).2, ?_, hsame.toSameMem.trans
    (World.find_sameButCache _ _ _).toSameMem⟩
  simp only [pteRead, hpmp, Bool.not_true, Bool.false_eq_true, if_false, RaiseM.bind_apply, probe,
    bind_ok, busProbe, hfind, Rv64.busRead, hread, hsame.toSameMem.ramRead]

theorem walkFrom_of_ramWalk (h : ramWalk w vaddr n ppnBase = some leaf)
    (hpmp : WordsAllowed s (walkWords w vaddr n ppnBase)) (acc : Acc) (pteAddr pte : BitVec 64) :
    ∃ w', walkFrom s vaddr acc n ppnBase pteAddr pte w = .ok leaf w' ∧ SameMem w w' := by
  induction n generalizing w ppnBase pteAddr pte with
  | zero => cases h
  | succ n ih =>
    obtain ⟨pte', hword, hval, hcase⟩ := ramWalk_succ_eq_some h
    have hhead : pteAddrAt vaddr n ppnBase ∈ walkWords w vaddr (n + 1) ppnBase :=
      List.mem_cons_self
    obtain ⟨w1, hread, hsame⟩ := pteRead_of_ramWord acc (hpmp _ hhead) hword
    simp only [walkFrom, RaiseM.bind_apply, hread, bind_ok, hval]
    obtain ⟨hleaf, rfl, -⟩ | ⟨hleaf, hrest, hwords⟩ := hcase
    · exact ⟨w1, by simp [hleaf], hsame⟩
    obtain ⟨hwalk, hlist⟩ := ramWalk_sameMem hsame vaddr (pte' >>> 10) n
    rw [← hwalk] at hrest
    rw [hwords, ← hlist] at hpmp
    obtain ⟨w', hw', hsame'⟩ := ih hrest (fun a ha => hpmp a (List.mem_cons_of_mem _ ha))
      (pteAddrAt vaddr n ppnBase) pte'
    exact ⟨w', by simpa [hleaf] using hw', hsame.trans hsame'⟩

theorem wordsAllowed_of_walkFrom {acc : Acc} {found : Walk}
    (h : ramWalk w vaddr n ppnBase = some leaf)
    (hwalk : walkFrom s vaddr acc n ppnBase pteAddr pte w = .ok found w') :
    WordsAllowed s (walkWords w vaddr n ppnBase) := by
  induction n generalizing w ppnBase pteAddr pte with
  | zero => cases h
  | succ n ih =>
    obtain ⟨pte', hword, -, hcase⟩ := ramWalk_succ_eq_some h
    obtain ⟨pte1, w1, hread, -, hstep⟩ := walkFrom_succ_eq_ok hwalk
    obtain ⟨hallowed, r, hr, hval⟩ := pteRead_eq_ok hread
    obtain ⟨r', hr', hops, hval'⟩ := World.ramWord_eq_some.1 hword
    obtain rfl : r = r' := some.inj (hr.symm.trans hr')
    obtain rfl : pte1 = pte' := (hval hops).trans hval'
    obtain ⟨-, -, hwords⟩ | ⟨hleaf, hrest, hwords⟩ := hcase
    · rw [hwords]
      simpa [WordsAllowed] using hallowed
    obtain ⟨hleaf', -⟩ | ⟨-, hwalk'⟩ := hstep
    · rw [hleaf] at hleaf'
      cases hleaf'
    obtain ⟨hsame, hlist⟩ :=
      ramWalk_sameMem ((pteRead_spec s _ acc).of_ok hread) vaddr (pte1 >>> 10) n
    rw [hwords, ← hlist]
    rw [← hsame] at hrest
    intro a ha
    obtain rfl | ha := List.mem_cons.1 ha
    · exact hallowed
    · exact ih hrest hwalk' a ha

def InRam (w : World D) (a : BitVec 64) : Prop :=
  ∀ r, w.regionAt a 8 = some r → r.ops = .kRamOps

theorem ramWalk_of_walkFrom {acc : Acc} (hram : ∀ a ∈ walkWords w vaddr n ppnBase, InRam w a)
    (hpte : IsPointer pte) (hleaf : ¬ IsPointer leaf.pte)
    (h : walkFrom s vaddr acc n ppnBase pteAddr pte w = .ok leaf w') :
    ramWalk w vaddr n ppnBase = some leaf := by
  induction n generalizing w ppnBase pteAddr pte with
  | zero =>
    cases h
    exact absurd hpte hleaf
  | succ n ih =>
    obtain ⟨pte', w1, hread, hval, hstep⟩ := walkFrom_succ_eq_ok h
    obtain ⟨-, r, hr, hword⟩ := pteRead_eq_ok hread
    have hops := hram _ List.mem_cons_self r hr
    have hword' : w.ramWord (pteAddrAt vaddr n ppnBase) = some pte' :=
      World.ramWord_eq_some.2 ⟨r, hr, hops, (hword hops).symm⟩
    rw [ramWalk, hword']
    simp only [hval, Bool.false_eq_true, if_false]
    obtain ⟨hl, rfl, rfl⟩ | ⟨hl, hrest⟩ := hstep
    · simp [hl]
    have hsame := (pteRead_spec s _ acc).of_ok hread
    obtain ⟨hwalk, hlist⟩ := ramWalk_sameMem hsame vaddr (pte' >>> 10) n
    simp only [hl, Bool.false_eq_true, if_false]
    rw [← hwalk]
    refine ih (fun a ha r' hr' => ?_) (isPointer_of_valid hval hl) hrest
    rw [hsame.regionAt] at hr'
    refine hram a ?_ r' hr'
    rw [walkWords, hword']
    simp only [hval, hl, Bool.or_self, Bool.false_eq_true, if_false]
    rw [← hlist]
    exact List.mem_cons_of_mem _ ha

/-! ### Entries with A and D bits added -/

structure AdGrown (pte new : BitVec 64) : Prop where
  sub : pte &&& new = pte
  rest : new &&& ~~~kPteAd = pte &&& ~~~kPteAd

namespace AdGrown

variable {pte new : BitVec 64} (h : AdGrown pte new)

include h

theorem and_eq {k : BitVec 64} (hk : ~~~kPteAd &&& k = k) : new &&& k = pte &&& k :=
  BitMask.and_congr h.rest hk

theorem and_ne_zero {k : BitVec 64} (hk : pte &&& k ≠ 0) : new &&& k ≠ 0 := by
  intro hzero
  apply hk
  rw [← h.sub, BitVec.and_assoc, hzero]
  exact and_zero

theorem ppn_eq : new >>> 10 = pte >>> 10 := by
  have hkeep : ~~~kPteAd >>> 10 = BitVec.allOnes 64 >>> 10 := by decide
  rw [← BitMask.and_ushiftRight hkeep new, h.rest, BitMask.and_ushiftRight hkeep]

theorem ptePermits (s : RiscvState) (eff : BitVec 8) (acc : Acc) :
    ptePermits s eff acc new = ptePermits s eff acc pte := by
  simp only [Rv64.ptePermits, h.and_eq (k := kPteU) (by decide), h.and_eq (k := kPteX) (by decide),
    h.and_eq (k := kPteR) (by decide), h.and_eq (k := kPteW) (by decide)]

theorem leafPaddr (vaddr : BitVec 64) (level : Int) :
    leafPaddr vaddr new level = leafPaddr vaddr pte level := by
  simp only [Rv64.leafPaddr, h.ppn_eq]

theorem pteInvalid : pteInvalid new = pteInvalid pte := by
  simp only [Rv64.pteInvalid, h.and_eq (k := kPteV) (by decide),
    h.and_eq (k := kPteR) (by decide), h.and_eq (k := kPteW) (by decide),
    h.and_eq (k := kPteReserved) (by decide)]

theorem pteLeaf : pteLeaf new = pteLeaf pte := by
  simp only [Rv64.pteLeaf, h.and_eq (k := kPteR ||| kPteX) (by decide)]

end AdGrown
variable {s : RiscvState} {acc : Acc} {pte new vaddr : BitVec 64} {w w' : World D}

theorem adUpdate_bits (h : adUpdate s acc pte = some new) :
    new &&& kPteA ≠ 0 ∧ (acc = .write ∨ acc = .amo → new &&& kPteD ≠ 0) := by
  have hset : ∀ x k : BitVec 64, (x ||| k) &&& k = k := by
    intro x k
    rw [and_or_distrib_right]
    ext i
    simp
  have hkeep : ∀ x k b : BitVec 64, x &&& b ≠ 0 → (x ||| k) &&& b ≠ 0 := by
    intro x k b hx hzero
    rw [and_or_distrib_right] at hzero
    exact hx (BitVec.or_eq_zero_iff.1 hzero).1
  have hA : kPteA ≠ 0 := by decide
  have hD : kPteD ≠ 0 := by decide
  simp only [adUpdate] at h
  split at h
  · cases h
  · cases h
    constructor
    · by_cases ha : pte &&& kPteA = 0
      · rw [if_pos ha, hset]
        exact hA
      · rw [if_neg ha]
        split
        · exact hkeep _ _ _ ha
        · exact ha
    · intro hacc
      have hnew : (if (acc = .write ∨ acc = .amo) ∧ pte &&& kPteD = 0 then pte ||| kPteD else pte)
          &&& kPteD ≠ 0 := by
        split
        · rw [hset]
          exact hD
        · next hd => exact fun hzero => hd ⟨hacc, hzero⟩
      split
      · exact hkeep _ _ _ hnew
      · exact hnew

theorem adUpdate_of_bits (s : RiscvState) (ha : pte &&& kPteA ≠ 0)
    (hd : acc = .write ∨ acc = .amo → pte &&& kPteD ≠ 0) : adUpdate s acc pte = some pte := by
  have hstore : ¬ ((acc = .write ∨ acc = .amo) ∧ pte &&& kPteD = 0) := fun h => hd h.1 h.2
  rw [adUpdate, if_neg fun h => hstore ⟨h.1, h.2.1⟩]
  simp only [if_neg hstore, if_neg ha]

theorem AdGrown.adUpdate (h : AdGrown pte new) (hup : adUpdate s acc pte = some pte) :
    adUpdate s acc new = some new := by
  obtain ⟨ha, hd⟩ := adUpdate_bits hup
  exact adUpdate_of_bits s (h.and_ne_zero ha) fun hacc => h.and_ne_zero (hd hacc)

theorem adUpdate_idem (h : adUpdate s acc pte = some new) : adUpdate s acc new = some new :=
  adUpdate_of_bits s (adUpdate_bits h).1 (adUpdate_bits h).2

/-! ### Memory in which only the walker wrote -/

structure Grows (w w' : World D) : Prop extends SameBoard w w' where
  words : ∀ a, a % 8 = 0 → w'.ramWord a = w.ramWord a ∨
    ∃ pte new, w.ramWord a = some pte ∧ w'.ramWord a = some new ∧ pteInvalid pte = false ∧
      pteLeaf pte = true ∧ AdGrown pte new

theorem Grows.of_sameMem (h : SameMem w w') : Grows w w' :=
  ⟨h.toSameBoard, fun a _ => .inl (h.ramWord a)⟩

theorem Grows.of_adSet {b : BitVec 64} (hboard : SameBoard w w') (h : AdSet w b w'.mem) :
    Grows w w' := by
  obtain ⟨halign, r, pte, new, hr, hops, hpte, hval, hleaf, hsub, hrest, hmem⟩ := h
  have hread : ∀ dev a, w'.ramRead dev a 8 = (w.ramWrite r.dev b 8 new).ramRead dev a 8 := by
    intro dev a
    rw [ramRead, ramRead, hostLoad, hostLoad, hmem, hboard.ram]
    rfl
  refine ⟨hboard, fun a ha => ?_⟩
  by_cases hab : a = b
  · subst hab
    refine .inr ⟨pte, new, ?_, ?_, hval, hleaf, hsub, hrest⟩
    · exact World.ramWord_eq_some.2 ⟨r, hr, hops, hpte⟩
    · refine World.ramWord_eq_some.2 ⟨r, (hboard.regionAt a 8).trans hr, hops, ?_⟩
      rw [hread, ramRead_ramWrite_same]
  · refine .inl ?_
    simp only [ramWord, hboard.regionAt, hread, w.ramRead_ramWrite_other _ _ _ hab ha halign]

theorem Walked.grows (h : Walked s w w') : Grows w w' := by
  obtain ⟨hboard, hmem | ⟨a, -, had⟩⟩ := h
  · exact .of_sameMem ⟨hboard, hmem⟩
  · exact .of_adSet hboard had

variable {leaf : Walk}

theorem Grows.ramWalk (h : Grows w w') {ppnBase : BitVec 64} {n : Nat}
    (hwalk : ramWalk w vaddr n ppnBase = some leaf) :
    walkWords w' vaddr n ppnBase = walkWords w vaddr n ppnBase ∧
      ∃ new, ramWalk w' vaddr n ppnBase = some { leaf with pte := new } ∧
        AdGrown leaf.pte new := by
  induction n generalizing ppnBase with
  | zero => cases hwalk
  | succ n ih =>
    have hword := h.words _ (pteAddrAt_aligned vaddr n ppnBase)
    obtain ⟨pte, hpte, hval, ⟨hleaf, rfl, hwords⟩ | ⟨hleaf, hrest, hwords⟩⟩ :=
      ramWalk_succ_eq_some hwalk
    · -- the leaf itself: kept, or grown
      obtain ⟨new, hnew, hgrown⟩ : ∃ new, w'.ramWord (pteAddrAt vaddr n ppnBase) = some new ∧
          AdGrown pte new := by
        obtain hsame | ⟨pte', new, hpte', hnew, -, -, hgrown⟩ := hword
        · exact ⟨pte, hsame.trans hpte, BitVec.and_self, rfl⟩
        · obtain rfl : pte' = pte := some.inj (hpte'.symm.trans hpte)
          exact ⟨new, hnew, hgrown⟩
      rw [hwords]
      simp only [Rv64.ramWalk, walkWords, hnew, hgrown.pteInvalid, hgrown.pteLeaf, hval, hleaf]
      exact ⟨rfl, new, rfl, hgrown⟩
    · -- a pointer is no leaf, so the walker did not write it
      have hsame : w'.ramWord (pteAddrAt vaddr n ppnBase) = some pte := by
        obtain hsame | ⟨pte', new, hpte', -, -, hleaf', -⟩ := hword
        · exact hsame.trans hpte
        · obtain rfl : pte' = pte := some.inj (hpte'.symm.trans hpte)
          rw [hleaf] at hleaf'
          cases hleaf'
      obtain ⟨hlist, new, hnew, hgrown⟩ := ih hrest
      rw [hwords]
      simp only [Rv64.ramWalk, walkWords, hsame, hval, hleaf, hlist]
      exact ⟨rfl, new, hnew, hgrown⟩

/-! ### What the tables map -/

/-- The tables in RAM map `vaddr` to `paddr` for the access class and mode, and the leaf
needs no update. -/
structure Maps (s : RiscvState) (w : World D) (vaddr : BitVec 64) (acc : Acc) (eff : BitVec 8)
    (paddr : BitVec 64) : Prop where
  intro ::
  canonical : isCanonical s vaddr = true
  leaf : ∃ leaf, ramWalk w vaddr (walkLevels s) (satpRoot s) = some leaf ∧
    ptePermits s eff acc leaf.pte = true ∧ adUpdate s acc leaf.pte = some leaf.pte ∧
    leafPaddr vaddr leaf.pte leaf.level = some paddr

def tableWords (s : RiscvState) (w : World D) (vaddr : BitVec 64) : List (BitVec 64) :=
  walkWords w vaddr (walkLevels s) (satpRoot s)

/-- What the tables in RAM say of an access: the PMP entries let the walker read each word of
the walk, the leaf permits the access and takes its A and D bits, and it names `paddr`. -/
structure TablesMap (s : RiscvState) (w : World D) (vaddr : BitVec 64) (acc : Acc)
    (eff : BitVec 8) (paddr : BitVec 64) : Prop where
  intro ::
  canonical : isCanonical s vaddr = true
  words : WordsAllowed s (tableWords s w vaddr)
  leaf : ∃ leaf new, ramWalk w vaddr (walkLevels s) (satpRoot s) = some leaf ∧
    ptePermits s eff acc leaf.pte = true ∧ adUpdate s acc leaf.pte = some new ∧
    leafPaddr vaddr new leaf.level = some paddr

theorem walkPage_of_canonical (acc : Acc) (eff : BitVec 8) (h : isCanonical s vaddr = true)
    (w : World D) :
    walkPage s vaddr acc eff w = (walkFrom s vaddr acc (walkLevels s) (satpRoot s) 0 0 w).bind
        fun leaf w' => useLeaf s vaddr acc eff leaf w' := by
  rw [walkPage, h]
  rfl

theorem useLeaf_of_updated {paddr : BitVec 64} {eff : BitVec 8}
    (hperm : ptePermits s eff acc leaf.pte = true) (hup : adUpdate s acc leaf.pte = some leaf.pte)
    (hpaddr : leafPaddr vaddr leaf.pte leaf.level = some paddr) (w : World D) :
    useLeaf s vaddr acc eff leaf w = .ok paddr w := by
  simp [useLeaf, hperm, hup, writeBack, hpaddr]

namespace Maps

variable {s : RiscvState} {w w' : World D} {vaddr paddr : BitVec 64} {acc : Acc} {eff : BitVec 8}

theorem walkPage (h : Maps s w vaddr acc eff paddr) (hpmp : WordsAllowed s (tableWords s w vaddr)) :
    ∃ w', walkPage s vaddr acc eff w = .ok paddr w' ∧ SameMem w w' := by
  obtain ⟨hcanon, leaf, hwalk, hperm, hup, hpaddr⟩ := h
  obtain ⟨w', hfrom, hsame⟩ := walkFrom_of_ramWalk hwalk hpmp acc 0 0
  refine ⟨w', ?_, hsame⟩
  rw [walkPage_of_canonical acc eff hcanon, hfrom, bind_ok, useLeaf_of_updated hperm hup hpaddr]

theorem wordsAllowed (h : Maps s w vaddr acc eff paddr) {p : BitVec 64}
    (hwalk : Rv64.walkPage s vaddr acc eff w = .ok p w') :
    WordsAllowed s (tableWords s w vaddr) := by
  obtain ⟨hcanon, leaf, hram, -⟩ := h
  rw [walkPage_of_canonical acc eff hcanon] at hwalk
  obtain ⟨found, w1, hfrom, -⟩ := Outcome.bind_eq_ok hwalk
  exact wordsAllowed_of_walkFrom hram hfrom

theorem congr {s' : RiscvState} (hctx : SameCtx s s') (h : Maps s w vaddr acc eff paddr) :
    Maps s' w vaddr acc eff paddr := by
  obtain ⟨hcanon, leaf, hwalk, hperm, hup, hpaddr⟩ := h
  refine ⟨(hctx.isCanonical vaddr).trans hcanon, leaf, ?_, ?_, ?_, hpaddr⟩
  · rw [hctx.walkLevels, hctx.satpRoot, hwalk]
  · rw [hctx.ptePermits, hperm]
  · rw [hctx.adUpdate, hup]

theorem grow (hg : Grows w w') (h : Maps s w vaddr acc eff paddr) :
    Maps s w' vaddr acc eff paddr := by
  obtain ⟨hcanon, leaf, hwalk, hperm, hup, hpaddr⟩ := h
  obtain ⟨-, new, hnew, hgrown⟩ := hg.ramWalk hwalk
  refine ⟨hcanon, { leaf with pte := new }, hnew, ?_, hgrown.adUpdate hup, ?_⟩
  · exact (hgrown.ptePermits s eff acc).trans hperm
  · exact (hgrown.leafPaddr vaddr leaf.level).trans hpaddr

theorem frozen (hw : ∀ a ∈ tableWords s w vaddr, w'.ramWord a = w.ramWord a)
    (h : Maps s w vaddr acc eff paddr) : Maps s w' vaddr acc eff paddr := by
  obtain ⟨hcanon, leaf, hwalk, hrest⟩ := h
  exact ⟨hcanon, leaf, (ramWalk_congr hw).1.trans hwalk, hrest⟩

end Maps

theorem and_pageMask (x : BitVec 64) : x &&& ~~~0xfff#64 = x >>> 12 <<< 12 := by
  rw [shiftLeft_ushiftRight]
  rfl

variable {vaddr vaddr' pte paddr : BitVec 64} {s : RiscvState} {w w' : World D} {acc : Acc}
  {eff : BitVec 8}

/-- Two addresses on one page differ only below the page, under any mask that keeps the
offset. -/
theorem and_mask_samePage {mask : BitVec 64} (hpage : vaddr' >>> 12 = vaddr >>> 12)
    (hmask : mask &&& 0xfff#64 = 0xfff#64) :
    vaddr' &&& mask = (vaddr &&& mask &&& ~~~0xfff#64) ||| (vaddr' &&& 0xfff#64) := by
  calc vaddr' &&& mask
      = (vaddr' &&& ~~~0xfff#64 &&& mask) ||| (vaddr' &&& (mask &&& 0xfff#64)) := by
        rw [BitVec.and_assoc, BitVec.and_comm (~~~0xfff#64), ← and_or_distrib_left,
          ← and_or_distrib_left,
          show ~~~0xfff#64 ||| 0xfff#64 = BitVec.allOnes 64 by decide, and_allOnes]
    _ = (vaddr &&& ~~~0xfff#64 &&& mask) ||| (vaddr' &&& 0xfff#64) := by
        rw [and_pageMask, hpage, ← and_pageMask, hmask]
    _ = (vaddr &&& mask &&& ~~~0xfff#64) ||| (vaddr' &&& 0xfff#64) := by
        rw [BitVec.and_assoc, BitVec.and_comm (~~~0xfff#64), ← BitVec.and_assoc]

theorem offMask_pageOff (n : Nat) : (1#64 <<< (12 + n) - 1) &&& 0xfff#64 = 0xfff#64 := by
  rw [Nat.add_comm, shiftLeft_add]
  generalize 1#64 <<< n = x
  apply eq_of_toNat_eq
  have hand : ((x <<< 12 - 1) &&& 0xfff#64).toNat = (x <<< 12 - 1).toNat % 4096 :=
    Nat.and_two_pow_sub_one_eq_mod _ 12
  rw [hand, toNat_sub, toNat_shiftLeft]
  simp only [toNat_ofNat, ofNat_eq_ofNat]
  omega

section

variable (hpage : vaddr' >>> 12 = vaddr >>> 12)
include hpage

theorem leafPaddr_samePage {level : Int} (h : leafPaddr vaddr pte level = some paddr) :
    leafPaddr vaddr' pte level = some (paddr &&& ~~~0xfff ||| (vaddr' &&& 0xfff)) := by
  -- a frame, and the part of the address under a mask that keeps the page offset
  have hframe : ∀ frame mask : BitVec 64, mask &&& 0xfff#64 = 0xfff#64 →
      paddr = frame <<< 12 ||| (vaddr &&& mask) →
      frame <<< 12 ||| (vaddr' &&& mask) = paddr &&& ~~~0xfff#64 ||| (vaddr' &&& 0xfff#64) := by
    rintro frame mask hmask rfl
    have hlow : frame <<< 12 &&& ~~~0xfff#64 = frame <<< 12 := by
      rw [show ~~~0xfff#64 = BitVec.allOnes 64 <<< 12 by decide, ← shiftLeft_and_distrib,
        and_allOnes]
    rw [and_mask_samePage hpage hmask, and_or_distrib_right, hlow, BitVec.or_assoc]
  unfold leafPaddr at h ⊢
  simp only at h ⊢
  split at h
  · next hpos =>
    split at h
    · cases h
    · next hlow =>
      rw [if_pos hpos, if_neg hlow]
      exact congrArg some (hframe _ _ (offMask_pageOff _) (some.inj h).symm)
  · next hpos =>
    rw [if_neg hpos]
    exact congrArg some (hframe _ _ rfl (some.inj h).symm)

theorem sext_samePage {n : Nat} (hn : n ≤ 51) (h : (vaddr <<< n).sshiftRight n = vaddr) :
    (vaddr' <<< n).sshiftRight n = vaddr' := by
  have hbit : ∀ i, 12 ≤ i → vaddr'.getLsbD i = vaddr.getLsbD i := by
    intro i hi
    have := congrArg (·.getLsbD (i - 12)) hpage
    simpa only [getLsbD_ushiftRight, Nat.add_sub_cancel' hi] using this
  have hmsb : ∀ x : BitVec 64, (x <<< n).msb = x.getLsbD (63 - n) := by
    intro x
    rw [msb_eq_getLsbD_last, getLsbD_shiftLeft]
    simp
    omega
  apply eq_of_getLsbD_eq
  intro i hi
  have hi' := congrArg (·.getLsbD i) h
  simp only [getLsbD_sshiftRight, getLsbD_shiftLeft, hmsb] at hi' ⊢
  split
  · next hlt =>
    have hge : ¬ 64 ≤ i := by omega
    have hlo : ¬ n + i < n := by omega
    simp only [hlt, hge, hlo, decide_true, decide_false, Bool.not_false, Bool.true_and,
      Nat.add_sub_cancel_left]
  · next hlt =>
    rw [if_neg hlt] at hi'
    rw [hbit _ (by omega), hbit i (by omega), ← hi']

theorem isCanonical_samePage : isCanonical s vaddr' = isCanonical s vaddr := by
  simp only [isCanonical]
  split
  all_goals
    exact decide_eq_decide.2 ⟨sext_samePage hpage.symm (by decide), sext_samePage hpage (by decide)⟩

theorem Maps.samePage (h : Maps s w vaddr acc eff paddr) :
    Maps s w vaddr' acc eff (paddr &&& ~~~0xfff ||| (vaddr' &&& 0xfff)) := by
  obtain ⟨hcanon, leaf, hwalk, hperm, hup, hpaddr⟩ := h
  refine ⟨(isCanonical_samePage hpage).trans hcanon, leaf, ?_, hperm, hup,
    leafPaddr_samePage hpage hpaddr⟩
  rw [(ramWalk_samePage hpage _ _ _).1, hwalk]

end

theorem useLeaf_eq_ok (h : useLeaf s vaddr acc eff leaf w = .ok paddr w') :
    ptePermits s eff acc leaf.pte = true ∧ ∃ new, adUpdate s acc leaf.pte = some new ∧
      leafPaddr vaddr new leaf.level = some paddr ∧
      writeBack vaddr acc leaf.pteAddr leaf.pte new w = .ok () w' := by
  unfold useLeaf at h
  split at h
  · cases h
  rename_i hperm
  refine ⟨by simpa using hperm, ?_⟩
  cases hup : adUpdate s acc leaf.pte with
  | none => rw [hup] at h; cases h
  | some new =>
    rw [hup] at h
    refine ⟨new, rfl, ?_⟩
    obtain ⟨u, w1, hback, h⟩ := RaiseM.bind_eq_ok h
    cases hpaddr : leafPaddr vaddr new leaf.level with
    | none => rw [hpaddr] at h; cases h
    | some p =>
      rw [hpaddr] at h
      cases h
      exact ⟨rfl, hback⟩

theorem writeBack_eq_ok {a new : BitVec 64} (hword : w.ramWord a = some pte)
    (h : writeBack vaddr acc a pte new w = .ok () w') : w'.ramWord a = some new := by
  unfold writeBack at h
  split at h
  · next heq =>
    cases h
    rw [hword, heq]
  obtain ⟨r, hr, hops, -⟩ := World.ramWord_eq_some.1 hword
  have hsame := w.find_sameButCache a 8
  have hfind : (w.find a 8).1 = some r := by rw [w.find_fst a (by decide), hr]
  simp only [RaiseM.bind_apply, probe, bind_ok, busProbe, hfind, Rv64.busWrite] at h
  cases hwrite : (w.find a 8).2.busWrite a 8 new with
  | none => rw [hwrite] at h; cases h
  | some w1 =>
    rw [hwrite] at h
    cases h
    obtain ⟨hboard, r', hr', hmem, -⟩ := busWrite_eq_some (by decide) hwrite
    rw [hsame.regionAt, hr] at hr'
    obtain rfl : r = r' := some.inj hr'
    refine World.ramWord_eq_some.2 ⟨r, ?_, hops, ?_⟩
    · rw [hboard.regionAt, hsame.regionAt, hr]
    · rw [← (w.find a 8).2.ramRead_ramWrite_same r.dev a new]
      simp only [ramRead, hostLoad, hmem hops, hboard.ram]
      rfl

theorem writeBack_of_ramWord {a : BitVec 64} (hword : w.ramWord a = some pte)
    (vaddr new : BitVec 64) (acc : Acc) :
    ∃ w', writeBack vaddr acc a pte new w = .ok () w' := by
  unfold writeBack
  split
  · exact ⟨w, rfl⟩
  obtain ⟨r, hr, -, -⟩ := World.ramWord_eq_some.1 hword
  have hfind : (w.find a 8).1 = some r := by rw [w.find_fst a (by decide), hr]
  have hagain : ((w.find a 8).2.find a 8).1 = some r := by
    rw [find_fst _ a (by decide), (w.find_sameButCache a 8).regionAt, hr]
  simp only [RaiseM.bind_apply, probe, bind_ok, busProbe, hfind, Rv64.busWrite, World.busWrite]
  generalize (w.find a 8).2.find a 8 = found at hagain
  obtain ⟨region, w1⟩ := found
  obtain rfl : region = some r := hagain
  exact ⟨_, rfl⟩

section

variable (hram : ∀ a ∈ tableWords s w vaddr, InRam w a)
include hram

/-- As long as no device takes part in it, a walk that goes through is the one through RAM. -/
theorem walkPage_eq_ok (h : walkPage s vaddr acc eff w = .ok paddr w') :
    isCanonical s vaddr = true ∧
      ∃ leaf w1, ramWalk w vaddr (walkLevels s) (satpRoot s) = some leaf ∧ ¬ IsPointer leaf.pte ∧
        walkFrom s vaddr acc (walkLevels s) (satpRoot s) 0 0 w = .ok leaf w1 ∧
        useLeaf s vaddr acc eff leaf w1 = .ok paddr w' := by
  cases hcanon : isCanonical s vaddr with
  | false => simp [walkPage, hcanon] at h
  | true =>
    rw [walkPage_of_canonical acc eff hcanon] at h
    obtain ⟨leaf, w1, hfrom, huse⟩ := Outcome.bind_eq_ok h
    have hleaf : ¬ IsPointer leaf.pte := by
      intro hp
      have hperm := (useLeaf_eq_ok huse).1
      rw [ptePermits_pointer hp] at hperm
      cases hperm
    exact ⟨rfl, leaf, w1, ramWalk_of_walkFrom hram ⟨rfl, rfl⟩ hleaf hfrom, hleaf, hfrom, huse⟩

theorem walks_iff_tablesMap :
    (∃ w', walkPage s vaddr acc eff w = .ok paddr w') ↔ TablesMap s w vaddr acc eff paddr := by
  constructor
  · rintro ⟨w', h⟩
    obtain ⟨hcanon, leaf, w1, hwalk, -, hfrom, huse⟩ := walkPage_eq_ok hram h
    obtain ⟨hperm, new, hup, hpaddr, -⟩ := useLeaf_eq_ok huse
    exact ⟨hcanon, wordsAllowed_of_walkFrom hwalk hfrom, leaf, new, hwalk, hperm, hup, hpaddr⟩
  · rintro ⟨hcanon, hpmp, leaf, new, hwalk, hperm, hup, hpaddr⟩
    obtain ⟨w1, hfrom, hsame⟩ := walkFrom_of_ramWalk hwalk hpmp acc 0 0
    have hword : w1.ramWord leaf.pteAddr = some leaf.pte :=
      (hsame.ramWord _).trans (ramWord_of_ramWalk hwalk)
    obtain ⟨w', hback⟩ := writeBack_of_ramWord hword vaddr new acc
    refine ⟨w', ?_⟩
    rw [walkPage_of_canonical acc eff hcanon, hfrom]
    simp [useLeaf, hperm, hup, hback, hpaddr]

/-- A walk that went through leaves tables that map its address, as long as no device took
part in it. -/
theorem maps_of_walkPage (h : walkPage s vaddr acc eff w = .ok paddr w') :
    Maps s w' vaddr acc eff paddr := by
  obtain ⟨hcanon, leaf, w1, hwalk0, hleaf, hfrom, huse⟩ := walkPage_eq_ok hram h
  obtain ⟨hperm, new, hup, hpaddr, hback⟩ := useLeaf_eq_ok huse
  have hsame := (walkFrom_spec s vaddr acc _ _ 0 0).of_ok hfrom
  have hfound := (walkFrom_found ⟨rfl, rfl⟩ hfrom).resolve_right hleaf
  have hwalk : ramWalk w1 vaddr (walkLevels s) (satpRoot s) = some leaf :=
    (ramWalk_sameMem hsame _ _ _).1.trans hwalk0
  have hgrows : Grows w1 w' := by
    have hwrote : WroteBack leaf.pteAddr w1 w' := by
      have := useLeaf_spec s vaddr acc eff (.inl (hfound.of_sameMem hsame.symm))
      rwa [SpecAt, huse] at this
    obtain ⟨hboard, hmem | had⟩ := hwrote
    · exact .of_sameMem ⟨hboard, hmem⟩
    · exact .of_adSet hboard had
  -- the leaf that the walk through the new memory finds is the updated one
  obtain ⟨-, new', hwalk', -⟩ := hgrows.ramWalk hwalk
  have hword := writeBack_eq_ok (ramWord_of_ramWalk hwalk) hback
  obtain rfl : new = new' :=
    some.inj (hword.symm.trans (ramWord_of_ramWalk hwalk'))
  obtain ⟨hsub, hrest⟩ := adUpdate_eq_some hup
  exact ⟨hcanon, _, hwalk', ((AdGrown.mk hsub hrest).ptePermits s eff acc).trans hperm,
    adUpdate_idem hup, hpaddr⟩

end

end Rv64

end Cemu
