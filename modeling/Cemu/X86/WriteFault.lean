import Cemu.X86.Frame

/-!
# x86: page faults of a store within one page

A walk looks before it writes: every fault it raises comes before it sets an accessed or dirty
bit. So a store that stays in one page and faults has changed no byte of memory, and one that
succeeded leaves a cached translation under which every later store to the page succeeds too.
-/

namespace Cemu.X86

open RaiseM Relation

variable {D : Type}

/-! ### A fault comes before any store -/

def SameMem (m m' : Machine D) : Prop := World.SameMem m.w m'.w

theorem SameMem.of_run {m m' : Machine D} (h : ReflTransGen SameMem m m') : SameMem m m' := by
  induction h with
  | refl => exact World.SameMem.refl _
  | tail _ hstep ih => exact World.SameMem.trans ih hstep

/-- Whatever it does before a fault, the computation leaves memory alone until then. -/
abbrev LooksFirst {α : Type} (c : X86M D α) : Prop := Made SameMem (fun _ _ => True) c

namespace LooksFirst

variable {α β : Type} {c : X86M D α} {f : α → X86M D β}

theorem bind (hc : Still SameMem c) (hf : ∀ a, LooksFirst (f a)) : LooksFirst (c >>= f) :=
  Still.bind_made (fun _ _ _ => trivial) hc hf

theorem ofStill (hc : Still SameMem c) : LooksFirst c := Still.made (fun _ _ _ => trivial) hc

theorem ofEffect (hc : Effect (fun _ _ => True) c) : LooksFirst c := Effect.made hc

theorem ite {p : Prop} [Decidable p] {c' : X86M D α} (hc : LooksFirst c) (hc' : LooksFirst c') :
    LooksFirst (if p then c else c') := by
  split
  · exact hc
  · exact hc'

theorem raise {m m' : Machine D} {e : TrapRec} (h : LooksFirst c) (hr : c m = .raise e m') :
    SameMem m m' :=
  .of_run (Spec.of_raise h hr)

end LooksFirst

section Still

theorem still_getS : Still SameMem (getS : X86M D X86State) := fun _ => .refl

variable {lin addr : BitVec 64} {code : BitVec 32}

theorem still_pfFault {α : Type} : Still SameMem (pfFault lin code : X86M D α) :=
  .bind (.modify fun _ => World.SameMem.refl _) fun _ => .raise _

theorem still_faultWhen {c : Bool} :
    Still SameMem (faultWhen c (pfFault lin code) : X86M D Unit) := by
  unfold faultWhen
  split
  · exact still_pfFault
  · exact .pure ()

theorem still_checkPerm {write user writable userOk : Bool} :
    Still SameMem (checkPerm lin write user writable userOk code : X86M D Unit) :=
  .bind still_getS fun _ => still_faultWhen

theorem still_physLoad {size : Nat} : Still SameMem (physLoad addr size : X86M D (BitVec 64)) :=
  fun _ => .single (readPhys_sameMem ..)

theorem still_load32 : Still SameMem (load32 addr : X86M D (BitVec 64)) :=
  .bind still_physLoad fun _ => .pure _

theorem still_paeEntryCheck {entry nx : BitVec 64} :
    Still SameMem (paeEntryCheck lin code entry nx : X86M D Unit) :=
  .bind still_getS fun _ => .bind still_faultWhen fun _ => still_faultWhen

theorem effect_physStore {size : Nat} {v : BitVec 64} :
    Effect (fun _ _ => True) (physStore addr size v : X86M D Unit) :=
  .modify fun _ => trivial

theorem effect_storeChanged {size : Nat} {old next : BitVec 64} :
    Effect (fun _ _ => True) (storeChanged addr size old next : X86M D Unit) := by
  unfold storeChanged
  split
  · exact effect_physStore
  · exact .pure ()

theorem effect_getS : Effect (fun _ _ => True) (getS : X86M D X86State) := fun _ => .refl

end Still

namespace LooksFirst
variable {lin pdeAt pde pdpteAt pdpte nx v : BitVec 64} {write user fetch : Bool}

theorem walk4m : LooksFirst (walk4m lin write user pdeAt pde : X86M D WalkRes) :=
  bind still_faultWhen fun _ => bind still_checkPerm fun _ =>
    ofEffect (.bind effect_storeChanged fun _ => .bind effect_getS fun _ => .pure _)

theorem walkPte : LooksFirst (walkPte lin write user pdeAt pde : X86M D WalkRes) :=
  bind still_load32 fun _ => bind still_faultWhen fun _ => bind still_checkPerm fun _ =>
    ofEffect (.bind effect_storeChanged fun _ => .bind effect_storeChanged fun _ =>
      .bind effect_getS fun _ => .pure _)

theorem walkNonPae : LooksFirst (walkNonPae lin write user : X86M D WalkRes) :=
  bind still_getS fun _ => bind still_load32 fun _ => bind still_faultWhen fun _ =>
    ite walk4m walkPte

theorem walk2m :
    LooksFirst (walk2m lin write user fetch pdpteAt pdpte pdeAt pde nx : X86M D WalkRes) :=
  bind still_faultWhen fun _ => bind still_checkPerm fun _ => bind still_faultWhen fun _ =>
    ofEffect (.bind effect_storeChanged fun _ => .bind effect_storeChanged fun _ =>
      .bind effect_getS fun _ => .pure _)

theorem walkPaePte :
    LooksFirst (walkPaePte lin write user fetch pdpteAt pdpte pdeAt pde nx : X86M D WalkRes) :=
  bind still_physLoad fun _ => bind still_faultWhen fun _ => bind still_paeEntryCheck fun _ =>
    bind still_checkPerm fun _ => bind still_faultWhen fun _ =>
    ofEffect (.bind effect_storeChanged fun _ => .bind effect_storeChanged fun _ =>
      .bind effect_storeChanged fun _ => .bind effect_getS fun _ => .pure _)

theorem walkPae : LooksFirst (walkPae lin write user fetch : X86M D WalkRes) :=
  bind still_getS fun _ => bind still_physLoad fun _ => bind still_faultWhen fun _ =>
    bind still_faultWhen fun _ => bind still_paeEntryCheck fun _ => bind still_physLoad fun _ =>
    bind still_faultWhen fun _ => bind still_paeEntryCheck fun _ => ite walk2m walkPaePte

theorem walkPage : LooksFirst (walkPage lin write user fetch : X86M D WalkRes) :=
  bind still_getS fun _ => ite walkPae walkNonPae

theorem tlbEntry : LooksFirst (tlbEntry lin write fetch user : X86M D TlbEntry) := by
  refine bind still_getS fun s => ?_
  split
  · refine .bind_effect walkPage fun w => ?_
    exact .bind .get fun _ => .bind (.modify fun _ => trivial) fun _ =>
      .pure _
  · refine bind (.bind still_getS fun s => ?_) fun _ => ofStill (.pure _)
    split
    · exact still_pfFault
    · exact .pure ()

theorem fastStoreOne {size : Nat} : LooksFirst (fastStoreOne lin size user v : X86M D Unit) := by
  refine .bind_effect tlbEntry fun e => ?_
  split
  · exact .modify fun _ => trivial
  · exact effect_physStore

theorem slowStoreOne {size : Nat} : LooksFirst (slowStoreOne lin size user v : X86M D Unit) :=
  .bind_effect
    (bind still_getS fun _ => ite (ofStill (.pure _)) (.bind_effect walkPage fun _ => .pure _))
    fun _ => effect_physStore

theorem storeOne {size : Nat} : LooksFirst (storeOne lin size user v : X86M D Unit) :=
  bind .get fun _ => ite slowStoreOne (ite (ofEffect effect_physStore) fastStoreOne)

end LooksFirst

/-! ### A translation raises page faults only -/

abbrev PfOnly {α : Type} (c : X86M D α) : Prop := Raises (fun e => e.cause = vecPf) c

namespace PfOnly

variable {α : Type} {lin addr pdeAt pde pdpteAt pdpte nx : BitVec 64} {write user fetch : Bool}
  {code : BitVec 32} {size : Nat}

theorem getS : PfOnly (getS : X86M D X86State) := by
  intro m e m' h
  cases h

theorem pfFault : PfOnly (pfFault lin code : X86M D α) := .bind (.modify _) fun _ => .raise rfl

theorem faultWhen {c : Bool} : PfOnly (faultWhen c (X86.pfFault lin code) : X86M D Unit) := by
  unfold X86.faultWhen
  split
  · exact pfFault
  · exact .pure ()

theorem checkPerm {writable userOk : Bool} :
    PfOnly (checkPerm lin write user writable userOk code : X86M D Unit) :=
  .bind getS fun _ => faultWhen

theorem physLoad : PfOnly (physLoad addr size : X86M D (BitVec 64)) := by
  intro m e m' h
  cases h

theorem load32 : PfOnly (load32 addr : X86M D (BitVec 64)) := .bind physLoad fun _ => .pure _

theorem paeEntryCheck {entry : BitVec 64} :
    PfOnly (paeEntryCheck lin code entry nx : X86M D Unit) :=
  .bind getS fun _ => .bind faultWhen fun _ => faultWhen

theorem storeChanged {old next : BitVec 64} :
    PfOnly (storeChanged addr size old next : X86M D Unit) := by
  unfold X86.storeChanged
  split
  · exact .modify _
  · exact .pure ()

theorem walk4m : PfOnly (walk4m lin write user pdeAt pde : X86M D WalkRes) :=
  .bind faultWhen fun _ => .bind checkPerm fun _ => .bind storeChanged fun _ =>
    .bind getS fun _ => .pure _

theorem walkPte : PfOnly (walkPte lin write user pdeAt pde : X86M D WalkRes) :=
  .bind load32 fun _ => .bind faultWhen fun _ => .bind checkPerm fun _ =>
    .bind storeChanged fun _ => .bind storeChanged fun _ => .bind getS fun _ => .pure _

theorem walkNonPae : PfOnly (walkNonPae lin write user : X86M D WalkRes) := by
  refine .bind getS fun _ => .bind load32 fun _ => .bind faultWhen fun _ => ?_
  split
  · exact walk4m
  · exact walkPte

theorem walk2m :
    PfOnly (walk2m lin write user fetch pdpteAt pdpte pdeAt pde nx : X86M D WalkRes) :=
  .bind faultWhen fun _ => .bind checkPerm fun _ => .bind faultWhen fun _ =>
    .bind storeChanged fun _ => .bind storeChanged fun _ => .bind getS fun _ => .pure _

theorem walkPaePte :
    PfOnly (walkPaePte lin write user fetch pdpteAt pdpte pdeAt pde nx : X86M D WalkRes) :=
  .bind physLoad fun _ => .bind faultWhen fun _ => .bind paeEntryCheck fun _ =>
    .bind checkPerm fun _ => .bind faultWhen fun _ => .bind storeChanged fun _ =>
    .bind storeChanged fun _ => .bind storeChanged fun _ => .bind getS fun _ => .pure _

theorem walkPae : PfOnly (walkPae lin write user fetch : X86M D WalkRes) := by
  refine .bind getS fun _ => .bind physLoad fun _ => .bind faultWhen fun _ =>
    .bind faultWhen fun _ => .bind paeEntryCheck fun _ => .bind physLoad fun _ =>
    .bind faultWhen fun _ => .bind paeEntryCheck fun _ => ?_
  split
  · exact walk2m
  · exact walkPaePte

theorem walkPage : PfOnly (walkPage lin write user fetch : X86M D WalkRes) := by
  refine .bind getS fun _ => ?_
  split
  · exact walkPae
  · exact walkNonPae

theorem tlbEntry : PfOnly (tlbEntry lin write fetch user : X86M D TlbEntry) := by
  refine .bind getS fun s => ?_
  split
  · exact .bind walkPage fun _ => .bind .get fun _ => .bind (.modify _) fun _ => .pure _
  · refine .bind (.bind getS fun s => ?_) fun _ => .pure _
    split
    · exact pfFault
    · exact .pure ()

end PfOnly

/-! ### What a finished walk has granted -/

def Grants (s : X86State) (write user : Bool) (flags : BitVec 32) : Prop :=
  ∃ writable userOk nx glob, flags = leafFlags writable userOk nx glob ∧
    permRefused s write user writable userOk = false

section Grants

variable {m m' : Machine D} {lin : BitVec 64} {write user fetch : Bool} {w : WalkRes}
  {flags code : BitVec 32} {writable userOk : Bool} {nx pdeAt pde pdpteAt pdpte : BitVec 64}

theorem Grants.congr {s s' : X86State} (hcr0 : s'.cr0 = s.cr0) (hg : Grants s write user flags) :
    Grants s' write user flags := by
  obtain ⟨writable, userOk, nx, glob, hflags, hperm⟩ := hg
  exact ⟨writable, userOk, nx, glob, hflags, by rw [← hperm, permRefused, permRefused, hcr0]⟩

theorem MemFrame.grants (h : MemFrame m m') (hg : Grants m'.s write user flags) :
    Grants m.s write user flags := hg.congr h.cr0.symm

theorem checkPerm_ok {u : Unit} (h : checkPerm lin write user writable userOk code m = .ok u m') :
    permRefused m.s write user writable userOk = false := by
  cases hp : permRefused m.s write user writable userOk with
  | false => rfl
  | true =>
    have hraise : checkPerm lin write user writable userOk code m =
        pfFault lin (code ||| kPfPresent) m := by
      show faultWhen (permRefused m.s write user writable userOk) _ m = _
      rw [hp]
      rfl
    rw [hraise] at h
    cases h

/-- The walk ends in an entry with these permissions. -/
def Leaf (writable userOk : Bool) (c : X86M D WalkRes) : Prop :=
  ∀ m m' w, c m = .ok w m' → ∃ nx glob, w.flags = leafFlags writable userOk nx glob

theorem Leaf.after {α : Type} {c : X86M D α} {f : α → X86M D WalkRes}
    (hf : ∀ a, Leaf writable userOk (f a)) : Leaf writable userOk (c >>= f) := by
  intro m m' w h
  obtain ⟨a, t, _, hret⟩ := bind_eq_ok h
  exact hf _ _ _ _ hret

theorem Leaf.done {nx glob : Bool} {f : X86State → WalkRes}
    (hf : ∀ s, (f s).flags = leafFlags writable userOk nx glob) :
    Leaf writable userOk (do
      let s ← getS
      pure (f s) : X86M D WalkRes) := by
  intro m m' w h
  cases h
  exact ⟨nx, glob, hf _⟩

/-- A walk that comes to its end has granted the access. -/
def Granting (write user : Bool) (c : X86M D WalkRes) : Prop :=
  ∀ m m' w, c m = .ok w m' → Grants m.s write user w.flags

namespace Granting

theorem bind {α : Type} {c : X86M D α} {f : α → X86M D WalkRes} (hc : Quiet MemFrame c)
    (hf : ∀ a, Granting write user (f a)) : Granting write user (c >>= f) := by
  intro m m' w h
  obtain ⟨a, t, hrun, h⟩ := bind_eq_ok h
  exact (hc.of_ok hrun).grants (hf a _ _ _ h)

theorem ite {p : Prop} [Decidable p] {c c' : X86M D WalkRes} (hc : Granting write user c)
    (hc' : Granting write user c') : Granting write user (if p then c else c') := by
  split
  · exact hc
  · exact hc'

theorem checked {rest : Unit → X86M D WalkRes} (hrest : Leaf writable userOk (rest ())) :
    Granting write user (checkPerm lin write user writable userOk code >>= rest) := by
  intro m m' w h
  obtain ⟨u, t, hcheck, hret⟩ := bind_eq_ok h
  obtain ⟨nx, glob, hflags⟩ := hrest _ _ _ hret
  exact ⟨writable, userOk, nx, glob, hflags, checkPerm_ok hcheck⟩

theorem walk4m : Granting write user (walk4m lin write user pdeAt pde : X86M D WalkRes) :=
  bind MemFrame.faultWhen fun _ => checked (.after fun _ => .done fun _ => rfl)

theorem walkPte : Granting write user (walkPte lin write user pdeAt pde : X86M D WalkRes) :=
  bind .load32 fun _ => bind MemFrame.faultWhen fun _ =>
    checked (.after fun _ => .after fun _ => .done fun _ => rfl)

theorem walkNonPae : Granting write user (walkNonPae lin write user : X86M D WalkRes) :=
  bind .getS fun _ => bind .load32 fun _ => bind MemFrame.faultWhen fun _ =>
    ite walk4m walkPte

theorem walk2m : Granting write user
    (walk2m lin write user fetch pdpteAt pdpte pdeAt pde nx : X86M D WalkRes) :=
  bind MemFrame.faultWhen fun _ =>
    checked (.after fun _ => .after fun _ => .after fun _ => .done fun _ => rfl)

theorem walkPaePte : Granting write user
    (walkPaePte lin write user fetch pdpteAt pdpte pdeAt pde nx : X86M D WalkRes) :=
  bind .physLoad fun _ => bind MemFrame.faultWhen fun _ => bind MemFrame.paeEntryCheck fun _ =>
    checked (.after fun _ => .after fun _ => .after fun _ => .after fun _ => .done fun _ => rfl)

theorem walkPae : Granting write user (walkPae lin write user fetch : X86M D WalkRes) :=
  bind .getS fun _ => bind .physLoad fun _ => bind MemFrame.faultWhen fun _ =>
    bind MemFrame.faultWhen fun _ => bind MemFrame.paeEntryCheck fun _ => bind .physLoad fun _ =>
    bind MemFrame.faultWhen fun _ => bind MemFrame.paeEntryCheck fun _ => ite walk2m walkPaePte

theorem walkPage : Granting write user (walkPage lin write user fetch : X86M D WalkRes) :=
  bind .getS fun _ => ite walkPae walkNonPae

end Granting

end Grants

/-! ### After the first store to a page -/

/-- The cache holds a translation of the page under which the user or supervisor may write. -/
def Ready (user : Bool) (vpn : BitVec 32) (s : X86State) : Prop :=
  (s.tlb (tlbSlot vpn true)).tag = tlbTag s vpn true ∧
    tlbRefusal s (s.tlb (tlbSlot vpn true)) true false user = none

section Ready

variable {m m' : Machine D} {lin : BitVec 64} {size : Nat} {user : Bool} {v : BitVec 64}

theorem Ready.congr {vpn : BitVec 32} {s s' : X86State} (h : Ready user vpn s)
    (htlb : s'.tlb = s.tlb) (hgen : s'.tlbGen = s.tlbGen) (hcr0 : s'.cr0 = s.cr0) :
    Ready user vpn s' := by
  obtain ⟨htag, hrefusal⟩ := h
  refine ⟨?_, ?_⟩
  · rw [htlb, htag, tlbTag, tlbTag, hgen]
  · rw [← hrefusal, tlbRefusal, tlbRefusal, htlb, hcr0]
    simp only [Bool.false_and, Bool.false_eq_true, if_false]

variable {e : TlbEntry}

def storeAt (e : TlbEntry) (lin : BitVec 64) (size : Nat) (v : BitVec 64) (m : Machine D) :
    World D :=
  match e.host with
  | some host => m.w.hostStore (host.add (pageOff lin)) size v
  | none => writePhys m.w (a20Gate m.s (e.pbase + pageOff lin)) size v

end Ready

/-! ### Stores within one page -/

section InPage

variable {m m' : Machine D} {lin : BitVec 64} {size : Nat} {user write : Bool} {v : BitVec 64}
  {e : TrapRec} {u : Unit}

theorem acCheckSlow_apply (lin : BitVec 64) (size : Nat) (user write : Bool) (m : Machine D) :
    acCheckSlow lin size user false write m = if acRefused m.s lin size user false then
        if m.s.pg then (walkPage lin write user false >>= fun _ => raiseVec vecAc 0) m
        else .raise ⟨vecAc, 0⟩ m
      else .ok () m := by
  show (if _ then _ else _ : X86M D Unit) m = _
  split
  · split <;> rfl
  · rfl

theorem acCheckSlow_of_aligned (h : acRefused m.s lin size user false = false) :
    acCheckSlow lin size user false write m = .ok () m := by
  rw [acCheckSlow_apply, h]
  rfl

theorem storeOne_apply (lin : BitVec 64) (size : Nat) (user : Bool) (v : BitVec 64)
    (m : Machine D) : storeOne lin size user v m = if m.gMemSlow then slowStoreOne lin size user v m
      else if !m.s.pg then physStore lin size v m
      else fastStoreOne lin size user v m := by
  show (if _ then _ else _ : X86M D Unit) m = _
  split
  · rfl
  · split <;> rfl

theorem storeOne_raise (h : storeOne lin size user v m = .raise e m') :
    m.s.pg = true ∧ SameMem m m' := by
  refine ⟨?_, LooksFirst.storeOne.raise h⟩
  cases hpg : m.s.pg with
  | true => rfl
  | false =>
    rw [storeOne_apply, hpg] at h
    split at h
    · have htranslate : pageTranslateAs lin true user false m = .ok lin m := by
        show (if _ then _ else _ : X86M D (BitVec 64)) m = _
        rw [hpg]
        rfl
      rw [slowStoreOne, bind_of_ok htranslate] at h
      cases h
    · cases h

theorem linStore_of_inPage (h : crosses lin size = false) : linStore lin size user v =
      (acCheckSlow lin size user false true >>=
        fun _ => storeOne lin size user v : X86M D Unit) := by
  rw [linStore, h]
  rfl

section

variable (hfast : m.gMemSlow = false) (hpg : m.s.pg = true) (hin : crosses lin size = false)

include hfast hpg hin

end

end InPage

end Cemu.X86
