import Cemu.X86.Arith

/-!
# x86: what a memory access leaves alone

A linear access, however it ends, changes the translation cache, CR2, the fetch shortcut and what
lies behind the bus. `MemFrame` says so in one equation per part of the machine, and the rules
below carry it through the walks and up to the operands.
-/

namespace Cemu.X86

open RaiseM

variable {D : Type}

def X86State.withCaches (s t : X86State) : X86State :=
  { s with tlb := t.tlb, cr2 := t.cr2, fetchPage := t.fetchPage, fetchHost := t.fetchHost,
           fetchValid := t.fetchValid }

/-- The registers, the decoder context and the port side are those of `m`; the context may have
recorded watchpoint hits. -/
structure MemFrame (m m' : Machine D) : Prop where
  s : m'.s = m.s.withCaches m'.s
  d : m'.d = { m.d with watchHit := m'.d.watchHit }
  eip : m'.eip = m.eip
  recPc : m'.recPc = m.recPc
  io : m'.io = m.io
  ports : m'.ports = m.ports
  gMemSlow : m'.gMemSlow = m.gMemSlow
  portReads : m'.portReads = m.portReads
  board : World.SameBoard m.w m'.w

namespace MemFrame

variable {m m' m'' : Machine D}

theorem refl (m : Machine D) : MemFrame m m := ⟨rfl, rfl, rfl, rfl, rfl, rfl, rfl, rfl, .refl _⟩

section

variable (h : MemFrame m m')

include h

theorem trans (h' : MemFrame m' m'') : MemFrame m m'' where
  s := by
    rw [h'.s, h.s]
    rfl
  d := by
    rw [h'.d, h.d]
  eip := h'.eip.trans h.eip
  recPc := h'.recPc.trans h.recPc
  io := h'.io.trans h.io
  ports := h'.ports.trans h.ports
  gMemSlow := h'.gMemSlow.trans h.gMemSlow
  portReads := h'.portReads.trans h.portReads
  board := h.board.trans h'.board

theorem r : m'.s.r = m.s.r := by rw [h.s]; rfl
theorem seg : m'.s.seg = m.s.seg := by rw [h.s]; rfl
theorem fl : m'.s.fl = m.s.fl := by rw [h.s]; rfl
theorem cr0 : m'.s.cr0 = m.s.cr0 := by rw [h.s]; rfl

end

theorem ofCaches (m : Machine D) (f : X86State → X86State) (h : f m.s = m.s.withCaches (f m.s)) :
    MemFrame m (m.setS (f m.s)) :=
  ⟨h, rfl, rfl, rfl, rfl, rfl, rfl, rfl, .refl _⟩

theorem ofWorld (m : Machine D) {w : World D} (h : World.SameBoard m.w w) :
    MemFrame m (m.setWorld w) :=
  ⟨rfl, rfl, rfl, rfl, rfl, rfl, rfl, rfl, h⟩

variable {α : Type}

theorem bind {β : Type} {c : X86M D α} {f : α → X86M D β} (hc : Quiet MemFrame c)
    (hf : ∀ a, Quiet MemFrame (f a)) : Quiet MemFrame (c >>= f) :=
  .bind hc hf fun _ _ _ => trans

theorem pure (a : α) : Quiet MemFrame (Pure.pure a : X86M D α) := .pure a refl

theorem get : Quiet MemFrame (.get : X86M D (Machine D)) := .get refl

theorem getS : Quiet MemFrame (getS : X86M D X86State) := refl

theorem getD : Quiet MemFrame (getD : X86M D Dec) := refl

theorem raiseVec {cause : Nat} {tval : BitVec 64} :
    Quiet MemFrame (raiseVec cause tval : X86M D α) := .raise _ refl

theorem ite {p : Prop} [Decidable p] {c c' : X86M D α} (hc : Quiet MemFrame c)
    (hc' : Quiet MemFrame c') : Quiet MemFrame (if p then c else c') := by
  split
  · exact hc
  · exact hc'

theorem modS {f : X86State → X86State} (h : ∀ s, f s = s.withCaches (f s)) :
    Quiet MemFrame (modS f : X86M D Unit) := fun m => ofCaches m f (h m.s)

end MemFrame

/-- A relation between machines that composes and allows whatever the memory system does. -/
class Framing (R : Machine D → Machine D → Prop) : Prop where
  trans {m m' m'' : Machine D} : R m m' → R m' m'' → R m m''
  ofMem {m m' : Machine D} : MemFrame m m' → R m m'

namespace Framing

variable {α β : Type} {R : Machine D → Machine D → Prop} [Framing R]

theorem bind {c : X86M D α} {f : α → X86M D β} (hc : Quiet R c) (hf : ∀ a, Quiet R (f a)) :
    Quiet R (c >>= f) :=
  .bind hc hf fun _ _ _ => trans

theorem quiet {c : X86M D α} (hc : Quiet MemFrame c) : Quiet R c :=
  hc.mono (fun _ _ => ofMem) fun _ _ => ofMem

theorem pure (a : α) : Quiet R (Pure.pure a : X86M D α) := quiet (MemFrame.pure a)

omit [Framing R] in
theorem ite {p : Prop} [Decidable p] {c c' : X86M D α} (hc : Quiet R c) (hc' : Quiet R c') :
    Quiet R (if p then c else c') := by
  split
  · exact hc
  · exact hc'

end Framing

/-! ### Physical accesses -/

theorem readPhys_sameMem (w : World D) (addr : BitVec 64) (size : Nat) :
    World.SameMem w (readPhys w addr size).2 := by
  have hfind := (w.find_sameButCache addr size).toSameMem
  unfold readPhys World.busProbe
  split
  · next h => rwa [h] at hfind
  rename_i r w1 h
  rw [h] at hfind
  split
  · exact hfind
  · exact hfind.trans (World.opsRead_sameMem ..)

theorem writePhys_sameBoard (w : World D) (addr : BitVec 64) (size : Nat) (v : BitVec 64) :
    World.SameBoard w (writePhys w addr size v) := by
  have hfind := (w.find_sameButCache addr size).toSameBoard
  unfold writePhys World.busProbe
  split
  · next h => rwa [h] at hfind
  rename_i r w1 h
  rw [h] at hfind
  split
  · exact hfind.trans ⟨rfl, rfl, rfl, rfl, rfl⟩
  · exact hfind.trans (World.opsWrite_sameBoard ..)

namespace MemFrame
variable {addr v lin pdeAt pde nx pdpteAt pdpte : BitVec 64} {size : Nat} {code : BitVec 32}
  {write user fetch : Bool}

theorem physLoad : Quiet MemFrame (physLoad addr size : X86M D (BitVec 64)) :=
  fun m => ofWorld m (readPhys_sameMem ..).toSameBoard

theorem physStore : Quiet MemFrame (physStore addr size v : X86M D Unit) :=
  fun m => ofWorld m (writePhys_sameBoard ..)

/-! ### The walks -/

theorem pfFault {α : Type} : Quiet MemFrame (pfFault lin code : X86M D α) :=
  bind (modS fun _ => rfl) fun _ => raiseVec

theorem faultWhen {c : Bool} : Quiet MemFrame (faultWhen c (X86.pfFault lin code) : X86M D Unit) :=
  ite pfFault (pure ())

theorem checkPerm {writable userOk : Bool} :
    Quiet MemFrame (checkPerm lin write user writable userOk code : X86M D Unit) :=
  bind getS fun _ => faultWhen

theorem storeChanged {old next : BitVec 64} :
    Quiet MemFrame (storeChanged addr size old next : X86M D Unit) :=
  ite physStore (pure ())

theorem load32 : Quiet MemFrame (load32 addr : X86M D (BitVec 64)) := bind physLoad fun _ => pure _

theorem walk4m : Quiet MemFrame (walk4m lin write user pdeAt pde : X86M D WalkRes) :=
  bind faultWhen fun _ => bind checkPerm fun _ => bind storeChanged fun _ =>
    bind getS fun _ => pure _

theorem walkPte : Quiet MemFrame (walkPte lin write user pdeAt pde : X86M D WalkRes) :=
  bind load32 fun _ => bind faultWhen fun _ => bind checkPerm fun _ =>
    bind storeChanged fun _ => bind storeChanged fun _ => bind getS fun _ => pure _

theorem walkNonPae : Quiet MemFrame (walkNonPae lin write user : X86M D WalkRes) :=
  bind getS fun _ => bind load32 fun _ => bind faultWhen fun _ =>
    ite walk4m walkPte

theorem paeEntryCheck {entry : BitVec 64} :
    Quiet MemFrame (paeEntryCheck lin code entry nx : X86M D Unit) :=
  bind getS fun _ => bind faultWhen fun _ => faultWhen

theorem walk2m :
    Quiet MemFrame (walk2m lin write user fetch pdpteAt pdpte pdeAt pde nx : X86M D WalkRes) :=
  bind faultWhen fun _ => bind checkPerm fun _ => bind faultWhen fun _ =>
    bind storeChanged fun _ => bind storeChanged fun _ => bind getS fun _ => pure _

theorem walkPaePte :
    Quiet MemFrame (walkPaePte lin write user fetch pdpteAt pdpte pdeAt pde nx : X86M D WalkRes) :=
  bind physLoad fun _ => bind faultWhen fun _ => bind paeEntryCheck fun _ =>
    bind checkPerm fun _ => bind faultWhen fun _ => bind storeChanged fun _ =>
    bind storeChanged fun _ => bind storeChanged fun _ => bind getS fun _ => pure _

theorem walkPae : Quiet MemFrame (walkPae lin write user fetch : X86M D WalkRes) :=
  bind getS fun _ => bind physLoad fun _ => bind faultWhen fun _ =>
    bind faultWhen fun _ => bind paeEntryCheck fun _ => bind physLoad fun _ =>
    bind faultWhen fun _ => bind paeEntryCheck fun _ => ite walk2m walkPaePte

theorem walkPage : Quiet MemFrame (walkPage lin write user fetch : X86M D WalkRes) :=
  bind getS fun _ => ite walkPae walkNonPae

theorem pageTranslateAs :
    Quiet MemFrame (pageTranslateAs lin write user fetch : X86M D (BitVec 64)) :=
  bind getS fun _ => ite (pure _) (bind walkPage fun _ => pure _)

/-! ### Linear accesses -/

theorem tlbFill : Quiet MemFrame (tlbFill lin write fetch user : X86M D TlbEntry) :=
  bind walkPage fun _ => bind get fun _ => bind (modS fun _ => rfl) fun _ => pure _

theorem tlbCheck {e : TlbEntry} :
    Quiet MemFrame (tlbCheck e lin write fetch user : X86M D Unit) := by
  refine bind getS fun s => ?_
  split
  · exact pfFault
  · exact pure ()

theorem tlbEntry : Quiet MemFrame (tlbEntry lin write fetch user : X86M D TlbEntry) := by
  refine bind getS fun s => ?_
  split
  · exact tlbFill
  · exact bind tlbCheck fun _ => pure _

theorem fastLoadOne : Quiet MemFrame (fastLoadOne lin size user fetch : X86M D (BitVec 64)) := by
  refine bind tlbEntry fun e => ?_
  split
  · exact bind get fun _ => pure _
  · exact physLoad

theorem fastStoreOne : Quiet MemFrame (fastStoreOne lin size user v : X86M D Unit) := by
  refine bind tlbEntry fun e => ?_
  split
  · exact fun m => ofWorld m ⟨rfl, rfl, rfl, rfl, rfl⟩
  · exact physStore

theorem loadOne : Quiet MemFrame (loadOne lin size user fetch : X86M D (BitVec 64)) :=
  bind get fun _ => ite (bind pageTranslateAs fun _ => physLoad) (ite physLoad fastLoadOne)

theorem storeOne : Quiet MemFrame (storeOne lin size user v : X86M D Unit) :=
  bind get fun _ => ite (bind pageTranslateAs fun _ => physStore) (ite physStore fastStoreOne)

theorem acCheckSlow : Quiet MemFrame (acCheckSlow lin size user fetch write : X86M D Unit) :=
  bind getS fun _ =>
    ite (ite (bind walkPage fun _ => raiseVec) raiseVec) (pure ())

theorem linLoad : Quiet MemFrame (linLoad lin size user fetch : X86M D (BitVec 64)) :=
  bind acCheckSlow fun _ =>
    ite (bind loadOne fun _ => bind loadOne fun _ => pure _) loadOne

theorem linStore : Quiet MemFrame (linStore lin size user v : X86M D Unit) :=
  bind acCheckSlow fun _ =>
    ite (bind storeOne fun _ => storeOne) storeOne

theorem busLoad :
    Quiet MemFrame (busLoad lin size : X86M D (BitVec 64)) := bind getS fun _ => linLoad

theorem busStore : Quiet MemFrame (busStore lin size v : X86M D Unit) := bind getS fun _ => linStore

theorem krd8 : Quiet MemFrame (krd8 lin : X86M D (BitVec 8)) := bind linLoad fun _ => pure _

theorem krd16 : Quiet MemFrame (krd16 lin : X86M D (BitVec 16)) := bind linLoad fun _ => pure _

theorem rd8 : Quiet MemFrame (rd8 lin : X86M D (BitVec 8)) := bind busLoad fun _ => pure _

theorem rd16 : Quiet MemFrame (rd16 lin : X86M D (BitVec 16)) := bind busLoad fun _ => pure _

theorem rd32 : Quiet MemFrame (rd32 lin : X86M D (BitVec 32)) := bind busLoad fun _ => pure _

/-! ### Operands -/

theorem segFault {α : Type} {seg : Seg} :
    Quiet MemFrame (segFault seg code : X86M D α) := ite raiseVec raiseVec

theorem segUse {seg : Seg} {off : BitVec 32} :
    Quiet MemFrame (segUse seg off size write : X86M D Unit) :=
  bind getS fun _ => ite (pure ()) (ite raiseVec (ite segFault (ite segFault (pure ()))))

theorem watchData : Quiet MemFrame (watchData lin size write : X86M D Unit) :=
  fun _ => ⟨rfl, rfl, rfl, rfl, rfl, rfl, rfl, rfl, .refl _⟩

theorem memOperand : Quiet MemFrame (memOperand size write : X86M D Unit) :=
  bind getD fun _ => bind segUse fun _ => watchData

theorem rm8 : Quiet MemFrame (rm8 : X86M D (BitVec 8)) :=
  bind getD fun _ => ite (bind memOperand fun _ => rd8) (bind getS fun _ => pure _)

theorem rm16 : Quiet MemFrame (rm16 : X86M D (BitVec 16)) :=
  bind getD fun _ => ite (bind memOperand fun _ => rd16) (bind getS fun _ => pure _)

theorem rm32 : Quiet MemFrame (rm32 : X86M D (BitVec 32)) :=
  bind getD fun _ => ite (bind memOperand fun _ => rd32) (bind getS fun _ => pure _)

theorem ioBitmap {base : BitVec 64} {limit iobase : BitVec 32} {ports : List (BitVec 32)} :
    Quiet MemFrame (ioBitmap base limit iobase ports : X86M D Bool) := by
  induction ports with
  | nil => exact pure true
  | cons p rest ih => exact ite (pure false) (bind krd8 fun _ => ite (pure false) ih)

theorem ioAllowed {port : BitVec 16} : Quiet MemFrame (ioAllowed port size : X86M D Bool) :=
  bind getS fun _ => ite (pure true) (ite (pure true) (ite (pure false)
    (bind krd16 fun _ => ioBitmap)))

theorem rmSized : Quiet MemFrame (rmSized size : X86M D (BitVec 32)) :=
  ite (bind rm8 fun _ => pure _) (ite (bind rm16 fun _ => pure _) rm32)

/-! ### The instruction stream -/

theorem fetchPlace : Quiet MemFrame (fetchPlace lin user : X86M D (Option HostPtr × BitVec 64)) :=
  bind get fun _ => ite (pure _) (bind tlbEntry fun _ => pure _)

theorem fetchMiss : Quiet MemFrame (fetchMiss lin user : X86M D (BitVec 8)) := by
  refine bind fetchPlace fun place => ?_
  split
  · exact bind (modS fun _ => rfl) fun _ => bind get fun _ => pure _
  · exact bind (modS fun _ => rfl) fun _ => bind physLoad fun _ => pure _

theorem fetchByte : Quiet MemFrame (fetchByte lin user : X86M D (BitVec 8)) :=
  bind get fun _ => ite (bind linLoad fun _ => pure _) (ite (pure _) fetchMiss)

end MemFrame

end Cemu.X86
