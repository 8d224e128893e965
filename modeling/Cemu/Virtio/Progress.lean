import Cemu.Virtio.Device

/-!
# Consumed entries against the used ring

What a notify consumes from the available ring it has to publish on the used ring. The loop and
the backends do the two in different places, and several ways through a backend return without
the second. `drainStep_publishes_iff` says of one iteration that it publishes the entry it
consumes exactly when the entry is `Accepted` and the used ring can take it; the statement about
a whole notify, `drain_progress_iff`, is the same for every iteration it makes.
-/

namespace Cemu.Virtio

open VirtioMachine

variable {q : Fin kVirtioMaxQueue}

section

variable (m : VirtioMachine) (q : Fin kVirtioMaxQueue)

/-- The backend's own conditions on a chain of `rd` readable bytes: a block request has a header
of a type the device knows; the console and the input device answer on queue 1 only. -/
def backendAccepts (idx : BitVec 16) (rd : BitVec 32) : Bool :=
  match m.backend with
  | .blk _ =>
    !rd.slt kBlkHeaderSize &&
      match blkHeader m q idx with
      | .done h => decide (h.type = 0 ∨ h.type = 1 ∨ h.type = 4)
      | _ => false
  | .console _ => decide (q.val = 1)
  | .input => decide (q.val = 1)

/-- The entry at the head of the queue is a well-formed chain the backend accepts. -/
def accepts : Bool :=
  match chainSizes m.bus m.mem (m.queue q).descAddr (m.availHead q) with
  | .done (rd, _) => backendAccepts m q (m.availHead q) rd
  | _ => false

def reply (idx : BitVec 16) (rd wr : BitVec 32) : Walk Reply :=
  match m.backend with
  | .blk file => blkReply m q file idx rd wr
  | .console out => consoleReply m q out idx rd
  | .input => .done (inputReply m q)

theorem recv_eq (idx : BitVec 16) (rd wr : BitVec 32) :
    recv m q idx rd wr = (reply m q idx rd wr).bind fun r => .done (publish m q idx r) := by
  unfold recv reply
  cases m.backend <;> rfl

/-- The request's own stores leave `used->idx` as it was. -/
def KeepsUsedIdx : Prop :=
  ∀ rd wr m₁ written, chainSizes m.bus m.mem (m.queue q).descAddr (m.availHead q) = .done (rd, wr) →
    reply m q (m.availHead q) rd wr = .done (some (m₁, written)) → m₁.usedIdx q = m.usedIdx q

end

/-- What an iteration needs to publish the entry it consumes: an accepted chain, the two words of
the used ring it writes in RAM, and a request that does not overwrite `used->idx`. -/
structure Publishable (m : VirtioMachine) (q : Fin kVirtioMaxQueue) : Prop where
  accepted : accepts m q = true
  idxRam : ramRange m.bus ((m.queue q).usedAddr + 2) 2 = true
  slotRam : ramRange m.bus (m.usedSlot q (m.usedIdx q)) 4 = true
  keeps : KeepsUsedIdx m q

/-- The iteration from `m` to `m'` put the head of the queue on the used ring, once, and advanced
`used->idx` by one. -/
structure Published (m : VirtioMachine) (q : Fin kVirtioMaxQueue) (m' : VirtioMachine) : Prop where
  log : m'.published = m.published ++ [m.availHead q]
  idx : m'.usedIdx q = m.usedIdx q + 1
  slot : readPhys m'.bus m'.mem (m.usedSlot q (m.usedIdx q)) 4 =
    some (wordBytes 4 ((m.availHead q).setWidth 64))

/-! ## What a backend leaves alone -/

/-- Same queues on the same bus, with nothing published and nothing consumed in between. -/
structure SameQueues (m m' : VirtioMachine) : Prop where
  bus : m'.bus = m.bus
  queue : m'.queue = m.queue
  published : m'.published = m.published
  consumed : m'.consumed = m.consumed

theorem SameQueues.refl (m : VirtioMachine) : SameQueues m m := ⟨rfl, rfl, rfl, rfl⟩

variable {m : VirtioMachine} {s s' s₀ : Drain}

theorem SameQueues.usedSlot {m' : VirtioMachine} (h : SameQueues m m') (idx : BitVec 16) :
    m'.usedSlot q idx = m.usedSlot q idx := by
  rw [VirtioMachine.usedSlot, VirtioMachine.usedSlot, h.queue]

theorem blkServe_spec {file : Option HostFile} {idx : BitVec 16} {rd wr : BitVec 32}
    {served : Option (VirtioMachine × BitVec 8)} (h : blkServe m q file idx rd wr = .done served) :
    served.isSome = (!rd.slt kBlkHeaderSize && match blkHeader m q idx with
      | .done hd => decide (hd.type = 0 ∨ hd.type = 1 ∨ hd.type = 4)
      | _ => false) ∧
      ∀ m1 status, served = some (m1, status) → SameQueues m m1 := by
  unfold blkServe at h
  split at h
  · rename_i hshort
    cases h
    exact ⟨by rw [hshort]; rfl, nofun⟩
  rename_i hshort
  have hlong : rd.slt kBlkHeaderSize = false := by simpa using hshort
  rw [hlong]
  cases hhd : blkHeader m q idx with
  | endless =>
    rw [hhd] at h
    cases h
  | fail =>
    rw [hhd] at h
    cases h
    exact ⟨rfl, nofun⟩
  | done hd =>
    rw [hhd] at h
    dsimp only at h
    split at h
    · rename_i h0
      generalize virtioCopyToChain m.bus m.mem (m.queue q).descAddr idx 0 _ = w at h
      cases w with
      | done w =>
        cases h
        refine ⟨by simp [h0], fun m1 status hm1 => ?_⟩
        cases hm1
        exact ⟨rfl, rfl, rfl, rfl⟩
      | fail => cases h
      | endless => cases h
    split at h
    · rename_i h1
      split at h
      · cases h
      · cases h
        refine ⟨by simp [h1], fun m1 status hm1 => ?_⟩
        cases hm1
        exact .refl m
      · cases h
        refine ⟨by simp [h1], fun m1 status hm1 => ?_⟩
        cases hm1
        exact ⟨rfl, rfl, rfl, rfl⟩
    split at h
    · rename_i h4
      cases h
      refine ⟨by simp [h4], fun m1 status hm1 => ?_⟩
      cases hm1
      exact .refl m
    · rename_i h0 h1 h4
      cases h
      have hunknown : ¬ (hd.type = 0 ∨ hd.type = 1 ∨ hd.type = 4) := by
        rintro (h | h | h)
        exacts [h0 h, h1 h, h4 h]
      exact ⟨(decide_eq_false hunknown).symm, nofun⟩

theorem reply_spec {idx : BitVec 16} {rd wr : BitVec 32} {r : Reply}
    (h : reply m q idx rd wr = .done r) :
    r.isSome = backendAccepts m q idx rd ∧ ∀ m1 written, r = some (m1, written) →
      SameQueues m m1 := by
  unfold reply at h
  unfold backendAccepts
  cases hb : m.backend with
  | blk file =>
    rw [hb] at h
    dsimp only at h ⊢
    unfold blkReply at h
    generalize hs : blkServe m q file idx rd wr = served at h
    cases served with
    | endless => cases h
    | fail => cases h
    | done served =>
      obtain ⟨hsome, hsame⟩ := blkServe_spec hs
      rw [← hsome]
      cases served with
      | none =>
        cases h
        exact ⟨rfl, nofun⟩
      | some p =>
        obtain ⟨m1, status⟩ := p
        have hsame1 := hsame m1 status rfl
        simp only [Walk.bind_done] at h
        generalize virtioCopyToChain m1.bus m1.mem (m1.queue q).descAddr idx _ _ = w at h
        cases w with
        | done w =>
          cases h
          refine ⟨rfl, fun m2 written hm2 => ?_⟩
          cases hm2
          exact ⟨hsame1.bus, hsame1.queue, hsame1.published, hsame1.consumed⟩
        | fail => cases h
        | endless => cases h
  | console out =>
    rw [hb] at h
    dsimp only at h ⊢
    unfold consoleReply at h
    split at h
    · rename_i hq
      cases h
      exact ⟨by simp [hq], nofun⟩
    rename_i hq
    have hq : q.val = 1 := not_not.mp hq
    dsimp only at h
    split at h
    · cases h
    · cases h
      refine ⟨by simp [hq], fun m1 written hm1 => ?_⟩
      cases hm1
      exact .refl m
    · cases h
      refine ⟨by simp [hq], fun m1 written hm1 => ?_⟩
      cases hm1
      exact ⟨rfl, rfl, rfl, rfl⟩
  | input =>
    rw [hb] at h
    cases h
    unfold inputReply
    split
    · rename_i hq
      refine ⟨by simp [hq], fun m1 written hm1 => ?_⟩
      cases hm1
      exact .refl m
    · rename_i hq
      exact ⟨by simp [hq], nofun⟩

/-! ## What a publication writes -/

section

variable (m : VirtioMachine)

@[simp] theorem usedIdx_advance (head : BitVec 16) :
    (m.advance q head).usedIdx q = m.usedIdx q := by
  simp [usedIdx, advance]

theorem usedSlot_apart (idx : BitVec 16) {k : Nat} (hk : k < 4) :
    2 ≤ (m.usedSlot q idx + .ofNat 64 k - ((m.queue q).usedAddr + 2)).toNat := by
  unfold usedSlot
  bv_omega

theorem usedIdx_consumeChain (idx : BitVec 16) (written : BitVec 32) :
    (virtioConsumeChain m q idx written).usedIdx q =
      if ramRange m.bus ((m.queue q).usedAddr + 2) 2 then m.usedIdx q + 1 else 0 := by
  split
  · rename_i hram
    exact readPhys16_writePhys16 _ hram
  · rename_i hram
    exact if_neg hram

theorem slot_consumeChain (idx : BitVec 16) (written : BitVec 32) :
    readPhys m.bus (virtioConsumeChain m q idx written).mem (m.usedSlot q (m.usedIdx q)) 4 =
      if ramRange m.bus (m.usedSlot q (m.usedIdx q)) 4 then
        some (wordBytes 4 ((idx.setWidth 32).setWidth 64)) else none := by
  rw [readPhys]
  by_cases hram : ramRange m.bus (m.usedSlot q (m.usedIdx q)) 4 = true
  case neg => rw [if_neg hram, if_neg hram]
  have hslot : ∀ k < 4, (virtioConsumeChain m q idx written).mem
      (m.usedSlot q (m.usedIdx q) + .ofNat 64 k) =
      writePhys32 m.bus m.mem (m.usedSlot q (m.usedIdx q)) (idx.setWidth 32)
        (m.usedSlot q (m.usedIdx q) + .ofNat 64 k) := by
    intro k hk
    -- the stores of the length and of the index are elsewhere
    have hidx := usedSlot_apart m (q := q) (m.usedIdx q) hk
    unfold virtioConsumeChain writePhys16
    dsimp only
    rw [writePhys_outside _ _ _ _ (by simp) (by rwa [length_wordBytes]), writePhys32,
      writePhys_outside _ _ _ _ (by simp) (by rw [length_wordBytes]; bv_omega)]
  rw [bytesAt_congr hslot, writePhys32, writePhys_ram (by simp) (by simpa using hram)]
  have hput := bytesAt_putBytes m.mem (m.usedSlot q (m.usedIdx q))
    (wordBytes 4 ((idx.setWidth 32).setWidth 64)) (by simp)
  rw [length_wordBytes] at hput
  rw [hput]

end

theorem setWidth_head (head : BitVec 16) : (head.setWidth 32).setWidth 64 = head.setWidth 64 := by
  simp

/-- What an iteration that comes to its end did: it skipped the entry, or it published it after the
backend's own stores. -/
theorem drainStep_cases (h : drainStep q s = .done s') :
    (accepts s.m q = false ∧ s'.m = s.m.advance q (s.m.availHead q)) ∨
      (accepts s.m q = true ∧ ∃ m1 written,
        SameQueues s.m m1 ∧ (KeepsUsedIdx s.m q ↔ m1.usedIdx q = s.m.usedIdx q) ∧
        s'.m = (virtioConsumeChain m1 q (s.m.availHead q) written).advance q
          (s.m.availHead q)) := by
  unfold drainStep at h
  split at h
  · cases h
  dsimp only at h
  cases hsizes : chainSizes s.m.bus s.m.mem (s.m.queue q).descAddr (s.m.availHead q) with
  | endless =>
    rw [hsizes] at h
    cases h
  | fail =>
    rw [hsizes] at h
    cases h
    exact .inl ⟨by rw [accepts, hsizes], rfl⟩
  | done sizes =>
    obtain ⟨rd, wr⟩ := sizes
    rw [hsizes] at h
    dsimp only at h
    have haccepts : accepts s.m q = backendAccepts s.m q (s.m.availHead q) rd := by
      rw [accepts, hsizes]
    rw [recv_eq] at h
    cases hreply : reply s.m q (s.m.availHead q) rd wr with
    | endless =>
      rw [hreply] at h
      cases h
    | fail =>
      rw [hreply] at h
      cases h
    | done r =>
      obtain ⟨hsome, hsame⟩ := reply_spec hreply
      rw [haccepts, ← hsome]
      rw [hreply] at h
      cases h
      cases r with
      | none => exact .inl ⟨rfl, rfl⟩
      | some p =>
        obtain ⟨m1, written⟩ := p
        refine .inr ⟨rfl, m1, written, hsame m1 written rfl, ⟨?_, ?_⟩, rfl⟩
        · intro hkeeps
          exact hkeeps rd wr m1 written hsizes hreply
        · intro hidx rd' wr' m1' written' hsizes' hreply'
          cases hsizes.symm.trans hsizes'
          cases hreply.symm.trans hreply'
          exact hidx

theorem drainStep_publishes_iff (h : drainStep q s = .done s') :
    Published s.m q s'.m ↔ Publishable s.m q := by
  rcases drainStep_cases h with ⟨hreject, hs'⟩ | ⟨haccept, m1, written, hsame, hkeeps, hs'⟩
  · -- a rejected entry leaves the history as it was
    constructor
    · intro hpub
      have hlog := hpub.log
      rw [hs'] at hlog
      simp [advance] at hlog
    · intro hok
      rw [hok.accepted] at hreject
      cases hreject
  · have hidx : s'.m.usedIdx q =
        if ramRange s.m.bus ((s.m.queue q).usedAddr + 2) 2 then m1.usedIdx q + 1 else 0 := by
      rw [hs', usedIdx_advance, usedIdx_consumeChain, hsame.bus, hsame.queue]
    have hslot : m1.usedIdx q = s.m.usedIdx q →
        readPhys s'.m.bus s'.m.mem (s.m.usedSlot q (s.m.usedIdx q)) 4 =
          if ramRange s.m.bus (s.m.usedSlot q (s.m.usedIdx q)) 4 then
            some (wordBytes 4 (((s.m.availHead q).setWidth 32).setWidth 64)) else none := by
      intro hused
      have h1 := slot_consumeChain m1 (q := q) (s.m.availHead q) written
      rw [hsame.bus, hsame.usedSlot, hused] at h1
      rw [hs', ← h1]
      exact congrArg (readPhys · _ _ 4) hsame.bus
    rw [setWidth_head] at hslot
    constructor
    · intro hpub
      have hram : ramRange s.m.bus ((s.m.queue q).usedAddr + 2) 2 = true := by
        by_contra hno
        have h0 : s.m.usedIdx q = 0 := if_neg hno
        have hbad := hpub.idx
        rw [hidx, if_neg hno, h0] at hbad
        exact absurd hbad (by decide)
      have hused : m1.usedIdx q = s.m.usedIdx q := by
        have heq := hpub.idx
        rw [hidx, if_pos hram] at heq
        bv_omega
      refine ⟨haccept, hram, ?_, hkeeps.mpr hused⟩
      by_contra hno
      have hread := hpub.slot
      rw [hslot hused, if_neg hno] at hread
      cases hread
    · intro hok
      have hused := hkeeps.mp hok.keeps
      refine ⟨?_, ?_, ?_⟩
      · rw [hs', ← hsame.published]
        rfl
      · rw [hidx, if_pos hok.idxRam, hused]
      · rw [hslot hused, if_pos hok.slotRam]

/-! ## A whole notify -/

/-- Progress of the notify that enters the loop at `s₀`: after any number of iterations the device
has published the heads it has consumed, in that order, and `used->idx` has advanced by their
number; and when an iteration is over, the element at the index it found holds its head. -/
structure Progress (q : Fin kVirtioMaxQueue) (s₀ : Drain) : Prop where
  inOrder : ∀ n s, drain q s₀ n = some s → ∃ heads : List (BitVec 16), heads.length = n ∧
    s.m.consumed = s₀.m.consumed ++ heads ∧ s.m.published = s₀.m.published ++ heads
  usedIdx : ∀ n s, drain q s₀ n = some s →
    s.m.usedIdx q = s₀.m.usedIdx q + BitVec.ofNat 16 n
  onRing : ∀ n s s', drain q s₀ n = some s → drainStep q s = .done s' →
    readPhys s'.m.bus s'.m.mem (s.m.usedSlot q (s.m.usedIdx q)) 4 =
      some (wordBytes 4 ((s.m.availHead q).setWidth 64))

theorem drain_succ {n : Nat} (h : drain q s₀ n = some s) (hstep : drainStep q s = .done s') :
    drain q s₀ (n + 1) = some s' := by
  rw [drain, h]
  dsimp only
  rw [hstep]

theorem drain_succ_inv {n : Nat} (h : drain q s₀ (n + 1) = some s') :
    ∃ s, drain q s₀ n = some s ∧ drainStep q s = .done s' := by
  rw [drain] at h
  cases hs : drain q s₀ n with
  | none =>
    rw [hs] at h
    cases h
  | some s =>
    rw [hs] at h
    dsimp only at h
    cases hstep : drainStep q s with
    | done s'' =>
      rw [hstep] at h
      cases h
      exact ⟨s, rfl, hstep⟩
    | fail =>
      rw [hstep] at h
      cases h
    | endless =>
      rw [hstep] at h
      cases h

theorem drainStep_consumed (h : drainStep q s = .done s') :
    s'.m.consumed = s.m.consumed ++ [s.m.availHead q] := by
  rcases drainStep_cases h with ⟨-, hs'⟩ | ⟨-, m1, written, hsame, -, hs'⟩
  · rw [hs']
    rfl
  · rw [hs', ← hsame.consumed]
    rfl

theorem progress_iff_published (s₀ : Drain) :
    Progress q s₀ ↔ ∀ n s s', drain q s₀ n = some s → drainStep q s = .done s' →
      Published s.m q s'.m := by
  constructor
  · intro hprog n s s' hs hstep
    have hs' := drain_succ hs hstep
    obtain ⟨heads, -, hc, hp⟩ := hprog.inOrder n s hs
    obtain ⟨heads', -, hc', hp'⟩ := hprog.inOrder (n + 1) s' hs'
    refine ⟨?_, ?_, hprog.onRing n s s' hs hstep⟩
    · -- the consumed heads of the two states differ by the entry
      have hheads : heads' = heads ++ [s.m.availHead q] := by
        rw [drainStep_consumed hstep, hc, List.append_assoc] at hc'
        exact (List.append_cancel_left hc').symm
      rw [hp', hp, hheads, List.append_assoc]
    · rw [hprog.usedIdx (n + 1) s' hs', hprog.usedIdx n s hs, BitVec.add_assoc]
      congr 1
      exact BitVec.ofNat_add n 1
  · intro hpub
    have hrun : ∀ n s, drain q s₀ n = some s → (∃ heads : List (BitVec 16), heads.length = n ∧
        s.m.consumed = s₀.m.consumed ++ heads ∧ s.m.published = s₀.m.published ++ heads) ∧
        s.m.usedIdx q = s₀.m.usedIdx q + .ofNat 16 n := by
      intro n
      induction n with
      | zero =>
        intro s hs
        cases hs
        exact ⟨⟨[], rfl, by simp, by simp⟩, by simp⟩
      | succ n ih =>
        intro s' hs'
        obtain ⟨s, hs, hstep⟩ := drain_succ_inv hs'
        obtain ⟨⟨heads, hlen, hc, hp⟩, hidx⟩ := ih s hs
        have hnext := hpub n s s' hs hstep
        refine ⟨⟨heads ++ [s.m.availHead q], by simp [hlen], ?_, ?_⟩, ?_⟩
        · rw [drainStep_consumed hstep, hc, List.append_assoc]
        · rw [hnext.log, hp, List.append_assoc]
        · rw [hnext.idx, hidx, BitVec.add_assoc]
          congr 1
          exact (BitVec.ofNat_add n 1).symm
    exact ⟨fun n s hs => (hrun n s hs).1, fun n s hs => (hrun n s hs).2,
      fun n s s' hs hstep => (hpub n s s' hs hstep).slot⟩

/-- A notify makes progress exactly when every entry it consumes is publishable in the state it is
consumed in. -/
theorem drain_progress_iff (m : VirtioMachine) (q : Fin kVirtioMaxQueue) :
    (∀ s₀, virtioNotifyQueue m q = some s₀ → Progress q s₀) ↔
      ∀ s₀, virtioNotifyQueue m q = some s₀ → ∀ n s s', drain q s₀ n = some s →
        drainStep q s = .done s' → Publishable s.m q := by
  constructor
  · intro hprog s₀ hs₀ n s s' hs hstep
    have hpub := (progress_iff_published s₀).mp (hprog s₀ hs₀) n s s' hs hstep
    exact (drainStep_publishes_iff hstep).mp hpub
  · intro hok s₀ hs₀
    rw [progress_iff_published]
    intro n s s' hs hstep
    exact (drainStep_publishes_iff hstep).mpr (hok s₀ hs₀ n s s' hs hstep)

/-- A block device with one request in queue 0: a readable descriptor of `len` bytes at
`0x80001000`, with a header of type `type`. One page each holds the descriptors, the two rings and
the header. -/
def oneRequest (descAddr : BitVec 64) (len type : BitVec 32) : VirtioMachine where
  bus := ⟨[⟨0x80000000, 0x10000, .kRamOps, 0, false, some ⟨0, 0⟩⟩], none⟩
  mem :=
    let mem₁ := ByteMem.store (fun _ => 0) 0x80001000 8 0x80004000
    let mem₂ := ByteMem.store mem₁ 0x80001008 4 (len.setWidth 64)
    let mem₃ := ByteMem.store mem₂ 0x80002002 2 1
    ByteMem.store mem₃ 0x80004000 4 (type.setWidth 64)
  queue := fun _ => ⟨8, by decide, descAddr, 0x80002000, 0x80003000, 0, false⟩
  intStatus := 0
  irqLine := false
  backend := .blk (some ⟨512, fun _ => 0⟩)
  consumed := []
  published := []

/-- What a notify of queue 0 has consumed, published and left in `used->idx` after one entry. -/
def afterOne (m : VirtioMachine) : Option (List (BitVec 16) × List (BitVec 16) × BitVec 16) :=
  let q : Fin kVirtioMaxQueue := ⟨0, by decide⟩
  (virtioNotifyQueue m q).bind fun s₀ =>
    (drain q s₀ 1).map fun s => (s.m.consumed, s.m.published, s.m.usedIdx q)

/-- Three requests that are consumed and never published: an unsupported type, a header of 8 bytes
and a descriptor table outside RAM. -/
theorem drain_loses_entry :
    afterOne (oneRequest 0x80001000 16 8) = some ([0], [], 0) ∧
      afterOne (oneRequest 0x80001000 8 0) = some ([0], [], 0) ∧
      afterOne (oneRequest 0x90000000 16 0) = some ([0], [], 0) := by
  decide +kernel

/-- A flush is published. -/
example : afterOne (oneRequest 0x80001000 16 4) = some ([0], [0], 1) := by decide +kernel

end Cemu.Virtio
