import Cemu.Storage.IdeCommand
import Cemu.Storage.IdeEngine

/-!
# The data phase of an IDE command

The invariant of a channel: in the data phase of a WRITE command the blocks from the cursor to the
end of the transfer belong to the command (`Room` for `Writable`), and a command packet is moved
alone. It is kept by the rounds of the data port and by the packet commands, unless a packet
makes an engine that is started already write the medium.
-/

namespace Cemu.Storage

open Cemu.Dma Cemu.X86

def WriteCmd.covers (c : WriteCmd) (k : Nat) : Prop :=
  c.lba * 512 ≤ k ∧ k < (c.lba + c.count) * 512

/-- Byte `k` of drive `i`, a disk, belongs to the WRITE command the channel is executing. -/
def Writable (ch : IdeChannel) (i : Fin kIdeDrivesPerChannel) (k : Nat) : Prop :=
  ch.active = some i ∧ (ch.media i).atapi = false ∧
    ∃ c, ch.writeCmd = some c ∧ c.drive = i ∧ c.covers k

/-! ## Reads of the medium -/

def cdbBlocks (ch : IdeChannel) : Nat :=
  match cdb ch 0 with
  | 0x28 => cdb ch 7 * 0x100 + cdb ch 8
  | 0xa8 => cdb ch 6 * 0x1000000 + cdb ch 7 * 0x10000 + cdb ch 8 * 0x100 + cdb ch 9
  | 0xbe =>
    if 0 < cdb ch 9 ∧ cdb ch 9 < 8 then cdb ch 6 * 0x10000 + cdb ch 7 * 0x100 + cdb ch 8 else 0
  | _ => 0

def packetReads (ch : IdeChannel) (i : Fin kIdeDrivesPerChannel) : Bool :=
  decide (cdb ch 1 / 0x20 = 0) && decide ((ch.drives i).senseKey ≠ 0x6) &&
    mediumPresent (ch.drives i) && decide (cdbLba ch + cdbBlocks ch ≤ (ch.drives i).blocks) &&
    decide (0 < toInt32 (cdbBlocks ch * kAtapiBlockSize))

/-! ## The invariant -/

def Fits (ch : IdeChannel) : Prop :=
  ∀ i f, (ch.media i).image = some f → (ch.media i).atapi = false →
    (ch.media i).blocks * 512 ≤ f.size

structure DataPhase (ch : IdeChannel) (i : Fin kIdeDrivesPerChannel) : Prop where
  block : 0 < ch.blockSize
  packet : ch.packet = true → ch.isWrite = true ∧ ch.multi = 0
  room : ch.isWrite = true → ch.packet = false → Room (Writable ch i) i ch ∧ 0 ≤ ch.used

structure IdeInv (ch : IdeChannel) : Prop where
  fits : Fits ch
  phase : ∀ i, ch.active = some i → DataPhase ch i
  round : ∀ i, ch.active = some i → ch.isWrite = true → ch.packet = false → ch.round ≤ ch.left

structure StepOk {D : Type} (S : Fin kIdeDrivesPerChannel → Nat → Prop) (ch : IdeChannel)
    (r : IdeChannel × World D) : Prop where
  inv : IdeInv r.1
  media : MediaAgree S ch r.1
  bus : OpenBus r.2.bus

section

variable {S : Fin kIdeDrivesPerChannel → Nat → Prop} {ch ch' : IdeChannel}

theorem Fits.agree (h : Fits ch) (hmedia : MediaAgree S ch ch') : Fits ch' := by
  intro i f' hf' hdisk
  obtain ⟨f, hf, hsize⟩ := hmedia.size hf'
  rw [hmedia.blocks, hsize]
  exact h i f hf ((hmedia.atapi i).symm.trans hdisk)

theorem IdeInv.of_idle (h : Fits ch) (hidle : ch.active = none) : IdeInv ch where
  fits := h
  phase i hi := absurd (hidle.symm.trans hi) (by simp)
  round i hi := absurd (hidle.symm.trans hi) (by simp)

structure SameCommand (ch ch' : IdeChannel) : Prop where
  active : ch'.active = ch.active
  isWrite : ch'.isWrite = ch.isWrite
  packet : ch'.packet = ch.packet
  multi : ch'.multi = ch.multi
  writeCmd : ch'.writeCmd = ch.writeCmd
  blockSize : ch'.blockSize = ch.blockSize

structure SameCursor (ch ch' : IdeChannel) : Prop extends SameCommand ch ch' where
  media : ch'.media = ch.media
  lba : ch'.lba = ch.lba
  left : ch'.left = ch.left
  used : ch'.used = ch.used

variable {i : Fin kIdeDrivesPerChannel} {f : IdeChannel → IdeChannel}

theorem SameCommand.trans {ch'' : IdeChannel} (h : SameCommand ch ch') (h' : SameCommand ch' ch'') :
    SameCommand ch ch'' :=
  ⟨h'.active.trans h.active, h'.isWrite.trans h.isWrite, h'.packet.trans h.packet,
    h'.multi.trans h.multi, h'.writeCmd.trans h.writeCmd, h'.blockSize.trans h.blockSize⟩

theorem SameCursor.trans {ch'' : IdeChannel} (h : SameCursor ch ch') (h' : SameCursor ch' ch'') :
    SameCursor ch ch'' :=
  ⟨h.toSameCommand.trans h'.toSameCommand, h'.media.trans h.media, h'.lba.trans h.lba,
    h'.left.trans h.left, h'.used.trans h.used⟩

theorem SameCommand.writable (h : SameCommand ch ch') (hmedia : MediaAgree S ch ch') :
    Writable ch' = Writable ch := by
  funext i k
  simp only [Writable, h.active, h.writeCmd, hmedia.atapi]

theorem DataPhase.advance (h : DataPhase ch i) (hcmd : SameCommand ch ch')
    (hmedia : MediaAgree S ch ch')
    (hcursor : ch.isWrite = true → ch.packet = false →
      0 ≤ ch'.left ∧ 0 ≤ ch'.used ∧ ch.lba ≤ ch'.lba ∧
        ch'.lba * 512 + ch'.used + ch'.left ≤ ch.lba * 512 + ch.used + ch.left) :
    DataPhase ch' i where
  block := by rw [hcmd.blockSize]; exact h.block
  packet := by rw [hcmd.packet, hcmd.isWrite, hcmd.multi]; exact h.packet
  room hwrite hpacket := by
    rw [hcmd.isWrite] at hwrite
    rw [hcmd.packet] at hpacket
    obtain ⟨hleft, hused, hlba, hend⟩ := hcursor hwrite hpacket
    rw [hcmd.writable hmedia]
    exact ⟨(h.room hwrite hpacket).1.advance hmedia hcmd.blockSize hleft hlba hend, hused⟩

theorem DataPhase.sameCursor (h : DataPhase ch i) (hsame : SameCursor ch ch') :
    DataPhase ch' i := by
  refine h.advance (S := fun _ _ => True) hsame.toSameCommand (.of_eq hsame.media) fun hw hp => ?_
  obtain ⟨hroom, hused⟩ := h.room hw hp
  have hleft := hroom.left
  rw [hsame.left, hsame.used, hsame.lba]
  exact ⟨hleft, hused, Int.le_refl _, Int.le_refl _⟩

theorem IdeInv.sameCursor (h : IdeInv ch) (hsame : SameCursor ch ch')
    (hround : ch'.round = ch.round) :
    IdeInv ch' where
  fits := h.fits.agree (S := fun _ _ => True) (.of_eq hsame.media)
  phase i hi := (h.phase i (hsame.active.symm.trans hi)).sameCursor hsame
  round i hi hw hp := by
    rw [hround, hsame.left]
    exact h.round i (hsame.active.symm.trans hi) (hsame.isWrite.symm.trans hw)
      (hsame.packet.symm.trans hp)

/-! ## Rounds -/

variable (ch) (i : Fin kIdeDrivesPerChannel)

theorem raiseDrq_sameCursor : SameCursor ch (raiseDrq ch i) ∧ (raiseDrq ch i).round = ch.round := by
  unfold raiseDrq
  split
  · exact ⟨⟨⟨rfl, rfl, rfl, rfl, rfl, rfl⟩, rfl, rfl, rfl, rfl⟩, rfl⟩
  · exact ⟨⟨⟨rfl, rfl, rfl, rfl, rfl, rfl⟩, media_of_update rfl rfl, rfl, rfl, rfl⟩, rfl⟩

theorem fetchIf_sameCursor (needed : Bool) (off : Int) (n : Nat) :
    SameCursor ch (fetchIf ch i needed off n).1 ∧
      (fetchIf ch i needed off n).1.round = ch.round := by
  unfold fetchIf readMedium
  split
  · split <;> exact ⟨⟨⟨rfl, rfl, rfl, rfl, rfl, rfl⟩, rfl, rfl, rfl, rfl⟩, rfl⟩
  · exact ⟨⟨⟨rfl, rfl, rfl, rfl, rfl, rfl⟩, rfl, rfl, rfl, rfl⟩, rfl⟩

structure RoundStarted (ch : IdeChannel) (r : IdeChannel × Bool) : Prop where
  cmd : SameCommand ch r.1
  media : r.1.media = ch.media
  lba : r.1.lba = ch.lba
  left : r.1.left = ch.left
  used : r.1.used = 0 ∨ r.1.used = ch.used
  round : r.2 = true → 0 ≤ ch.left → r.1.round ≤ ch.left

theorem multiBytes_le (h : 0 ≤ ch.left) : multiBytes ch ≤ ch.left := by
  have hdiv := Int.mul_tdiv_add_tmod ch.left (512 : Nat)
  have hmod := Int.tmod_nonneg (512 : Nat) h
  unfold multiBytes kAtaBlockSize
  omega

theorem roundBytes_le : roundBytes ch ≤ ch.left := by
  unfold roundBytes
  split <;> omega

variable {ch} in
theorem RoundStarted.sameCursor {r r' : IdeChannel × Bool} (h : RoundStarted ch r)
    (hsame : SameCursor r.1 r'.1) (hround : r'.2 = true → 0 ≤ ch.left → r'.1.round ≤ ch.left) :
    RoundStarted ch r' where
  cmd := h.cmd.trans hsame.toSameCommand
  media := hsame.media.trans h.media
  lba := hsame.lba.trans h.lba
  left := hsame.left.trans h.left
  used := by rw [hsame.used]; exact h.used
  round := hround

theorem startRound_started : RoundStarted ch (startRound ch i) := by
  have hround := multiBytes_le ch
  unfold startRound
  dsimp only
  split
  · have hstart : RoundStarted ch (startMulti ch, true) :=
      ⟨⟨rfl, rfl, rfl, rfl, rfl, rfl⟩, rfl, rfl, rfl, .inl rfl, fun _ => hround⟩
    obtain ⟨hsame, hround'⟩ := fetchIf_sameCursor (startMulti ch) i
      (!ch.isWrite && decide (0 < multiBytes ch)) (ch.lba * kAtaBlockSize) (multiBytes ch).toNat
    generalize fetchIf (startMulti ch) i _ _ _ = r at hsame hround'
    have hfetched : RoundStarted ch (r.1, true) :=
      hstart.sameCursor hsame fun _ hleft => by rw [hround']; exact hround hleft
    split
    · refine hfetched.sameCursor (raiseDrq_sameCursor r.1 i).1 fun _ hleft => ?_
      rw [(raiseDrq_sameCursor r.1 i).2, hround']
      exact hround hleft
    · exact hfetched.sameCursor ⟨⟨rfl, rfl, rfl, rfl, rfl, rfl⟩, rfl, rfl, rfl, rfl⟩
        fun h => nomatch h
  · obtain ⟨hsame, -⟩ := fetchIf_sameCursor ch i (ch.refill && !ch.isWrite && decide (ch.used = 0))
      (ch.lba * ch.blockSize) ch.blockSize.toNat
    generalize fetchIf ch i _ _ _ = r at hsame
    have hfetched : RoundStarted ch (r.1, false) :=
      ⟨hsame.toSameCommand, hsame.media, hsame.lba, hsame.left, .inr hsame.used, fun h => nomatch h⟩
    split
    · obtain ⟨hdrq, hround'⟩ := raiseDrq_sameCursor { r.1 with round := roundBytes r.1 } i
      have hset : SameCursor r.1 { r.1 with round := roundBytes r.1 } :=
        ⟨⟨rfl, rfl, rfl, rfl, rfl, rfl⟩, rfl, rfl, rfl, rfl⟩
      refine hfetched.sameCursor (hset.trans hdrq) fun _ _ => ?_
      rw [hround', ← hsame.left]
      exact roundBytes_le r.1
    · exact hfetched

variable {ch i}

theorem raiseIrqIde_sameCursor (ch : IdeChannel) :
    SameCursor ch (raiseIrqIde ch) ∧ (raiseIrqIde ch).round = ch.round :=
  ⟨⟨⟨rfl, rfl, rfl, rfl, rfl, rfl⟩, rfl, rfl, rfl, rfl⟩, rfl⟩

/-! ## The data port -/

theorem storeIf_sameCommand (ch : IdeChannel) (i : Fin kIdeDrivesPerChannel) (needed : Bool)
    (off : Int) (n : Nat) : SameCommand ch (storeIf ch i needed off n).1 := by
  unfold storeIf writeMedium
  split
  · split <;> exact ⟨rfl, rfl, rfl, rfl, rfl, rfl⟩
  · exact ⟨rfl, rfl, rfl, rfl, rfl, rfl⟩

section

variable (hfits : Fits ch) (hactive : ch.active = some i) (hphase : DataPhase ch i)

include hfits hactive hphase

theorem IdeInv.startRound (hok : (startRound ch i).2 = true) : IdeInv (startRound ch i).1 := by
  have hstart := startRound_started ch i
  refine ⟨hfits.agree (S := fun _ _ => True) (.of_eq hstart.media), fun j hj => ?_,
    fun j hj hw hp => ?_⟩
  · obtain rfl : i = j := Option.some.inj (hactive.symm.trans (hstart.cmd.active.symm.trans hj))
    refine hphase.advance (S := fun _ _ => True) hstart.cmd (.of_eq hstart.media) fun hw hp => ?_
    obtain ⟨hroom, hused⟩ := hphase.room hw hp
    have hleft := hroom.left
    have hused' := hstart.used
    rw [hstart.left, hstart.lba]
    omega
  · rw [hstart.left]
    exact hstart.round hok
      (hphase.room (hstart.cmd.isWrite.symm.trans hw) (hstart.cmd.packet.symm.trans hp)).1.left

theorem IdeInv.startRoundOrFail (hf : ∀ ch, SameCursor ch (f ch) ∧ (f ch).round = ch.round) :
    IdeInv (startRoundOrFail ch i f) ∧ (startRoundOrFail ch i f).media = ch.media := by
  have hmedia := (startRound_started ch i).media
  unfold Storage.startRoundOrFail
  dsimp only
  split
  · next hok =>
    obtain ⟨hsame, hround⟩ := hf (Storage.startRound ch i).1
    exact ⟨(IdeInv.startRound hfits hactive hphase hok).sameCursor hsame hround,
      hsame.media.trans hmedia⟩
  · have hmedia' := (media_mediumReadFailed (Storage.startRound ch i).1 i).trans hmedia
    exact ⟨.of_idle (hfits.agree (S := fun _ _ => True) (.of_eq hmedia'))
      (active_mediumReadFailed ..),
      hmedia'⟩

theorem drained_ok {r : IdeChannel × Bool} {next : IdeChannel} (hagree : MediaAgree S ch r.1)
    (hcmd : SameCommand ch next) (hmedia : next.media = r.1.media)
    (hcursor : ch.isWrite = true → ch.packet = false →
      0 ≤ next.left ∧ 0 ≤ next.used ∧ ch.lba ≤ next.lba ∧
        next.lba * 512 + next.used + next.left ≤ ch.lba * 512 + ch.used + ch.left)
    (hf : ∀ ch, SameCursor ch (f ch) ∧ (f ch).round = ch.round) :
    let done := if !r.2 then abort r.1 i
      else if 0 < r.1.left then startRoundOrFail next i f else endCommand next i
    IdeInv done ∧ MediaAgree S ch done := by
  have hnext : MediaAgree S ch next := hagree.trans (.of_eq hmedia)
  have hidle : ∀ ch', ch'.media = r.1.media → ch'.active = none →
      IdeInv ch' ∧ MediaAgree S ch ch' :=
    fun ch' h h' => ⟨.of_idle (hfits.agree (hagree.trans (.of_eq h))) h', hagree.trans (.of_eq h)⟩
  split
  · exact hidle _ (media_abort ..) rfl
  split
  · obtain ⟨hinv, hsame⟩ := IdeInv.startRoundOrFail (hfits.agree hnext) (hcmd.active.trans hactive)
      (hphase.advance hcmd hnext hcursor) hf
    exact ⟨hinv, hnext.trans (.of_eq hsame)⟩
  · exact hidle _ ((media_endCommand ..).trans hmedia) rfl

theorem multiDrained_ok (hpacket : ch.packet = false) :
    IdeInv (multiDrained ch i) ∧ MediaAgree (Writable ch) ch (multiDrained ch i) := by
  obtain ⟨-, hleft, hlba, hused⟩ :=
    storeIf_cursor ch i ch.isWrite (ch.lba * kAtaBlockSize) ch.used.toNat
  have hcmd := storeIf_sameCommand ch i ch.isWrite (ch.lba * kAtaBlockSize) ch.used.toNat
  have hagree : MediaAgree (Writable ch) ch
      (storeIf ch i ch.isWrite (ch.lba * kAtaBlockSize) ch.used.toNat).1 := by
    refine storeIf_agree (fun hw => (hphase.room hw hpacket).1) (fun hw => ?_) fun _ hk => hk
    obtain ⟨hroom, hnonneg⟩ := hphase.room hw hpacket
    have := hroom.left
    omega
  refine drained_ok hfits hactive hphase hagree (hcmd.trans ⟨rfl, rfl, rfl, rfl, rfl, rfl⟩) rfl ?_
    raiseIrqIde_sameCursor
  intro hw hp
  obtain ⟨hroom, hnonneg⟩ := hphase.room hw hp
  have hpos := hroom.left
  have hdiv := Int.mul_tdiv_add_tmod ch.used (512 : Nat)
  have hmod := Int.tmod_nonneg (512 : Nat) hnonneg
  have hquot := Int.tdiv_nonneg hnonneg (show (0 : Int) ≤ (512 : Nat) by decide)
  simp only [nextMulti, kAtaBlockSize, hused] at *
  omega

theorem blockDrained_ok (hpacket : ch.packet = false) :
    IdeInv (blockDrained ch i) ∧ MediaAgree (Writable ch) ch (blockDrained ch i) := by
  obtain ⟨-, hleft, hlba, hused⟩ :=
    storeIf_cursor ch i (blockFull ch && ch.isWrite) (ch.lba * ch.blockSize) ch.blockSize.toNat
  have hcmd := storeIf_sameCommand ch i (blockFull ch && ch.isWrite) (ch.lba * ch.blockSize)
    ch.blockSize.toNat
  have hfull : blockFull ch = true → ch.used = ch.blockSize := by
    simp +contextual [blockFull]
  have hagree : MediaAgree (Writable ch) ch
      (storeIf ch i (blockFull ch && ch.isWrite) (ch.lba * ch.blockSize) ch.blockSize.toNat).1 := by
    cases hneeded : blockFull ch && ch.isWrite
    · exact .of_eq rfl
    · simp only [Bool.and_eq_true] at hneeded
      obtain ⟨hroom, -⟩ := hphase.room hneeded.2 hpacket
      have husedFull := hfull hneeded.1
      have hblock := hroom.block
      have hpos := hroom.left
      rw [hblock]
      exact storeIf_agree (fun _ => hroom) (fun _ => by omega) fun _ hk => hk
  have hatapi : ∀ ch : IdeChannel,
      SameCursor ch (if (ch.drives i).atapi then raiseIrqIde ch else ch) ∧
        (if (ch.drives i).atapi then raiseIrqIde ch else ch).round = ch.round := by
    intro ch
    split <;> exact ⟨⟨⟨rfl, rfl, rfl, rfl, rfl, rfl⟩, rfl, rfl, rfl, rfl⟩, rfl⟩
  refine drained_ok hfits hactive hphase hagree ?_ ?_ ?_ hatapi
  · split
    · exact hcmd.trans ⟨rfl, rfl, rfl, rfl, rfl, rfl⟩
    · exact hcmd
  · split <;> rfl
  · intro hw hp
    obtain ⟨hroom, hnonneg⟩ := hphase.room hw hp
    have hpos := hroom.left
    have hblock := hroom.block
    split
    · next h =>
      have := hfull h
      simp only [nextBlock]
      omega
    · omega

end

/-! ## Packets -/

variable {D : Type} {w : World D}

theorem StepOk.of_idle {r : IdeChannel × World D} (hfits : Fits ch) (hbus : OpenBus r.2.bus)
    (hagree : MediaAgree S ch r.1) (hidle : r.1.active = none) : StepOk S ch r :=
  ⟨.of_idle (hfits.agree hagree) hidle, hagree, hbus⟩

theorem StepOk.of_media {r : IdeChannel × World D} (h : StepOk S ch' r)
    (hmedia : ch'.media = ch.media) :
    StepOk S ch r :=
  ⟨h.inv, (MediaAgree.of_eq hmedia).trans h.media, h.bus⟩

theorem bmdmaRun_ok (hfits : Fits ch) (hbus : OpenBus w.bus) (hblock : 0 < ch.blockSize)
    (hok : EngineOk ch.toMem (S i) i ch) : (bmdmaRun ch i w).Ends (StepOk S ch) :=
  ((bmdmaRun_ends hbus hblock).and_safe (bmdmaRun_safe S hbus)).mono
    fun _ ⟨_, hbus', hidle, hmedia⟩ => .of_idle hfits hbus' (hmedia hok) hidle

theorem startDataIn_ok {lba bytes : Int} {refill : Bool} (hfits : Fits ch)
    (hactive : ch.active = some i) (hpacket : ch.packet = false) (hbus : OpenBus w.bus)
    (hdir : ch.started = true → ch.toMem = true ∨ bytes < 2048) :
    (startDataIn ch i w lba bytes refill).Ends (StepOk S ch) := by
  unfold startDataIn
  dsimp only
  split
  · exact .of_idle hfits hbus (.of_eq (media_cmdOk ..)) rfl
  split
  · next hstarted =>
    have hok : (bmdmaRun { dataIn ch lba bytes refill with dma := true, count := kAtapiReasonIo } i
        w).Ends (StepOk S
          { dataIn ch lba bytes refill with dma := true, count := kAtapiReasonIo }) := by
      refine bmdmaRun_ok hfits hbus (show 0 < 2048 by decide) ?_
      exact (hdir hstarted).imp id fun hshort => .inl (show 0 + bytes < 2048 by omega)
    exact hok.mono fun r hr => hr.of_media rfl
  · generalize hto : { dataIn ch lba bytes refill with dma := false } = ch1
    have hmedia : ch1.media = ch.media := by subst hto; rfl
    have hphase : DataPhase ch1 i := by
      subst hto
      exact ⟨show 0 < 2048 by decide, fun h => absurd (hpacket.symm.trans h) (by decide),
        fun h => nomatch h⟩
    have hinv := IdeInv.startRoundOrFail (hfits.agree (S := S) (.of_eq hmedia))
      (by subst hto; exact hactive) hphase
      (fun _ => ⟨⟨⟨rfl, rfl, rfl, rfl, rfl, rfl⟩, rfl, rfl, rfl, rfl⟩, rfl⟩ : ∀ ch : IdeChannel,
        SameCursor ch (raiseIrqIde { ch with count := kAtapiReasonIo }) ∧
          (raiseIrqIde { ch with count := kAtapiReasonIo }).round = ch.round)
    exact ⟨hinv.1, .of_eq (hinv.2.trans hmedia), hbus⟩

theorem startReply_ok {reply : List (BitVec 8)} {len maxLen : Nat} (hfits : Fits ch)
    (hactive : ch.active = some i) (hpacket : ch.packet = false) (hbus : OpenBus w.bus)
    (hlen : len < 2048) : (startReply ch i w reply len maxLen).Ends (StepOk S ch) := by
  have hok : (startReply ch i w reply len maxLen).Ends
      (StepOk S { ch with buf := putBuf ch.buf 0 reply }) :=
    startDataIn_ok hfits hactive hpacket hbus fun _ => .inr (by omega)
  exact hok.mono fun r hr => hr.of_media rfl

theorem modePage_length {code : Nat} {page : List (BitVec 8)} {len : Nat}
    (h : modePage code = some (page, len)) : len < 2048 := by
  unfold modePage at h
  split at h <;> cases h <;> decide

theorem buildToc_length {dr : IdeDrive} {isMsf : Bool} {start : Nat} {toc : List (BitVec 8)}
    (h : buildToc dr isMsf start = some toc) : toc.length < 2048 := by
  unfold buildToc at h
  split at h
  · cases h
  · cases h
    cases isMsf <;> simp only [tocAddr, be16, be32, msf] <;> split <;> simp

theorem buildRawToc_length (dr : IdeDrive) (isMsf : Bool) : (buildRawToc dr isMsf).2 < 2048 := by
  cases isMsf <;> simp [buildRawToc, msf]

/-- What the dispatch of a packet can come to. -/
inductive PacketCourse (ch : IdeChannel) (i : Fin kIdeDrivesPerChannel) (w : World D) :
    Engine (IdeChannel × World D) → Prop
  | refused (buf : Nat → BitVec 8) {key : BitVec 8} (asc : BitVec 8) (hkey : key = 2 ∨ key = 5) :
      PacketCourse ch i w (.done (atapiError { ch with buf := buf } i key asc, w))
  | attention : PacketCourse ch i w (.done (checkCondition ch i, w))
  | ok : PacketCourse ch i w (.done (cmdOk ch i, w))
  | tray (hop : cdb ch 0 = 0x1b) : PacketCourse ch i w (.done (startStopUnit ch i, w))
  | lock (b : Bool) : PacketCourse ch i w
      (.done (cmdOk (ch.setDrive i fun dr => { dr with trayLocked := b }) i, w))
  | reply (bytes : List (BitVec 8)) {len : Nat} (maxLen : Nat) (hlen : len < 2048) :
      PacketCourse ch i w (startReply ch i w bytes len maxLen)
  | read (hreads : 0 < toInt32 (cdbBlocks ch * kAtapiBlockSize) → packetReads ch i = true) :
      PacketCourse ch i w
        (startDataIn ch i w (cdbLba ch) (toInt32 (cdbBlocks ch * kAtapiBlockSize)) true)

namespace PacketCourse

theorem error (key asc : BitVec 8) (hkey : key = 2 ∨ key = 5) :
    PacketCourse ch i w (.done (atapiError ch i key asc, w)) :=
  refused ch.buf asc hkey

theorem withMedium {m : Engine (IdeChannel × World D)}
    (h : mediumPresent (ch.drives i) = true → PacketCourse ch i w m) :
    PacketCourse ch i w (withMedium ch i w m) := by
  unfold Storage.withMedium
  split
  · next hmedium => exact h hmedium
  · exact error _ _ (.inl rfl)

theorem modeSense : PacketCourse ch i w (modeSense ch i w) := by
  unfold Storage.modeSense
  dsimp only
  split
  · exact error _ _ (.inr rfl)
  split
  · exact error _ _ (.inr rfl)
  split
  · next h => exact reply _ _ (modePage_length h)
  · exact refused _ _ (.inr rfl)

theorem getConfiguration : PacketCourse ch i w (getConfiguration ch i w) := by
  unfold Storage.getConfiguration
  split
  · exact error _ _ (.inr rfl)
  · exact reply _ _ (by decide)

theorem readToc : PacketCourse ch i w (readToc ch i w) := by
  refine withMedium fun _ => ?_
  split
  · split
    · next h => exact reply _ _ (buildToc_length h)
    · exact error _ _ (.inr rfl)
  · exact reply _ _ (by decide)
  · exact reply _ _ (buildRawToc_length ..)
  · exact error _ _ (.inr rfl)

theorem seekCd : PacketCourse ch i w (seekCd ch i w) := by
  refine withMedium fun _ => ?_
  split
  · exact error _ _ (.inr rfl)
  · exact ok

section

variable (hlun : cdb ch 1 / 0x20 = 0) (hsense : (ch.drives i).senseKey ≠ 0x6)

include hlun hsense

theorem readBlocks (hmedium : mediumPresent (ch.drives i) = true) :
    PacketCourse ch i w (readBlocks ch i w (cdbBlocks ch)) := by
  unfold Storage.readBlocks
  split
  · exact error _ _ (.inr rfl)
  · next hrange =>
    refine read fun hpos => ?_
    have hin : cdbLba ch + cdbBlocks ch ≤ (ch.drives i).blocks := Nat.le_of_not_lt hrange
    simpa [packetReads, hlun, hmedium, hin, hpos] using hsense

theorem readCdb (hop : cdb ch 0 = 0x28 ∨ cdb ch 0 = 0xa8) :
    PacketCourse ch i w (readCdb ch i w) := by
  have hblocks : (if cdb ch 0 = 0x28 then cdb ch 7 * 0x100 + cdb ch 8
      else cdb ch 6 * 0x1000000 + cdb ch 7 * 0x10000 + cdb ch 8 * 0x100 + cdb ch 9) =
        cdbBlocks ch := by
    rcases hop with hop | hop <;> simp [cdbBlocks, hop]
  unfold Storage.readCdb
  rw [hblocks]
  refine withMedium fun hmedium => ?_
  split
  · exact ok
  · exact readBlocks hlun hsense hmedium

theorem readCd (hop : cdb ch 0 = 0xbe) : PacketCourse ch i w (readCd ch i w) := by
  refine withMedium fun hmedium => ?_
  split
  · exact ok
  split
  · exact error _ _ (.inr rfl)
  split
  · exact ok
  have hblocks : cdbBlocks ch = cdb ch 6 * 0x10000 + cdb ch 7 * 0x100 + cdb ch 8 := by
    simp only [cdbBlocks, hop]
    exact if_pos (by omega)
  rw [← hblocks]
  exact readBlocks hlun hsense hmedium

end

end PacketCourse

theorem execPacket_course (ch : IdeChannel) (i : Fin kIdeDrivesPerChannel) (w : World D) :
    PacketCourse ch i w (execPacket ch i w) := by
  unfold execPacket
  dsimp only
  split
  · exact .error _ _ (.inr rfl)
  next hlun =>
  have hlun := not_not.mp hlun
  split
  · exact .attention
  next hgate =>
  have hsense : cdb ch 0 ≠ 0x03 → cdb ch 0 ≠ 0x12 → (ch.drives i).senseKey ≠ 0x6 :=
    fun h3 h12 hkey => hgate ⟨hkey, h3, h12⟩
  split
  · exact .withMedium fun _ => .ok
  · exact .reply _ _ (by decide)
  · exact .reply _ _ (by decide)
  · next hop => exact .tray hop
  · exact .lock _
  · exact .modeSense
  · exact .modeSense
  · exact .getConfiguration
  · exact .readToc
  · exact .seekCd
  · next hop => exact .readCd hlun (hsense (by omega) (by omega)) hop
  · exact .withMedium fun _ => .reply _ _ (by decide)
  · next hop => exact .readCdb hlun (hsense (by omega) (by omega)) (.inl hop)
  · next hop => exact .readCdb hlun (hsense (by omega) (by omega)) (.inr hop)
  · exact .error _ _ (.inr rfl)

theorem execPacket_ok (hfits : Fits ch) (hactive : ch.active = some i) (hpacket : ch.packet = false)
    (hbus : OpenBus w.bus)
    (hdir : ch.started = true → ch.toMem = false → packetReads ch i = false) :
    (execPacket ch i w).Ends (StepOk S ch) := by
  have hidle : ∀ ch' : IdeChannel, ch'.media = ch.media → ch'.active = none →
      StepOk S ch (ch', w) := fun _ hmedia h => .of_idle hfits hbus (.of_eq hmedia) h
  have hcourse := execPacket_course ch i w
  generalize execPacket ch i w = r at hcourse
  cases hcourse with
  | refused buf asc hkey => exact hidle _ (media_atapiError ..) rfl
  | attention => exact hidle _ (media_checkCondition ..) rfl
  | ok => exact hidle _ (media_cmdOk ..) rfl
  | tray hop =>
    unfold startStopUnit
    dsimp only
    split
    · exact hidle _ (media_atapiError ..) rfl
    split
    · exact hidle _ ((media_cmdOk ..).trans (media_of_update rfl rfl)) rfl
    · exact hidle _ (media_cmdOk ..) rfl
  | lock b => exact hidle _ ((media_cmdOk ..).trans (media_of_update rfl rfl)) rfl
  | reply bytes maxLen hlen => exact startReply_ok hfits hactive hpacket hbus hlen
  | read hreads =>
    refine startDataIn_ok hfits hactive hpacket hbus fun hstarted => ?_
    cases hto : ch.toMem
    · refine .inr (Int.not_le.mp fun hlong => ?_)
      have := hreads (Int.lt_of_lt_of_le (by decide) hlong)
      rw [hdir hstarted hto] at this
      cases this
    · exact .inl rfl

end

end Cemu.Storage
