import Cemu.Storage.IdePhase

/-!
# Where the IDE controller writes

A medium is written by the data port, which follows the direction of the command, and by the
bus-master engine, which follows its own command register. `backwards` names the accesses at which
the two disagree and a block would be completed; in a run without them every byte of an image
that changes belongs to the WRITE command the channel is executing.
-/

namespace Cemu.Storage

open IdeChannel Relation

open Cemu.Dma Cemu.X86

/-- An access that makes the engine write the medium for a command that is no WRITE: starting it
that way in the data phase of such a command, or handing over a packet that reads the medium when
it is started already. -/
def backwards (ch : IdeChannel) : IdeAccess → Bool
  | .bmdmaWrite reg v =>
    decide (reg = 0) && !ch.started && v.getLsbD 0 && !v.getLsbD 3 && ch.active.isSome &&
      !(ch.isWrite && !ch.packet) && decide (0 < ch.left ∧ ch.blockSize ≤ ch.used + ch.left)
  | .cmdWrite reg size val =>
    match ch.active with
    | some i =>
      decide (reg = 0) && !ch.dma && ch.packet && decide (ch.round = size) && ch.started &&
        !ch.toMem && packetReads (storeData ch size val) i
    | none => false
  | _ => false

section

variable {S : Fin kIdeDrivesPerChannel → Nat → Prop} {ch ch' : IdeChannel}
  {i : Fin kIdeDrivesPerChannel} {D : Type} {w : World D}

/-! ## Accesses -/

theorem drain_sameCommand (ch : IdeChannel) (size : Nat) : SameCommand ch (ch.drain size) :=
  ⟨rfl, rfl, rfl, rfl, rfl, rfl⟩

variable {size reg count multi : Nat} {v cmd : BitVec 8}

theorem DataPhase.drain (h : DataPhase ch i)
    (hround : ch.isWrite = true → ch.packet = false → ch.round ≤ ch.left)
    (hsize : (size : Int) ≤ ch.round) : DataPhase (ch.drain size) i := by
  refine h.advance (S := fun _ _ => True) (drain_sameCommand ch size) (.of_eq rfl) fun hw hp => ?_
  obtain ⟨-, hnonneg⟩ := h.room hw hp
  have := hround hw hp
  simp only [IdeChannel.drain]
  omega

theorem ideMoveBytes_ok (h : IdeInv ch) (hactive : ch.active = some i) (hbus : OpenBus w.bus)
    (hsize : (size : Int) ≤ ch.round)
    (hdir : ch.packet = true → ch.round = size → ch.started = true → ch.toMem = false →
      packetReads ch i = false) :
    (ideMoveBytes ch i size w).Ends (StepOk (Writable ch) ch) := by
  have hfits : Fits (ch.drain size) := h.fits
  have hphase := (h.phase i hactive).drain (h.round i hactive) hsize
  unfold ideMoveBytes
  dsimp only
  split
  · refine ⟨⟨hfits, fun j hj => ?_, fun j hj hw hp => ?_⟩, .of_eq rfl, hbus⟩
    · obtain rfl : i = j := Option.some.inj (hactive.symm.trans hj)
      exact hphase
    · have := h.round i hactive hw hp
      simp only [drain]
      omega
  next hround =>
  split
  · next hmulti =>
    have hpacket : ch.packet = false := by
      cases hp : ch.packet
      · rfl
      · have hzero := ((h.phase i hactive).packet hp).2
        have : 0 < ch.multi := hmulti
        omega
    obtain ⟨hinv, hagree⟩ := multiDrained_ok hfits hactive hphase hpacket
    have hok : StepOk (Writable ch) (ch.drain size) (multiDrained (ch.drain size) i, w) :=
      ⟨hinv, hagree, hbus⟩
    exact hok.of_media rfl
  split
  · next hpacket =>
    have hround : ch.round = size := by
      simp only [drain] at hround
      omega
    have hok : (execPacket { ch.drain size with packet := false } i w).Ends
        (StepOk (Writable ch) { ch.drain size with packet := false }) :=
      execPacket_ok hfits hactive rfl hbus fun hs ht => hdir hpacket hround hs ht
    exact hok.mono fun r hr => hr.of_media rfl
  · next hpacket =>
    obtain ⟨hinv, hagree⟩ := blockDrained_ok hfits hactive hphase (by simpa using hpacket)
    have hok : StepOk (Writable ch) (ch.drain size) (blockDrained (ch.drain size) i, w) :=
      ⟨hinv, hagree, hbus⟩
    exact hok.of_media rfl

theorem readData_ok (h : IdeInv ch) (hbus : OpenBus w.bus) :
    (readData ch size w).Ends fun r => StepOk (Writable ch) ch r.2 := by
  unfold readData
  split
  · exact ⟨h, .of_eq rfl, hbus⟩
  next i hactive =>
  split
  · exact ⟨h, .of_eq rfl, hbus⟩
  next hgo =>
  simp only [Bool.or_eq_true, not_or, Bool.not_eq_true, decide_eq_true_eq] at hgo
  have hpacket : ch.packet ≠ true := fun hp => by
    have := ((h.phase i hactive).packet hp).1
    rw [hgo.1.2] at this
    cases this
  refine (ideMoveBytes_ok h hactive hbus (by omega) fun hp => absurd hp hpacket).bind fun r hr => hr

theorem writeData_ok {val : BitVec 64} (h : IdeInv ch) (hbus : OpenBus w.bus)
    (hdir : backwards ch (.cmdWrite 0 size val) = false) :
    (writeData ch size val w).Ends (StepOk (Writable ch) ch) := by
  unfold writeData
  split
  · exact ⟨h, .of_eq rfl, hbus⟩
  next i hactive =>
  split
  · exact ⟨h, .of_eq rfl, hbus⟩
  next hgo =>
  simp only [Bool.or_eq_true, not_or, decide_eq_true_eq] at hgo
  have hinv : IdeInv (storeData ch size val) :=
    h.sameCursor ⟨⟨rfl, rfl, rfl, rfl, rfl, rfl⟩, rfl, rfl, rfl, rfl⟩ rfl
  have hsize : size ≤ (storeData ch size val).round := Int.not_lt.mp hgo.2
  have hmove := ideMoveBytes_ok hinv hactive hbus hsize fun hp hr hs ht => by
    have hp : ch.packet = true := hp
    have hr : ch.round = size := hr
    have hs : ch.started = true := hs
    have ht : ch.toMem = false := ht
    simpa [backwards, hactive, hgo.1.1, hp, hr, hs, ht] using hdir
  exact hmove.mono fun r hr => hr.of_media rfl

theorem started_setBmdmaCmd (ch : IdeChannel) (v : BitVec 8) :
    (ch.setBmdmaCmd v).started = v.getLsbD 0 := by
  simp [started, setBmdmaCmd]

theorem toMem_setBmdmaCmd (ch : IdeChannel) (v : BitVec 8) :
    (ch.setBmdmaCmd v).toMem = v.getLsbD 3 := by
  simp [toMem, setBmdmaCmd]

theorem EngineOk.of_forward (h : IdeInv ch) (hactive : ch.active = some i) (hleft : 0 < ch.left)
    (hrise : ch.started = false) (hstart : v.getLsbD 0 = true)
    (hdir : backwards ch (.bmdmaWrite 0 v) = false) :
    EngineOk (v.getLsbD 3) (Writable ch i) i ch := by
  cases hto : v.getLsbD 3
  · by_cases hblock : ch.blockSize ≤ ch.used + ch.left
    · have hbit : v[3] = false := by simpa using hto
      have hwrite : ch.isWrite = true ∧ ch.packet = false := by
        simpa [backwards, hrise, hstart, hbit, hactive, hleft, hblock] using hdir
      exact .inr (.inr ((h.phase i hactive).room hwrite.1 hwrite.2).1)
    · exact .inr (.inl (by omega))
  · exact .inl rfl

theorem EngineOk.sameCursor {toMem : Bool} {T : Nat → Prop} (h : EngineOk toMem T i ch)
    (hsame : SameCursor ch ch') : EngineOk toMem T i ch' := by
  rcases h with hto | hshort | hroom
  · exact .inl hto
  · exact .inr (.inl (by rw [hsame.used, hsame.left, hsame.blockSize]; exact hshort))
  · have hleft : 0 ≤ ch'.left := hsame.left ▸ hroom.left
    have hend : ch'.lba * 512 + ch'.used + ch'.left = ch.lba * 512 + ch.used + ch.left := by
      simp only [hsame.lba, hsame.used, hsame.left]
    exact .inr (.inr (hroom.advance (S := fun _ _ => True) (.of_eq hsame.media) hsame.blockSize
      hleft (Int.le_of_eq hsame.lba.symm) (Int.le_of_eq hend)))

theorem IdeInv.sameStep (h : IdeInv ch) (hbus : OpenBus w.bus) (hs : SameCursor ch ch')
    (hr : ch'.round = ch.round) : StepOk (Writable ch) ch (ch', w) :=
  ⟨h.sameCursor hs hr, .of_eq hs.media, hbus⟩

theorem bmdmaWrite_ok (h : IdeInv ch) (hbus : OpenBus w.bus)
    (hdir : backwards ch (.bmdmaWrite reg v) = false) :
    (bmdmaWrite ch reg v w).Ends (StepOk (Writable ch) ch) := by
  unfold bmdmaWrite
  split <;> try exact h.sameStep hbus ⟨⟨rfl, rfl, rfl, rfl, rfl, rfl⟩, rfl, rfl, rfl, rfl⟩ rfl
  dsimp only
  split
  · next hrise =>
    simp only [Bool.and_eq_true, Bool.not_eq_true', started_setBmdmaCmd] at hrise
    split
    · next i hactive =>
      split
      · next hleft =>
        have hok := EngineOk.of_forward h hactive hleft hrise.1 hrise.2 hdir
        rw [← toMem_setBmdmaCmd ch v] at hok
        generalize hto : ({ ch.setBmdmaCmd v with
          bmdmaStatus := (ch.setBmdmaCmd v).bmdmaStatus ||| kBmdmaActive } : IdeChannel) = ch1
        have hsame1 : SameCursor ch ch1 := by
          subst hto
          exact ⟨⟨rfl, rfl, rfl, rfl, rfl, rfl⟩, rfl, rfl, rfl, rfl⟩
        have hdir1 : ch1.toMem = (ch.setBmdmaCmd v).toMem := by subst hto; rfl
        have hrun : (bmdmaRun ch1 i w).Ends (StepOk (Writable ch) ch1) := by
          refine bmdmaRun_ok (h.fits.agree (S := Writable ch) (.of_eq hsame1.media)) hbus ?_ ?_
          · rw [hsame1.blockSize]
            exact (h.phase i hactive).block
          · rw [hdir1]
            exact hok.sameCursor hsame1
        exact hrun.mono fun r hr => hr.of_media hsame1.media
      · exact h.sameStep hbus ⟨⟨rfl, rfl, rfl, rfl, rfl, rfl⟩, rfl, rfl, rfl, rfl⟩ rfl
    · exact h.sameStep hbus ⟨⟨rfl, rfl, rfl, rfl, rfl, rfl⟩, rfl, rfl, rfl, rfl⟩ rfl
  · split <;> exact h.sameStep hbus ⟨⟨rfl, rfl, rfl, rfl, rfl, rfl⟩, rfl, rfl, rfl, rfl⟩ rfl

/-! ## Commands -/

theorem ready_sameCursor (ch : IdeChannel) (i : Fin kIdeDrivesPerChannel) :
    SameCursor ch (ready ch i) :=
  ⟨⟨rfl, rfl, rfl, rfl, rfl, rfl⟩, media_of_update rfl rfl, rfl, rfl, rfl⟩

structure CommandOk (ch ch' : IdeChannel) : Prop where
  inv : IdeInv ch'
  media : ch'.media = ch.media

section

variable (hfits : Fits ch)
include hfits

theorem CommandOk.of_idle (hmedia : ch'.media = ch.media) (hidle : ch'.active = none) :
    CommandOk ch ch' :=
  ⟨.of_idle (hfits.agree (S := fun _ _ => True) (.of_eq hmedia)) hidle, hmedia⟩

theorem abort_ok : CommandOk ch (abort ch i) := .of_idle hfits (media_abort ..) rfl

theorem succeed_ok {f : IdeDrive → IdeDrive} (hidle : ch.active = none)
    (hf : (f (ch.drives i)).medium = (ch.drives i).medium) : CommandOk ch (succeed ch i f) := by
  have hset : (ch.setDrive i f).media = ch.media := media_of_update rfl hf
  exact .of_idle hfits ((ready_sameCursor _ i).media.trans hset) hidle

section

variable (hdisk : (ch.media i).atapi = false) (hpacket : ch.packet = false) (hused : ch.used = 0)

include hdisk hpacket hused

variable {isWrite dma : Bool}

theorem accept_phase {lba : Nat} (hrange : lba + count ≤ (ch.media i).blocks) :
    DataPhase (accept ch i lba count isWrite dma multi) i where
  block := show 0 < 512 by decide
  packet h := absurd (hpacket.symm.trans h) (by decide)
  room hwrite _ := by
    have hmedia : (accept ch i lba count isWrite dma multi).media = ch.media :=
      (ready_sameCursor ch i).media
    have hused' : (accept ch i lba count isWrite dma multi).used = 0 := hused
    have hcmd : (accept ch i lba count isWrite dma multi).writeCmd = some ⟨i, lba, count⟩ :=
      if_pos hwrite
    have hleft : (accept ch i lba count isWrite dma multi).left = count * 512 := rfl
    have hlba : (accept ch i lba count isWrite dma multi).lba = lba := rfl
    refine ⟨⟨rfl, by omega, fun k hlo hhi => ?_, fun f hf => ?_⟩, by omega⟩
    · refine ⟨rfl, by rw [hmedia]; exact hdisk, _, hcmd, rfl, ?_⟩
      unfold WriteCmd.covers
      dsimp only
      omega
    · rw [hmedia] at hf
      have := hfits i f hf hdisk
      omega

theorem transfer_ok {lba : Option Nat} :
    CommandOk ch (transfer ch i lba count isWrite dma multi) := by
  unfold transfer
  split
  · exact abort_ok hfits
  split
  · exact abort_ok hfits
  next lba hrange =>
  have hmedia : (accept ch i lba count isWrite dma multi).media = ch.media :=
    (ready_sameCursor ch i).media
  have hphase : DataPhase (accept ch i lba count isWrite dma multi) i :=
    accept_phase hfits hdisk hpacket hused (Nat.le_of_not_lt hrange)
  obtain ⟨hinv, hsame⟩ := IdeInv.startRoundOrFail
    (hfits.agree (S := fun _ _ => True) (.of_eq hmedia)) rfl hphase raiseIrqIde_sameCursor
  exact ⟨hinv, hsame.trans hmedia⟩

end

end

theorem verifyLoop_sameCursor (ch : IdeChannel) (i : Fin kIdeDrivesPerChannel) (lba n : Nat) :
    SameCursor ch (verifyLoop i lba n ch).1 := by
  induction n with
  | zero => exact ⟨⟨rfl, rfl, rfl, rfl, rfl, rfl⟩, rfl, rfl, rfl, rfl⟩
  | succ n ih =>
    rw [verifyLoop]
    split
    · exact ih.trans (fetchIf_sameCursor _ i true _ _).1
    · exact ih

theorem readVerify_ok (hfits : Fits ch) (hidle : ch.active = none) :
    CommandOk ch (readVerify ch i) := by
  unfold readVerify
  split
  · exact abort_ok hfits
  split
  · exact abort_ok hfits
  next lba _ hrange =>
  have hsame := verifyLoop_sameCursor ch i lba (commandCount ch)
  dsimp only
  split
  · have hset : ((verifyLoop i lba (commandCount ch) ch).1.setDrive i id).media =
        (verifyLoop i lba (commandCount ch) ch).1.media := media_of_update rfl rfl
    exact .of_idle hfits (((ready_sameCursor _ i).media.trans hset).trans hsame.media)
      (hsame.active.trans hidle)
  · exact .of_idle hfits ((media_abort ..).trans hsame.media) rfl

theorem startRound_ok (hfits : Fits ch) (hmedia : ch'.media = ch.media)
    (hactive : ch'.active = some i)
    (hmulti : ch'.multi = 0) (hrefill : ch'.refill = false) (hphase : DataPhase ch' i) :
    CommandOk ch (raiseIrqIde (startRound ch' i).1) := by
  have hok : (startRound ch' i).2 = true := by
    simp [startRound, hmulti, hrefill, fetchIf]
  have hinv :=
    IdeInv.startRound (hfits.agree (S := fun _ _ => True) (.of_eq hmedia)) hactive hphase hok
  obtain ⟨hsame, hround⟩ := raiseIrqIde_sameCursor (startRound ch' i).1
  exact ⟨hinv.sameCursor hsame hround,
    hsame.media.trans ((startRound_started ch' i).media.trans hmedia)⟩

variable {reply : List (BitVec 8)}

theorem replyBlock_phase (hpacket : ch.packet = false) :
    DataPhase (replyBlock ch i reply) i :=
  ⟨show 0 < 512 by decide, fun h => absurd (hpacket.symm.trans h) (by decide), fun h => nomatch h⟩

theorem replyBlock_media : (replyBlock ch i reply).media = ch.media :=
  media_of_update rfl rfl

structure Dispatched (ch : IdeChannel) : Prop where
  fits : Fits ch
  active : ch.active = none
  packet : ch.packet = false
  multi : ch.multi = 0
  used : ch.used = 0

theorem execAtapi_ok (h : Dispatched ch) : CommandOk ch (execAtapi ch i cmd) := by
  unfold execAtapi
  split
  · have hphase : DataPhase
        { replyBlock ch i buildIdentifyPacket with count := kAtapiReasonIo } i :=
      (replyBlock_phase h.packet).sameCursor ⟨⟨rfl, rfl, rfl, rfl, rfl, rfl⟩, rfl, rfl, rfl, rfl⟩
    exact startRound_ok h.fits replyBlock_media rfl h.multi rfl hphase
  split
  · exact startRound_ok h.fits (media_of_update rfl rfl) rfl h.multi rfl
      ⟨show 0 < 12 by decide, fun _ => ⟨rfl, h.multi⟩, fun _ h => nomatch h⟩
  · exact abort_ok h.fits

theorem execAta_ok (h : Dispatched ch) (hdisk : (ch.media i).atapi = false) :
    CommandOk ch (execAta ch i cmd) := by
  have htransfer : ∀ lba count isWrite dma multi,
      CommandOk ch (transfer ch i lba count isWrite dma multi) :=
    fun _ _ _ _ _ => transfer_ok h.fits hdisk h.packet h.used
  have hsucceed : ∀ f, (f (ch.drives i)).medium = (ch.drives i).medium →
      CommandOk ch (succeed ch i f) := fun _ hf => succeed_ok h.fits h.active hf
  unfold execAta
  dsimp only
  split
  · exact startRound_ok h.fits replyBlock_media rfl h.multi rfl (replyBlock_phase h.packet)
  iterate 8
    · exact htransfer ..
  iterate 2
    · split
      · exact abort_ok h.fits
      · exact htransfer ..
  · split
    · exact abort_ok h.fits
    · exact hsucceed _ rfl
  · exact readVerify_ok h.fits h.active
  · unfold initializeParams
    split
    · exact abort_ok h.fits
    · exact hsucceed _ rfl
  · split
    · exact hsucceed _ rfl
    · exact abort_ok h.fits
  · exact .of_idle h.fits ((ready_sameCursor _ i).media.trans (media_of_update rfl rfl)) h.active
  iterate 4
    · exact hsucceed _ rfl
  · exact .of_idle h.fits (media_of_update rfl rfl) h.active
  iterate 2
    · exact hsucceed _ rfl
  · exact abort_ok h.fits

theorem execCommand_ok (hfits : Fits ch) : CommandOk ch (execCommand ch cmd) := by
  have hdrop : Dispatched (dropCommand ch) := ⟨hfits, rfl, rfl, rfl, rfl⟩
  have hkeep : CommandOk ch (dropCommand ch) := .of_idle hfits rfl rfl
  unfold execCommand
  dsimp only
  split
  · exact hkeep
  split
  · exact hkeep
  split
  · exact ⟨(execAtapi_ok hdrop).inv, (execAtapi_ok hdrop).media⟩
  · next hdisk =>
    have hok : CommandOk (dropCommand ch) (execAta (dropCommand ch) ch.selected cmd) :=
      execAta_ok hdrop (by simpa [media, IdeDrive.medium] using hdisk)
    exact ⟨hok.inv, hok.media⟩

theorem presentSignature_sameCursor (ch : IdeChannel) :
    SameCursor ch (presentSignature ch) ∧ (presentSignature ch).round = ch.round := by
  unfold presentSignature
  split <;> exact ⟨⟨⟨rfl, rfl, rfl, rfl, rfl, rfl⟩, rfl, rfl, rfl, rfl⟩, rfl⟩

theorem resetChannel_ok (hfits : Fits ch) : CommandOk ch (resetChannel ch) :=
  .of_idle hfits (presentSignature_sameCursor _).1.media (presentSignature_sameCursor _).1.active

/-! ## Runs -/

theorem CommandOk.step (h : CommandOk ch ch') (hbus : OpenBus w.bus) : StepOk S ch (ch', w) :=
  ⟨h.inv, .of_eq h.media, hbus⟩

theorem cmdWrite_ok {val : BitVec 64} (h : IdeInv ch) (hbus : OpenBus w.bus)
    (hdir : backwards ch (.cmdWrite reg size val) = false) :
    (cmdWrite ch reg size val w).Ends (StepOk (Writable ch) ch) := by
  unfold cmdWrite
  split
  · exact writeData_ok h hbus hdir
  iterate 5
    · exact h.sameStep hbus ⟨⟨rfl, rfl, rfl, rfl, rfl, rfl⟩, rfl, rfl, rfl, rfl⟩ rfl
  · have hselect : SameCursor ch (selectBay ch (val.setWidth 8)) :=
      ⟨⟨rfl, rfl, rfl, rfl, rfl, rfl⟩, rfl, rfl, rfl, rfl⟩
    exact h.sameStep hbus (hselect.trans (presentSignature_sameCursor _).1)
      (presentSignature_sameCursor _).2
  · exact (execCommand_ok h.fits).step hbus

theorem accessStep_ok {a : IdeAccess} (h : IdeInv ch) (hbus : OpenBus w.bus)
    (hdir : backwards ch a = false) : (accessStep ch w a).Ends (StepOk (Writable ch) ch) := by
  cases a with
  | cmdRead reg size =>
    have hread : (cmdRead ch reg size w).Ends fun r => StepOk (Writable ch) ch r.2 := by
      unfold cmdRead
      split
      · exact readData_ok h hbus
      all_goals exact h.sameStep hbus ⟨⟨rfl, rfl, rfl, rfl, rfl, rfl⟩, rfl, rfl, rfl, rfl⟩ rfl
    exact hread.bind fun r hr => hr
  | cmdWrite reg size val => exact cmdWrite_ok h hbus hdir
  | ctrlRead => exact h.sameStep hbus ⟨⟨rfl, rfl, rfl, rfl, rfl, rfl⟩, rfl, rfl, rfl, rfl⟩ rfl
  | ctrlWrite v =>
    unfold accessStep ctrlWrite
    dsimp only
    split
    · have hok : CommandOk { ch with devctrl := v } (resetChannel { ch with devctrl := v }) :=
        resetChannel_ok h.fits
      exact (hok.step hbus).of_media rfl
    · exact h.sameStep hbus ⟨⟨rfl, rfl, rfl, rfl, rfl, rfl⟩, rfl, rfl, rfl, rfl⟩ rfl
  | bmdmaRead reg => exact h.sameStep hbus ⟨⟨rfl, rfl, rfl, rfl, rfl, rfl⟩, rfl, rfl, rfl, rfl⟩ rfl
  | bmdmaWrite reg v => exact bmdmaWrite_ok h hbus hdir
  | reset =>
    exact .of_idle h.fits hbus (.of_eq (resetChannel_ok h.fits).media)
      (presentSignature_sameCursor _).1.active

/-- The boards a run without a backward engine start can reach: from the media attached at
power-on, by any accesses to the two channels and any change of the rest of the machine. -/
inductive IdeRun : IdeBoard D → Prop
  | start (bays : Fin 2 → Fin kIdeDrivesPerChannel → IdeDrive) (w : World D)
      (hbays : ∀ c i, bays c i = emptyBay ∨ ∃ f cd, ideAttach f cd = some (bays c i))
      (hmap : X86Map w.bus) : IdeRun ⟨fun c => ideInit (bays c), w⟩
  | access {b b' : IdeBoard D} (c : Fin 2) (a : IdeAccess) (hrun : IdeRun b)
      (hdir : backwards (b.ch c) a = false) (hstep : ideStep b c a = .done b') : IdeRun b'
  | guest {b : IdeBoard D} (w : World D) (hrun : IdeRun b) (hmap : X86Map w.bus) :
      IdeRun { b with world := w }

theorem ideAttach_fits {f : HostFile} {cd : Bool} {dr : IdeDrive} (h : ideAttach f cd = some dr)
    (hdisk : dr.atapi = false) {g : HostFile} (hg : dr.image = some g) :
    dr.blocks * 512 ≤ g.size := by
  cases cd
  · simp only [ideAttach, Option.ite_none_left_eq_some, Option.some.injEq] at h
    obtain ⟨-, rfl⟩ := h
    cases hg
    exact Nat.div_mul_le_self _ _
  · simp only [ideAttach, Option.ite_none_left_eq_some, Option.some.injEq] at h
    obtain ⟨-, rfl⟩ := h
    cases hdisk

theorem ideInit_inv {drives : Fin kIdeDrivesPerChannel → IdeDrive}
    (h : ∀ i, drives i = emptyBay ∨ ∃ f cd, ideAttach f cd = some (drives i)) :
    IdeInv (ideInit drives) := by
  have hfits : Fits (ideInit drives) := by
    have hmedia : (ideInit drives).media = fun i => (drives i).medium :=
      (presentSignature_sameCursor _).1.media
    intro i f hf hdisk
    simp only [hmedia] at hf hdisk ⊢
    rcases h i with hempty | ⟨g, cd, hattach⟩
    · rw [hempty] at hf
      cases hf
    · exact ideAttach_fits hattach hdisk hf
  exact .of_idle hfits (presentSignature_sameCursor _).1.active

theorem IdeRun.inv {b : IdeBoard D} (h : IdeRun b) :
    (∀ c, IdeInv (b.ch c)) ∧ OpenBus b.world.bus := by
  induction h with
  | start bays w hbays hmap => exact ⟨fun c => ideInit_inv (hbays c), hmap.openBus⟩
  | @access b b' c a _ hdir hstep ih =>
    have hok := accessStep_ok (ih.1 c) ih.2 hdir
    unfold ideStep at hstep
    cases hdone : accessStep (b.ch c) b.world a with
    | done r =>
      rw [hdone] at hok hstep
      cases hstep
      refine ⟨fun c' => ?_, hok.bus⟩
      by_cases hc : c' = c
      · subst hc
        simpa using hok.inv
      · simpa [hc] using ih.1 c'
    | fatal => rw [hdone] at hok; exact hok.elim
    | endless => rw [hdone] at hok; exact hok.elim
  | guest w _ hmap ih => exact ⟨ih.1, hmap.openBus⟩

/-- In every run without a backward engine start, every access comes to its end, and a byte of an
image changes only on the channel of the access, on a disk, and inside the WRITE command that disk
is executing. -/
theorem ide_writes_inside {b : IdeBoard D} (hrun : IdeRun b) (c : Fin 2) (a : IdeAccess)
    (hdir : backwards (b.ch c) a = false) :
    ∃ b', ideStep b c a = .done b' ∧ ∀ c' i,
      ImageAgree (fun k => c' = c ∧ Writable (b.ch c) i k) ((b.ch c').drives i).image
        ((b'.ch c').drives i).image := by
  have hok := accessStep_ok (hrun.inv.1 c) hrun.inv.2 hdir
  cases hdone : accessStep (b.ch c) b.world a with
  | done r =>
    rw [hdone] at hok
    refine ⟨⟨Function.update b.ch c r.1, r.2⟩, by rw [ideStep, hdone]; rfl, fun c' i => ?_⟩
    by_cases hc : c' = c
    · subst hc
      simp only [Function.update_self, true_and]
      exact hok.media.image i
    · simp [hc, ImageAgree.refl]
  | fatal => rw [hdone] at hok; exact hok.elim
  | endless => rw [hdone] at hok; exact hok.elim

/-! ## Whole runs -/

variable {b b' : IdeBoard D}

/-- An event of such a run: an access that ends, or anything the rest does. -/
inductive IdeNext : IdeBoard D → IdeBoard D → Prop
  | access {b b' : IdeBoard D} (c : Fin 2) (a : IdeAccess) (hdir : backwards (b.ch c) a = false)
      (hstep : ideStep b c a = .done b') : IdeNext b b'
  | guest (b : IdeBoard D) (w : World D) (hmap : X86Map w.bus) : IdeNext b { b with world := w }

theorem IdeNext.run (h : IdeNext b b') (hrun : IdeRun b) : IdeRun b' := by
  cases h with
  | access c a hdir hstep => exact .access c a hrun hdir hstep
  | guest w hmap => exact .guest w hrun hmap

theorem ImageAgree.mono {S T : Nat → Prop} (hST : ∀ k, S k → T k) {f g : Option HostFile}
    (h : ImageAgree S f g) : ImageAgree T f g := by
  cases f <;> cases g <;> try exact h
  exact ⟨h.1, fun k hk hT => h.2 k hk (mt (hST k) hT)⟩

theorem IdeNext.image (h : IdeNext b b') (hrun : IdeRun b) (c : Fin 2)
    (i : Fin kIdeDrivesPerChannel) :
    ImageAgree (Writable (b.ch c) i) ((b.ch c).drives i).image ((b'.ch c).drives i).image := by
  cases h with
  | guest w hmap => exact .refl _ _
  | access c' a hdir hstep =>
    have hok := accessStep_ok (hrun.inv.1 c') hrun.inv.2 hdir
    unfold ideStep at hstep
    cases hdone : accessStep (b.ch c') b.world a with
    | done r =>
      rw [hdone] at hok hstep
      cases hstep
      by_cases hc : c = c'
      · subst hc
        simp only [Function.update_self]
        exact hok.media.image i
      · simp [hc, ImageAgree.refl]
    | fatal => rw [hdone] at hok; exact hok.elim
    | endless => rw [hdone] at hok; exact hok.elim

/-- In every run in which the WRITE commands a drive executes cover bytes of `S` only, all other
bytes of its image stay, and so does its size. -/
theorem image_kept_outside_writes {c : Fin 2} {i : Fin kIdeDrivesPerChannel} {S : Nat → Prop}
    (hrun : IdeRun b) (hpath : ReflTransGen
      (fun y z : IdeBoard D => IdeNext y z ∧ ∀ k, Writable (y.ch c) i k → S k) b b') :
    ImageAgree S ((b.ch c).drives i).image ((b'.ch c).drives i).image := by
  refine (?_ : IdeRun b' ∧ _).2
  induction hpath with
  | refl => exact ⟨hrun, .refl _ _⟩
  | tail _ hnext ih =>
    exact ⟨hnext.1.run ih.1, ih.2.trans (.mono hnext.2 (hnext.1.image ih.1 c i))⟩

end

/-- One disk of `n` empty sectors on each channel, and memory whose byte 7 is `0x80`: a descriptor
at 0 that is the last of its table and names 64 KiB from 0 on. -/
def diskBoard (n : Nat) : IdeBoard Unit where
  ch _ := ideInit fun i =>
    if i.val = 0 then (ideAttach ⟨n * 512, fun _ => 0⟩ false).getD emptyBay else emptyBay
  world := ramBoard 0x100000 false x86MemMap_oneMeg fun a => if a = 7 then 0x80 else 0

theorem diskBoard_run {n : Nat} : IdeRun (diskBoard n) := by
  refine .start (fun _ i => if i.val = 0 then (ideAttach ⟨n * 512, fun _ => 0⟩ false).getD emptyBay
    else emptyBay) _ (fun c i => ?_) (x86Map_ramBoard ..)
  split
  · cases hattach : ideAttach ⟨n * 512, fun _ => 0⟩ false with
    | none => exact .inl rfl
    | some dr => exact .inr ⟨_, _, hattach⟩
  · exact .inl rfl

def imageByte (b : IdeBoard Unit) (k : Nat) : Option (BitVec 8) :=
  ((b.ch 0).drives ⟨0, kIdeDrivesPerChannel_pos⟩).image.map fun f => f.data k

/-- A WRITE DMA of sector 1: its registers, the command, and the start of the engine. -/
def writeSector : Nat → IdeAccess
  | 0 => .cmdWrite 2 1 1
  | 1 => .cmdWrite 3 1 1
  | 2 => .cmdWrite 6 1 0xe0
  | 3 => .cmdWrite 7 1 0xca
  | _ => .bmdmaWrite 0 0x01

/-- The first accesses of it on a disk of two sectors. -/
def sectorWritten : Nat → IdeBoard Unit
  | 0 => diskBoard 2
  | k + 1 => match ideStep (sectorWritten k) 0 (writeSector k) with
    | .done b => b
    | _ => sectorWritten k

theorem sectorWritten_forward :
    ∀ k < 5, backwards ((sectorWritten k).ch 0) (writeSector k) = false := by
  decide +kernel

theorem sectorWritten_step {k : Nat} (hrun : IdeRun (sectorWritten k)) (hk : k < 5) :
    ideStep (sectorWritten k) 0 (writeSector k) = .done (sectorWritten (k + 1)) := by
  have hok := accessStep_ok (hrun.inv.1 0) hrun.inv.2 (sectorWritten_forward k hk)
  cases hdone : accessStep ((sectorWritten k).ch 0) (sectorWritten k).world (writeSector k) with
  | done r => simp only [sectorWritten, ideStep, hdone, Engine.bind]
  | fatal => rw [hdone] at hok; exact hok.elim
  | endless => rw [hdone] at hok; exact hok.elim

theorem sectorWritten_run : ∀ k ≤ 5, IdeRun (sectorWritten k)
  | 0, _ => diskBoard_run
  | k + 1, hk =>
    have hrun := sectorWritten_run k (by omega)
    .access 0 (writeSector k) hrun (sectorWritten_forward k hk) (sectorWritten_step hrun hk)

/-- The engine stores sector 1 of the disk. -/
theorem ide_writes_inside_sector :
    imageByte (sectorWritten 4) 519 = some 0 ∧ imageByte (sectorWritten 5) 519 = some 0x80 ∧
      ∃ b', ideStep (sectorWritten 4) 0 (.bmdmaWrite 0 0x01) = .done b' ∧ b' = sectorWritten 5 ∧
        ∀ c' i,
        ImageAgree (fun k => c' = 0 ∧ Writable ((sectorWritten 4).ch 0) i k)
          (((sectorWritten 4).ch c').drives i).image ((b'.ch c').drives i).image := by
  have hrun := sectorWritten_run 4 (by decide)
  obtain ⟨b', hstep, hagree⟩ :=
    ide_writes_inside hrun 0 (.bmdmaWrite 0 0x01) (sectorWritten_forward 4 (by decide))
  have hb' : b' = sectorWritten 5 :=
    (Engine.done.inj ((sectorWritten_step hrun (by decide)).symm.trans hstep)).symm
  exact ⟨by decide +kernel, by decide +kernel, b', hstep, hb', hagree⟩

def identifiedBoard : IdeBoard Unit :=
  { diskBoard 1 with
    ch := Function.update (diskBoard 1).ch 0 (execCommand ((diskBoard 1).ch 0) 0xec) }

/-- During IDENTIFY DEVICE the engine, started with its direction bit clear, takes 512 bytes from
memory and writes them over the first sector. -/
theorem identify_overwrites_sector :
    IdeRun identifiedBoard ∧ (identifiedBoard.ch 0).writeCmd = none ∧
      imageByte identifiedBoard 7 = some 0 ∧
      (ideStep identifiedBoard 0 (.bmdmaWrite 0 0x01)).Ends fun b => imageByte b 7 = some 0x80 := by
  refine ⟨.access 0 (.cmdWrite 7 1 0xec) diskBoard_run (by decide +kernel) rfl, ?_, ?_, ?_⟩
  · decide +kernel
  · decide +kernel
  · decide +kernel

theorem writeCmd_sectorWritten : ∀ k < 5, ((sectorWritten k).ch 0).writeCmd =
    if k = 4 then some ⟨⟨0, kIdeDrivesPerChannel_pos⟩, 1, 1⟩ else none := by
  decide +kernel

/-- The WRITE DMA changes byte 519 and, being for sector 1, no byte below 512. -/
theorem image_kept_firstSector : imageByte (sectorWritten 5) 519 ≠ imageByte (sectorWritten 0) 519 ∧
    ImageAgree (fun k => 512 ≤ k)
      (((sectorWritten 0).ch 0).drives ⟨0, kIdeDrivesPerChannel_pos⟩).image
      (((sectorWritten 5).ch 0).drives ⟨0, kIdeDrivesPerChannel_pos⟩).image := by
  have hnext : ∀ k < 5, IdeNext (sectorWritten k) (sectorWritten (k + 1)) ∧
      ∀ j, Writable ((sectorWritten k).ch 0) ⟨0, kIdeDrivesPerChannel_pos⟩ j → 512 ≤ j := by
    intro k hk
    refine ⟨.access 0 (writeSector k) (sectorWritten_forward k hk)
      (sectorWritten_step (sectorWritten_run k hk.le) hk), fun j hj => ?_⟩
    obtain ⟨-, -, cmd, hcmd, -, hlo, -⟩ := hj
    rw [writeCmd_sectorWritten k hk] at hcmd
    split at hcmd
    · cases hcmd
      exact hlo
    · cases hcmd
  have hpath : ∀ k ≤ 5, ReflTransGen (fun y z => IdeNext y z ∧
      ∀ j, Writable (y.ch 0) ⟨0, kIdeDrivesPerChannel_pos⟩ j → 512 ≤ j)
      (sectorWritten 0) (sectorWritten k) := by
    intro k hk
    induction k with
    | zero => exact .refl
    | succ k ih => exact (ih (by omega)).tail (hnext k hk)
  refine ⟨by decide +kernel, ?_⟩
  have hfive := hpath 5 le_rfl
  -- the board is named so that it is not computed here
  generalize sectorWritten 5 = b at hfive ⊢
  exact image_kept_outside_writes diskBoard_run hfive

end Cemu.Storage
