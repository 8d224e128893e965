import Cemu.Storage.IdeWrites

/-!
# The interrupt request of an IDE channel

Every way through the channel leaves the request as it is or raises it, with the line following
nIEN; only the reads of the two status registers, resets and nIEN itself do otherwise.
`Announces` says so of one function after another, `Raises` where the request is up at the end.
Both also follow the sense key and the tray of the executing bay, which decide the unit attention
of a packet device.
-/

namespace Cemu.Storage

variable {D : Type} {ch ch' ch'' : IdeChannel} {i : Fin kIdeDrivesPerChannel}

/-- The request is left alone or raised, on the line as far as nIEN lets it. -/
structure Keeps (ch ch' : IdeChannel) : Prop where
  devctrl : ch'.devctrl = ch.devctrl
  request : ch'.irqPending = ch.irqPending ∧ ch'.irqLine = ch.irqLine ∨
    ch'.irqPending = true ∧ ch'.irqLine = !ch.devctrl.getLsbD 1

structure Announces (i : Fin kIdeDrivesPerChannel) (ch ch' : IdeChannel) : Prop
    extends Keeps ch ch' where
  sense : (ch'.drives i).senseKey ∈ [(ch.drives i).senseKey, 2, 5]
  tray : (ch'.drives i).trayOpen = (ch.drives i).trayOpen

structure Raises (i : Fin kIdeDrivesPerChannel) (ch ch' : IdeChannel) : Prop
    extends Announces i ch ch' where
  pending : ch'.irqPending = true

/-- What an update of any other field leaves alone. -/
def irqView (i : Fin kIdeDrivesPerChannel) (ch : IdeChannel) :=
  (ch.devctrl, ch.irqPending, ch.irqLine, (ch.drives i).senseKey, (ch.drives i).trayOpen)

namespace Announces

theorem refl : Announces i ch ch := ⟨⟨rfl, .inl ⟨rfl, rfl⟩⟩, .head _, rfl⟩

theorem trans (h : Announces i ch ch') (h' : Announces i ch' ch'') : Announces i ch ch'' where
  devctrl := h'.devctrl.trans h.devctrl
  request := by
    rcases h'.request with ⟨hp, hl⟩ | ⟨hp, hl⟩
    · rw [hp, hl]
      exact h.request
    · rw [hp, hl, h.devctrl]
      exact .inr ⟨rfl, rfl⟩
  sense := by
    rcases List.mem_cons.mp h'.sense with hsame | hother
    · rw [hsame]
      exact h.sense
    · exact List.mem_cons_of_mem _ hother
  tray := h'.tray.trans h.tray

theorem plain (h : Announces i ch ch') (hsame : irqView i ch'' = irqView i ch') :
    Announces i ch ch'' := by
  simp only [irqView, Prod.mk.injEq] at hsame
  obtain ⟨hd, hp, hl, hs, ht⟩ := hsame
  exact ⟨⟨hd ▸ h.devctrl, by rw [hp, hl]; exact h.request⟩, hs ▸ h.sense, ht ▸ h.tray⟩

theorem after (h : Announces i ch' ch'') (hsame : irqView i ch' = irqView i ch) :
    Announces i ch ch'' :=
  (refl.plain hsame).trans h

theorem setDrive {f : IdeDrive → IdeDrive}
    (hkey : (f (ch.drives i)).senseKey = (ch.drives i).senseKey)
    (htray : (f (ch.drives i)).trayOpen = (ch.drives i).trayOpen) :
    Announces i ch (ch.setDrive i f) :=
  plain refl (by simp [irqView, IdeChannel.setDrive, hkey, htray])

theorem raises (h : Announces i ch ch') (h' : Raises i ch' ch'') : Raises i ch ch'' :=
  ⟨h.trans h'.toAnnounces, h'.pending⟩

end Announces

namespace Raises

theorem raise (h : Announces i ch ch') : Raises i ch (raiseIrqIde ch') :=
  ⟨⟨⟨h.devctrl, .inr ⟨rfl, by rw [← h.devctrl]; rfl⟩⟩, h.sense, h.tray⟩, rfl⟩

theorem after (h : Raises i ch' ch'') (hsame : irqView i ch' = irqView i ch) : Raises i ch ch'' :=
  (Announces.refl.plain hsame).raises h

theorem abort : Raises i ch (abort ch i) :=
  .raise (.plain
    (.setDrive (f := fun dr => { dr with error := kErrorAbrt, status := kStatusAborted })
    rfl rfl) rfl)

theorem atapiError {key : BitVec 8} (hkey : key = 2 ∨ key = 5) (asc : BitVec 8) :
    Raises i ch (atapiError ch i key asc) := by
  have hmem : key = (ch.drives i).senseKey ∨ key = 2 ∨ key = 5 := .inr hkey
  refine ⟨⟨⟨rfl, .inr ⟨rfl, rfl⟩⟩, ?_, ?_⟩, rfl⟩
  · simpa [Storage.atapiError, raiseIrqIde, updateIrq, idle, IdeChannel.setDrive] using hmem
  · simp [Storage.atapiError, raiseIrqIde, updateIrq, idle, IdeChannel.setDrive]

theorem cmdOk : Raises i ch (cmdOk ch i) :=
  .raise (.plain
    (.setDrive (f := fun dr => { dr with error := 0, status := kStatusReady }) rfl rfl) rfl)

theorem checkCondition : Raises i ch (checkCondition ch i) :=
  .raise (.plain (.setDrive
    (f := fun dr => { dr with error := kErrorMc ||| 0x60, status := kStatusErr }) rfl rfl) rfl)

theorem mediumReadFailed : Raises i ch (mediumReadFailed ch i) := by
  unfold Storage.mediumReadFailed
  split
  · exact atapiError (.inr rfl) _
  · exact abort

theorem endCommand : Raises i ch (endCommand ch i) := by
  have hset : ∀ ch : IdeChannel, Announces i ch
      (ch.setDrive i fun dr => { dr with status := dr.status &&& ~~~kStatusDrq }) :=
    fun _ => .setDrive rfl rfl
  unfold Storage.endCommand
  split
  · exact .raise (.plain ((hset _).after rfl) rfl)
  · exact .raise (.plain (hset _) rfl)

end Raises

namespace Announces

theorem fetchIf (needed : Bool) (off : Int) (n : Nat) :
    Announces i ch (fetchIf ch i needed off n).1 := by
  unfold Storage.fetchIf readMedium
  split
  · split <;> exact plain refl rfl
  · exact refl

theorem storeIf (needed : Bool) (off : Int) (n : Nat) :
    Announces i ch (storeIf ch i needed off n).1 := by
  unfold Storage.storeIf writeMedium
  split
  · split
    · exact plain refl (by simp [irqView, IdeChannel.setDrive])
    · exact refl
  · exact refl

theorem startRound : Announces i ch (startRound ch i).1 := by
  have hdrq : ∀ ch : IdeChannel, Announces i ch (raiseDrq ch i) := by
    intro ch
    unfold raiseDrq
    split
    · exact refl
    · exact setDrive rfl rfl
  unfold Storage.startRound
  dsimp only
  split <;> split
  · exact ((fetchIf ..).trans (hdrq _)).after rfl
  · exact (fetchIf ..).after rfl
  · exact (fetchIf ..).trans ((hdrq _).after rfl)
  · exact fetchIf ..

end Announces

theorem startRoundOrFail_raises {f : IdeChannel → IdeChannel} (hf : ∀ ch, Raises i ch (f ch)) :
    Raises i ch (startRoundOrFail ch i f) := by
  unfold startRoundOrFail
  dsimp only
  split
  · exact Announces.startRound.raises (hf _)
  · exact Announces.startRound.raises .mediumReadFailed

/-! ### The engine -/

namespace Engine

variable {α β : Type}

/-- `P` holds of what the engine leaves, if it comes to its end. -/
def Leaves (P : α → Prop) : Engine α → Prop
  | done a => P a
  | _ => True

theorem Leaves.mono {P Q : α → Prop} {m : Engine α} (h : m.Leaves P) (hPQ : ∀ a, P a → Q a) :
    m.Leaves Q := by
  cases m with
  | done a => exact hPQ a h
  | fatal => trivial
  | endless => trivial

theorem Leaves.bind {P : α → Prop} {Q : β → Prop} {m : Engine α} {f : α → Engine β}
    (h : m.Leaves P) (hf : ∀ a, P a → (f a).Leaves Q) : (m.bind f).Leaves Q := by
  cases m with
  | done a => exact hf a h
  | fatal => trivial
  | endless => trivial

theorem leaves_true (m : Engine α) : m.Leaves fun _ => True := by
  cases m <;> trivial

end Engine

open Engine

variable {w : World D}

theorem prdPiece_announces (toMem : Bool) (addr off : BitVec 32) (n : Int) :
    (prdPiece toMem i addr off n ch w).Leaves fun r => Announces i ch r.1 := by
  have hrefill : Announces i ch (prdRefill toMem ch i).1 := .fetchIf ..
  unfold prdPiece
  dsimp only
  split
  · exact hrefill
  refine (leaves_true _).bind fun m _ => ?_
  have hmoved : Announces i ch ((prdRefill toMem ch i).1.advance m.1 n) := hrefill.plain rfl
  split
  · refine hmoved.trans ?_
    unfold blockDone
    dsimp only
    split
    · exact (Announces.storeIf ..).plain rfl
    · exact .storeIf ..
  · exact hmoved

theorem prdLoop_announces (toMem : Bool) (addr count off : BitVec 32) (fuel : Nat) :
    (prdLoop toMem i addr count fuel off ch w).Leaves fun r => Announces i ch r.1 := by
  induction fuel generalizing off ch w with
  | zero => trivial
  | succ fuel ih =>
    rw [prdLoop]
    split
    · exact .refl
    · refine (prdPiece_announces toMem addr off _).bind fun r hr => ?_
      split
      · exact hr
      · exact (ih _).mono fun _ h => hr.trans h

theorem tableLoop_announces (toMem : Bool) (prd : BitVec 32) (fuel : Nat) :
    (tableLoop toMem i fuel prd ch w).Leaves fun r => Announces i ch r.1 := by
  induction fuel generalizing prd ch w with
  | zero => trivial
  | succ fuel ih =>
    rw [tableLoop]
    split
    · exact .refl
    refine (leaves_true _).bind fun a _ => (leaves_true _).bind fun c _ => ?_
    refine (prdLoop_announces toMem _ _ _ _).bind fun r hr => ?_
    split
    · exact hr
    · exact (ih _).mono fun _ h => hr.trans h

section

variable (ch : IdeChannel)

theorem bmdmaRun_raises (w : World D) : (bmdmaRun ch i w).Leaves fun r => Raises i ch r.1 := by
  refine (tableLoop_announces _ _ _).bind fun r hr => ?_
  refine .after (hr.raises ?_) rfl
  unfold bmdmaEnd
  dsimp only
  split
  · exact Raises.mediumReadFailed.after rfl
  split
  · exact Raises.abort.after rfl
  · exact Raises.endCommand.after rfl

/-! ### Packet commands -/

theorem startDataIn_raises (w : World D) (lba bytes : Int) (refill : Bool) :
    (startDataIn ch i w lba bytes refill).Leaves fun r => Raises i ch r.1 := by
  have hround : ∀ ch, Raises i ch (startRoundOrFail ch i fun ch =>
      raiseIrqIde { ch with count := kAtapiReasonIo }) :=
    fun ch => startRoundOrFail_raises fun ch => .raise (.plain .refl rfl)
  unfold startDataIn
  dsimp only
  split
  · exact Raises.cmdOk.after rfl
  split
  · exact (bmdmaRun_raises _ w).mono fun r hr => hr.after rfl
  · exact (hround _).after rfl

theorem execPacket_raises (i : Fin kIdeDrivesPerChannel) (w : World D) (hload : cdb ch 0 ≠ 0x1b) :
    (execPacket ch i w).Leaves fun r => Raises i ch r.1 := by
  have hcourse := execPacket_course ch i w
  generalize execPacket ch i w = r at hcourse
  cases hcourse with
  | refused buf asc hkey => exact (Raises.atapiError hkey asc).after rfl
  | attention => exact .checkCondition
  | ok => exact .cmdOk
  | tray hop => exact absurd hop hload
  | lock b => exact (Announces.setDrive rfl rfl).raises .cmdOk
  | reply bytes maxLen hlen => exact (startDataIn_raises _ w _ _ _).mono fun _ hr => hr.after rfl
  | read hreads => exact startDataIn_raises ..

/-! ### Commands -/

theorem ready_announces : Announces i ch (ready ch i) := .setDrive rfl rfl

theorem succeed_announces {f : IdeDrive → IdeDrive} (hkey : ∀ dr, (f dr).senseKey = dr.senseKey)
    (htray : ∀ dr, (f dr).trayOpen = dr.trayOpen) : Announces i ch (succeed ch i f) :=
  (Raises.raise ((Announces.setDrive (hkey _) (htray _)).trans (ready_announces _))).toAnnounces

theorem replyBlock_announces (reply : List (BitVec 8)) : Announces i ch (replyBlock ch i reply) :=
  .plain (.after (ready_announces { ch with buf := putBuf ch.buf 0 reply }) rfl) rfl

theorem transfer_announces (lba : Option Nat) (count : Nat) (isWrite dma : Bool) (multi : Nat) :
    Announces i ch (transfer ch i lba count isWrite dma multi) := by
  unfold transfer
  split
  · exact Raises.abort.toAnnounces
  split
  · exact Raises.abort.toAnnounces
  · have hround : ∀ ch, Raises i ch (startRoundOrFail ch i raiseIrqIde) :=
      fun _ => startRoundOrFail_raises fun _ => .raise .refl
    refine (ready_announces ch).trans (Raises.after (hround _) ?_).toAnnounces
    rfl

theorem verifyLoop_announces (lba n : Nat) : Announces i ch (verifyLoop i lba n ch).1 := by
  induction n with
  | zero => exact .refl
  | succ n ih =>
    rw [verifyLoop]
    split
    · exact ih.trans (.fetchIf true _ _)
    · exact ih

theorem execAta_announces (cmd : BitVec 8) : Announces i ch (execAta ch i cmd) := by
  unfold execAta
  dsimp only
  split
  · exact (Raises.raise ((replyBlock_announces ..).trans .startRound)).toAnnounces
  iterate 8
    · exact transfer_announces ..
  iterate 2
    · split
      · exact Raises.abort.toAnnounces
      · exact transfer_announces ..
  · split
    · exact Raises.abort.toAnnounces
    · exact succeed_announces _ (fun _ => rfl) fun _ => rfl
  · unfold readVerify
    split
    · exact Raises.abort.toAnnounces
    split
    · exact Raises.abort.toAnnounces
    dsimp only
    split
    · exact (verifyLoop_announces ..).trans (succeed_announces _ (fun _ => rfl) fun _ => rfl)
    · exact (verifyLoop_announces ..).trans Raises.abort.toAnnounces
  · unfold initializeParams
    split
    · exact Raises.abort.toAnnounces
    · exact succeed_announces _ (fun _ => rfl) fun _ => rfl
  · split
    · exact succeed_announces _ (fun _ => rfl) fun _ => rfl
    · exact Raises.abort.toAnnounces
  · exact (succeed_announces _ (fun _ => rfl) fun _ => rfl).after rfl
  iterate 4
    · exact succeed_announces _ (fun _ => rfl) fun _ => rfl
  · exact .setDrive rfl rfl
  iterate 2
    · exact succeed_announces _ (fun _ => rfl) fun _ => rfl
  · exact Raises.abort.toAnnounces

theorem execCommand_announces (cmd : BitVec 8) : Announces ch.selected ch (execCommand ch cmd) := by
  refine Announces.after (?_ : Announces ch.selected (dropCommand ch) _) rfl
  unfold execCommand
  dsimp only
  split
  · exact .refl
  split
  · exact .refl
  split
  · unfold execAtapi
    split
    · refine (Raises.raise (Announces.trans ?_ .startRound)).toAnnounces
      exact (replyBlock_announces ..).plain rfl
    split
    · refine (Raises.raise (Announces.trans ?_ .startRound)).toAnnounces
      exact (ready_announces _).plain rfl
    · exact Raises.abort.toAnnounces
  · exact execAta_announces ..

/-! ### Accesses -/

theorem execPacket_keeps (i : Fin kIdeDrivesPerChannel) (w : World D) :
    (execPacket ch i w).Leaves fun r => Keeps ch r.1 ∧ r.1.irqPending = true := by
  by_cases hload : cdb ch 0 = 0x1b
  · unfold execPacket
    dsimp only
    split
    · exact ⟨⟨rfl, .inr ⟨rfl, rfl⟩⟩, rfl⟩
    split
    · exact ⟨⟨rfl, .inr ⟨rfl, rfl⟩⟩, rfl⟩
    rw [hload]
    show Keeps ch (startStopUnit ch i) ∧ _
    unfold startStopUnit
    dsimp only
    split
    · exact ⟨⟨rfl, .inr ⟨rfl, rfl⟩⟩, rfl⟩
    · split <;> exact ⟨⟨rfl, .inr ⟨rfl, rfl⟩⟩, rfl⟩
  · exact (execPacket_raises ch i w hload).mono fun _ h => ⟨h.toKeeps, h.pending⟩

end

/-- What becomes of a drained round: the command ends, or a new round is up. A MULTIPLE block and
every round of a packet device are announced; another round of a disk is not. -/
structure RoundOver (i : Fin kIdeDrivesPerChannel) (announced : Prop) (ch ch' : IdeChannel) : Prop
    extends Keeps ch ch' where
  raised : announced → ch'.irqPending = true
  silent : ¬ announced → ch'.active = some i → ch'.irqPending = ch.irqPending
  ended : ch'.active = none → ch'.irqPending = true

theorem Raises.over {p : Prop} (h : Raises i ch ch') (hidle : p ∨ ch'.active = none) :
    RoundOver i p ch ch' :=
  ⟨h.toKeeps, fun _ => h.pending, fun hp hactive =>
    absurd (hactive.symm.trans (hidle.resolve_left hp)) (by simp), fun _ => h.pending⟩

theorem drained_over {p : Prop} {r : IdeChannel × Bool} {next : IdeChannel}
    {f : IdeChannel → IdeChannel} (hr : Announces i ch r.1) (hnext : Announces i ch next)
    (hf : RoundOver i p ch (startRoundOrFail next i f)) :
    RoundOver i p ch (if !r.2 then abort r.1 i
      else if 0 < r.1.left then startRoundOrFail next i f else endCommand next i) := by
  split
  · exact (hr.raises .abort).over (.inr rfl)
  split
  · exact hf
  · exact (hnext.raises .endCommand).over (.inr rfl)

theorem multiDrained_over : RoundOver i True ch (multiDrained ch i) := by
  have hnext : Announces i ch (nextMulti (storeIf ch i ch.isWrite (ch.lba * kAtaBlockSize)
      ch.used.toNat).1) := (Announces.storeIf ..).plain rfl
  exact drained_over (.storeIf ..) hnext
    ((hnext.raises (startRoundOrFail_raises fun _ => .raise .refl)).over (.inl trivial))

theorem startRound_silent (ch : IdeChannel) : (startRound ch i).1.irqPending = ch.irqPending ∧
    ((startRound ch i).1.drives i).atapi = (ch.drives i).atapi := by
  have hatapi := congrFun (startRound_started ch i).media i
  refine ⟨?_, congrArg IdeMedium.atapi hatapi⟩
  unfold startRound fetchIf readMedium raiseDrq
  dsimp only
  repeat' split
  all_goals rfl

theorem startRoundOrFail_over {next : IdeChannel} (hnext : Announces i ch next)
    (hactive : next.active = some i) (hsame : next.irqPending = ch.irqPending)
    (hkind : (next.drives i).atapi = (ch.drives i).atapi) :
    RoundOver i ((ch.drives i).atapi = true) ch (startRoundOrFail next i fun ch =>
      if (ch.drives i).atapi then raiseIrqIde ch else ch) := by
  obtain ⟨hpending, hatapi⟩ := startRound_silent (i := i) next
  have hround : Announces i ch (startRound next i).1 := hnext.trans .startRound
  have hstill := (startRound_started next i).cmd.active.trans hactive
  rw [hkind] at hatapi
  unfold startRoundOrFail
  dsimp only
  split
  · split
    · next h => exact (Raises.raise hround).over (.inl (hatapi ▸ h))
    · next h =>
      exact ⟨hround.toKeeps, fun h' => absurd (hatapi.trans h') h, fun _ _ => hpending.trans hsame,
        fun hidle => absurd (hstill.symm.trans hidle) (by simp)⟩
  · exact (hround.raises .mediumReadFailed).over (.inr (active_mediumReadFailed ..))

theorem blockDrained_over (hactive : ch.active = some i) :
    RoundOver i ((ch.drives i).atapi = true) ch (blockDrained ch i) := by
  have hstore : ∀ needed off n, (storeIf ch i needed off n).1.irqPending = ch.irqPending ∧
      ((storeIf ch i needed off n).1.drives i).atapi = (ch.drives i).atapi := by
    intro needed off n
    unfold storeIf writeMedium
    split
    · split <;> simp [IdeChannel.setDrive]
    · exact ⟨rfl, rfl⟩
  obtain ⟨hsame, hkind⟩ := hstore (blockFull ch && ch.isWrite) (ch.lba * ch.blockSize)
    ch.blockSize.toNat
  have hstored : Announces i ch (storeIf ch i (blockFull ch && ch.isWrite) (ch.lba * ch.blockSize)
    ch.blockSize.toNat).1 := .storeIf ..
  have hstill := (storeIf_sameCommand ch i (blockFull ch && ch.isWrite) (ch.lba * ch.blockSize)
    ch.blockSize.toNat).active.trans hactive
  unfold blockDrained
  generalize storeIf ch i (blockFull ch && ch.isWrite) _ _ = r at *
  cases blockFull ch
  · exact drained_over hstored hstored (startRoundOrFail_over hstored hstill hsame hkind)
  · exact drained_over hstored (hstored.plain rfl)
      (startRoundOrFail_over (hstored.plain rfl) hstill hsame hkind)

/-- The rounds a host is told of: MULTIPLE blocks and everything of a packet command. -/
def announced (ch : IdeChannel) (i : Fin kIdeDrivesPerChannel) : Prop :=
  0 < ch.multi ∨ ch.packet = true ∨ (ch.drives i).atapi = true

/-- An access to the data port while bay `i` executes: a drained round that is announced brings the
request up, and so does the end of the command; otherwise the request stays as it was. -/
structure PortMoved (i : Fin kIdeDrivesPerChannel) (announced drained : Prop)
    (ch ch' : IdeChannel) : Prop where
  raised : announced → drained → ch'.irqPending = true
  silent : ¬ announced → ch'.active = some i → ch'.irqPending = ch.irqPending
  ended : ch'.active = none → ch'.irqPending = true

theorem PortMoved.of_still {announced drained : Prop} (hnot : ¬ drained)
    (hactive : ch'.active = some i) (hsame : ch'.irqPending = ch.irqPending) :
    PortMoved i announced drained ch ch' :=
  ⟨fun _ h => absurd h hnot, fun _ _ => hsame,
    fun hidle => absurd (hactive.symm.trans hidle) (by simp)⟩

theorem ideMoveBytes_over (hactive : ch.active = some i) (size : Nat) (w : World D) :
    (ideMoveBytes ch i size w).Leaves fun r =>
      Keeps ch r.1 ∧ PortMoved i (announced ch i) (ch.round ≤ size) ch r.1 := by
  have hmulti : RoundOver i True (ch.drain size) (multiDrained (ch.drain size) i) :=
    multiDrained_over
  have hblock : RoundOver i _ (ch.drain size) (blockDrained (ch.drain size) i) :=
    blockDrained_over hactive
  have hpacket := execPacket_keeps { ch.drain size with packet := false } i w
  unfold ideMoveBytes
  dsimp only
  split
  · next hmore =>
    refine ⟨⟨rfl, .inl ⟨rfl, rfl⟩⟩, .of_still (fun hround => ?_) hactive rfl⟩
    simp only [IdeChannel.drain] at hmore
    omega
  split
  · next h =>
    exact ⟨⟨hmulti.devctrl, hmulti.request⟩, fun _ _ => hmulti.raised trivial,
      fun h' => absurd (.inl h) h', hmulti.ended⟩
  next hm =>
  split
  · next h =>
    exact hpacket.mono fun r hr => ⟨⟨hr.1.devctrl, hr.1.request⟩, fun _ _ => hr.2,
      fun h' => absurd (.inr (.inl h)) h', fun _ => hr.2⟩
  next hp =>
  refine ⟨⟨hblock.devctrl, hblock.request⟩, fun h' _ => hblock.raised ?_,
    fun h' => hblock.silent fun h => h' (.inr (.inr h)), hblock.ended⟩
  exact (h'.resolve_left hm).resolve_left hp

/-- The line is what the request and nIEN make it. -/
def LineOk (ch : IdeChannel) : Prop := ch.irqLine = (ch.irqPending && !ch.devctrl.getLsbD 1)

/-- The accesses that retire a request: a read of the status or alternate status register, and a
reset. -/
def retires (ch : IdeChannel) : IdeAccess → Bool
  | .cmdRead reg _ => decide (6 < reg)
  | .ctrlRead => true
  | .ctrlWrite v => !ch.devctrl.getLsbD 2 && v.getLsbD 2
  | .reset => true
  | _ => false

/-- What an access may do to the request and its line. -/
structure IrqStep (ch : IdeChannel) (a : IdeAccess) (ch' : IdeChannel) : Prop where
  line : LineOk ch → LineOk ch'
  retired : ch.irqPending = true → ch'.irqPending = false → retires ch a = true

theorem Keeps.irqStep (h : Keeps ch ch') (a : IdeAccess) : IrqStep ch a ch' where
  line hline := by
    unfold LineOk at *
    rcases h.request with ⟨hp, hl⟩ | ⟨hp, hl⟩
    · rw [hl, hp, h.devctrl, hline]
    · rw [hl, hp, h.devctrl, Bool.true_and]
  retired hp hp' := by
    rcases h.request with ⟨hsame, -⟩ | ⟨hraised, -⟩
    · exact absurd (hp'.symm.trans (hsame.trans hp)) (by decide)
    · exact absurd (hp'.symm.trans hraised) (by decide)

theorem accessStep_irq (ch : IdeChannel) (w : World D) (a : IdeAccess) :
    (accessStep ch w a).Leaves fun r => IrqStep ch a r.1 := by
  have hrefl : Keeps ch ch := ⟨rfl, .inl ⟨rfl, rfl⟩⟩
  have hack : ∀ {a : IdeAccess}, retires ch a = true → ∀ ch' : IdeChannel, LineOk ch' →
      IrqStep ch a ch' := fun h _ hline => ⟨fun _ => hline, fun _ _ => h⟩
  cases a with
  | cmdRead reg size =>
    have hdata : (readData ch size w).Leaves fun r => Keeps ch r.2.1 := by
      unfold readData
      split
      · exact hrefl
      · next i hactive =>
        split
        · exact hrefl
        · exact (ideMoveBytes_over hactive size w).bind fun _ h => h.1
    unfold accessStep cmdRead
    dsimp only
    split
    · exact hdata.bind fun _ h => h.irqStep _
    iterate 6
      · exact hrefl.irqStep _
    · exact hack (a := .cmdRead reg size) (decide_eq_true (by grind)) _ rfl
  | cmdWrite reg size val =>
    have hdata : (writeData ch size val w).Leaves fun r => Keeps ch r.1 := by
      unfold writeData
      split
      · exact hrefl
      · next i hactive =>
        split
        · exact hrefl
        · have hmove :=
            ideMoveBytes_over (show (storeData ch size val).active = some i from hactive)
            size w
          exact hmove.mono fun _ h => ⟨h.1.devctrl, h.1.request⟩
    refine (?_ : (cmdWrite ch reg size val w).Leaves fun r => Keeps ch r.1).mono
      fun _ h => h.irqStep _
    unfold cmdWrite
    dsimp only
    split
    · exact hdata
    iterate 5
      · exact ⟨rfl, .inl ⟨rfl, rfl⟩⟩
    · unfold presentSignature
      split <;> exact ⟨rfl, .inl ⟨rfl, rfl⟩⟩
    · exact (execCommand_announces ..).toKeeps
  | ctrlRead => exact hack rfl _ rfl
  | ctrlWrite v =>
    show IrqStep ch _ (ctrlWrite ch v)
    unfold ctrlWrite
    dsimp only
    split
    · next hrise => exact hack (a := .ctrlWrite v) hrise _ rfl
    · exact ⟨fun _ => rfl, fun hp hp' => absurd (hp.symm.trans hp') (by decide)⟩
  | bmdmaRead reg => exact hrefl.irqStep _
  | bmdmaWrite reg v =>
    refine (?_ : (bmdmaWrite ch reg v w).Leaves fun r => Keeps ch r.1).mono fun _ h => h.irqStep _
    unfold bmdmaWrite
    dsimp only
    split
    · split
      · split
        · split
          · exact (bmdmaRun_raises ..).mono fun _ h => ⟨h.devctrl, h.request⟩
          · exact ⟨rfl, .inl ⟨rfl, rfl⟩⟩
        · exact ⟨rfl, .inl ⟨rfl, rfl⟩⟩
      · split <;> exact ⟨rfl, .inl ⟨rfl, rfl⟩⟩
    iterate 6
      · exact ⟨rfl, .inl ⟨rfl, rfl⟩⟩
  | reset => exact hack rfl _ rfl

/-! ### Runs of a channel -/

/-- A channel after any sequence of completed accesses, over any memory at each of them. -/
inductive ChannelRun (D : Type) : IdeChannel → Prop
  | start (drives : Fin kIdeDrivesPerChannel → IdeDrive) : ChannelRun D (ideInit drives)
  | access {ch ch' : IdeChannel} (w w' : World D) (a : IdeAccess) (hrun : ChannelRun D ch)
      (hstep : accessStep ch w a = .done (ch', w')) : ChannelRun D ch'

theorem irqStep_of_done {w' : World D} {a : IdeAccess} (h : accessStep ch w a = .done (ch', w')) :
    IrqStep ch a ch' := by
  have hstep := accessStep_irq ch w a
  rwa [h] at hstep

theorem ChannelRun.line (h : ChannelRun D ch) : LineOk ch := by
  induction h with
  | start drives =>
    unfold ideInit presentSignature
    split <;> rfl
  | access w w' a _ hstep ih => exact (irqStep_of_done hstep).line ih

/-- The line is up exactly while a request is pending and nIEN is clear; only a read of one of the
two status registers or a reset retires a request, and the read of the alternate status changes
nothing else. -/
theorem irq_line_follows {w' : World D} (a : IdeAccess) (hrun : ChannelRun D ch)
    (hstep : accessStep ch w a = .done (ch', w')) :
    ch.irqLine = (ch.irqPending && !ch.devctrl.getLsbD 1) ∧
      (ch.irqPending = true → ch'.irqPending = false → retires ch a = true) ∧
      (a = .ctrlRead → ch' = { ch with irqPending := false, irqLine := false }) := by
  refine ⟨hrun.line, (irqStep_of_done hstep).retired, ?_⟩
  rintro rfl
  cases hstep
  rfl

/-- The channel of a disk of one sector after FLUSH CACHE. -/
def flushedChannel : IdeChannel :=
  execCommand (ideInit fun _ => (ideAttach ⟨512, fun _ => 0⟩ false).getD emptyBay) 0xe7

theorem flushedChannel_run (w : World Unit) : ChannelRun Unit flushedChannel :=
  .access w w (.cmdWrite 7 1 0xe7) (.start _) rfl

theorem irq_line_follows_flush :
    flushedChannel.irqLine = true ∧ retires flushedChannel (.cmdRead 7 1) = true := by
  obtain ⟨hline, hretired, -⟩ := irq_line_follows (.cmdRead 7 1)
    (flushedChannel_run (diskBoard 1).world) (w := (diskBoard 1).world) rfl
  exact ⟨hline.trans (by decide +kernel), hretired (by decide +kernel) (by decide +kernel)⟩

/-- The read of the alternate status register retires the request of FLUSH CACHE. -/
theorem alternate_status_retires :
    ChannelRun Unit flushedChannel ∧ flushedChannel.irqPending = true ∧
      (accessStep flushedChannel (diskBoard 1).world .ctrlRead).Ends fun r =>
        r.1.irqPending = false ∧ r.1.irqLine = false :=
  ⟨flushedChannel_run (diskBoard 1).world, by decide +kernel, rfl, rfl⟩

/-! ### Rounds -/

/-- An access to the data port that takes or brings the last bytes of a round. -/
def drainsRound (ch : IdeChannel) : IdeAccess → Bool
  | .cmdRead reg size => decide (reg = 0) && !ch.dma && !ch.isWrite && decide (ch.round = size)
  | .cmdWrite reg size _ => decide (reg = 0) && !ch.dma && ch.isWrite && decide (ch.round = size)
  | _ => false

def IdeAccess.dataPort : IdeAccess → Bool
  | .cmdRead reg _ => decide (reg = 0)
  | .cmdWrite reg _ _ => decide (reg = 0)
  | _ => false

theorem readData_moved {w' : World D} {size : Nat} {v : BitVec 64} (hactive : ch.active = some i)
    (hstep : readData ch size w = .done (v, ch', w')) :
    PortMoved i (announced ch i) (drainsRound ch (.cmdRead 0 size) = true) ch ch' := by
  have hmove := ideMoveBytes_over hactive size w
  simp only [readData, hactive] at hstep
  split at hstep
  · next hstop =>
    cases hstep
    refine .of_still (fun hdrains => ?_) hactive rfl
    simp only [drainsRound, Bool.and_eq_true, decide_eq_true_eq, Bool.not_eq_true'] at hdrains
    simp [hdrains.1.1.2, hdrains.1.2, hdrains.2] at hstop
  · cases hrun : ideMoveBytes ch i size w with
    | done r =>
      rw [hrun] at hstep hmove
      cases hstep
      refine ⟨fun h hdrains => hmove.2.raised h ?_, hmove.2.silent, hmove.2.ended⟩
      simp only [drainsRound, Bool.and_eq_true, decide_eq_true_eq] at hdrains
      exact Int.le_of_eq hdrains.2
    | fatal => rw [hrun] at hstep; cases hstep
    | endless => rw [hrun] at hstep; cases hstep

theorem writeData_moved {w' : World D} {size : Nat} {val : BitVec 64} (hactive : ch.active = some i)
    (hstep : writeData ch size val w = .done (ch', w')) :
    PortMoved i (announced ch i) (drainsRound ch (.cmdWrite 0 size val) = true) ch ch' := by
  have hmove := ideMoveBytes_over (show (storeData ch size val).active = some i from hactive) size w
  simp only [writeData, hactive] at hstep
  split at hstep
  · next hstop =>
    cases hstep
    refine .of_still (fun hdrains => ?_) hactive rfl
    simp only [drainsRound, Bool.and_eq_true, decide_eq_true_eq, Bool.not_eq_true'] at hdrains
    simp [hdrains.1.1.2, hdrains.1.2, hdrains.2] at hstop
  · rw [hstep] at hmove
    refine ⟨fun h hdrains => hmove.2.raised h ?_, hmove.2.silent, hmove.2.ended⟩
    simp only [drainsRound, Bool.and_eq_true, decide_eq_true_eq] at hdrains
    exact Int.le_of_eq hdrains.2

/-- While a bay executes a command: an access that drains a round of a MULTIPLE command, of a
packet or of a packet device's data brings the request up; for any other command no access to the
data port changes the request as long as the command goes on, and the one that ends it brings the
request up. -/
theorem drq_round_announced {w' : World D} (a : IdeAccess) (hport : a.dataPort = true)
    (hactive : ch.active = some i) (hstep : accessStep ch w a = .done (ch', w')) :
    (announced ch i → drainsRound ch a = true → ch'.irqPending = true) ∧
      (¬ announced ch i → ch'.active = some i → ch'.irqPending = ch.irqPending) ∧
      (ch'.active = none → ch'.irqPending = true) := by
  have hmoved : PortMoved i (announced ch i) (drainsRound ch a = true) ch ch' := by
    cases a with
    | cmdRead reg size =>
      obtain rfl : reg = 0 := of_decide_eq_true hport
      cases hread : readData ch size w with
      | done r =>
        obtain ⟨v, ch₁, w₁⟩ := r
        simp only [accessStep, cmdRead, hread] at hstep
        cases hstep
        exact readData_moved hactive hread
      | fatal => simp only [accessStep, cmdRead, hread] at hstep; cases hstep
      | endless => simp only [accessStep, cmdRead, hread] at hstep; cases hstep
    | cmdWrite reg size val =>
      obtain rfl : reg = 0 := of_decide_eq_true hport
      exact writeData_moved hactive hstep
    | _ => cases hport
  exact ⟨hmoved.raised, hmoved.silent, hmoved.ended⟩

/-- A disk of two sectors. -/
def twoSectors : IdeChannel :=
  ideInit fun _ => (ideAttach ⟨1024, fun _ => 0⟩ false).getD emptyBay

/-- The last word of the first of two blocks. -/
def lastWord (multi : Nat) : IdeChannel :=
  { accept twoSectors ⟨0, kIdeDrivesPerChannel_pos⟩ 0 2 false false multi with
    round := 2, used := 510, left := 514 }

theorem drq_round_announced_multiple :
    (accessStep (lastWord 1) (diskBoard 1).world (.cmdRead 0 2)).Ends fun r =>
      r.1.active = some ⟨0, by decide⟩ ∧ r.1.irqPending = true := by
  have hends : (accessStep (lastWord 1) (diskBoard 1).world (.cmdRead 0 2)).Ends fun r =>
      r.1.active = some ⟨0, by decide⟩ := by decide +kernel
  cases hstep : accessStep (lastWord 1) (diskBoard 1).world (.cmdRead 0 2) with
  | done r =>
    rw [hstep] at hends
    exact ⟨hends, (drq_round_announced _ rfl rfl hstep).1 (.inl (by decide)) (by decide +kernel)⟩
  | fatal => rw [hstep] at hends; exact hends
  | endless => rw [hstep] at hends; exact hends

def accessRun (ch : IdeChannel) (w : World D) (as : List IdeAccess) :
    Engine (IdeChannel × World D) :=
  as.foldl (fun m a => m.bind fun r => accessStep r.1 r.2 a) (.done (ch, w))

/-- READ SECTORS of two sectors, its interrupt taken, the first sector read: DRQ is up for the
second with no request. -/
theorem second_sector_unannounced :
    (accessRun twoSectors (diskBoard 1).world
      ([.cmdWrite 2 1 2, .cmdWrite 6 1 0x40, .cmdWrite 7 1 0x20, .cmdRead 7 1] ++
        List.replicate 128 (.cmdRead 0 4))).Ends fun r =>
      r.1.active = some ⟨0, by decide⟩ ∧ r.1.round = 512 ∧ r.1.left = 512 ∧
        (r.1.drives ⟨0, by decide⟩).status = kStatusReady ||| kStatusDrq ∧
          r.1.irqPending = false := by
  decide +kernel

end Cemu.Storage
