import Cemu.Storage.Fdc

/-!
# What the floppy controller reaches

Containment of the controller: it indexes the drive table inside its bounds, it reaches an image
only inside the medium, it writes no read-only image, and a READ DATA hands over only what it has
just read. Each command is given by the accesses it makes, as a function of the state it is
executed in (`rwAccesses`, `formatAccessesOf`), and containment of a step is then a condition on
the command and its parameters.
-/

namespace Cemu.Storage

open Cemu.Dma List FdcDevice

/-! ## Containment -/

def ImageAccess.Ok (a : ImageAccess) : Prop :=
  (a.len = 0 ∨ (0 ≤ a.off ∧ a.off + a.len ≤ a.size)) ∧ ¬ (a.isWrite = true ∧ a.readOnly = true)

def ReadTransfer.Ok (t : ReadTransfer) : Prop := t.handed <+: t.fetched

structure Clean (d : FdcDevice) : Prop where
  drive : d.currDrive < kFdcDrives
  accesses : ∀ a ∈ d.accesses, a.Ok
  reads : ∀ t ∈ d.reads, t.Ok

section

variable {D : Type}

/-- A step that indexed the drive table inside its bounds and left a clean controller. -/
def Contained : Except FdcStop (FdcBoard D) → Prop
  | .ok b => Clean b.fdc
  | .error .badDrive => False
  | .error .fatal => True

/-! ## The condition on a command -/

/-- The range a READ or WRITE DATA names, with the image, when it comes to its data phase: the
seek succeeds, the length is not empty, and a write is allowed. -/
def rwRequest (d : FdcDevice) (isWrite : Bool) : Option (HostFile × Int × Nat) :=
  let drv := d.drives d.rwDrive
  if SeekOk d ∧ (d.rwSize = 128 ∨ 0 < d.rwLength) ∧ ¬ (isWrite && drv.readOnly) then
    drv.image.map fun f => (f, d.rwOffset drv, min d.rwLength.toNat kFdcMaxTransfer)
  else none

/-- The bytes of the range that the command reaches: all of them for a read, what the channel
moves for a write. -/
def rwReach (b : FdcBoard D) (isWrite : Bool) (want : Nat) : Nat :=
  if isWrite then transferLen b.dma kFdcDmaChannel want else want

def RwFits (b : FdcBoard D) (isWrite : Bool) : Prop :=
  ∀ f off want, rwRequest b.fdc isWrite = some (f, off, want) →
    rwReach b isWrite want = 0 ∨ off + rwReach b isWrite want ≤ f.size

def FormatFits (b : FdcBoard D) (i : Fin kFdcDrives) : Prop :=
  ∀ f lba n, formatRequest b i = some (f, lba, n) →
    n = 0 ∨ (lba + n) * kFdcSectorSize ≤ f.size

def CommandFits (b : FdcBoard D) : Prop :=
  match decodeCommand b.fdc.cmdCode with
  | some .read => RwFits b false
  | some .write => RwFits b true
  | some .seek | some .recalibrate | some .readId | some .senseDrive => b.fdc.select < kFdcDrives
  | some .formatTrack => ∃ h : b.fdc.select < kFdcDrives, FormatFits b ⟨b.fdc.select, h⟩
  | some .senseInterrupt | some .specify | none => True

/-- The condition on a step: if it is the write that completes a command, the command fits. -/
def StepFits (b : FdcBoard D) : FdcEvent D → Prop
  | .write 5 v => ∀ d, takeByte b.fdc v = some d → d.cmdRemaining = 0 →
    CommandFits { b with fdc := d }
  | _ => True

/-! ## What the helpers leave alone -/

structure SameHistory (d d' : FdcDevice) : Prop where
  drive : d'.currDrive = d.currDrive
  accesses : d'.accesses = d.accesses
  reads : d'.reads = d.reads

variable {d d' : FdcDevice} {b b' : FdcBoard D} {n : Nat} {accesses : List ImageAccess}
  {i : Fin kFdcDrives} {f : HostFile}

theorem SameHistory.trans {d'' : FdcDevice} (h : SameHistory d d') (h' : SameHistory d' d'') :
    SameHistory d d'' :=
  ⟨h'.drive.trans h.drive, h'.accesses.trans h.accesses, h'.reads.trans h.reads⟩

theorem SameHistory.clean_iff (h : SameHistory d d') : Clean d' ↔ Clean d := by
  constructor
  · rintro ⟨h1, h2, h3⟩
    exact ⟨h.drive ▸ h1, h.accesses ▸ h2, h.reads ▸ h3⟩
  · rintro ⟨h1, h2, h3⟩
    exact ⟨h.drive.symm ▸ h1, h.accesses.symm ▸ h2, h.reads.symm ▸ h3⟩

section

variable (d : FdcDevice)

theorem sameHistory_raiseIrq : SameHistory d (raiseIrq d) := by
  unfold raiseIrq
  split <;> exact ⟨rfl, rfl, rfl⟩

theorem sameHistory_lowerIrq : SameHistory d (lowerIrq d) := by
  unfold lowerIrq
  dsimp only
  split <;> exact ⟨rfl, rfl, rfl⟩

theorem sameHistory_endReadWrite (i : Fin kFdcDrives) (status0 status1 status2 : BitVec 8) :
    SameHistory d (endReadWrite d i status0 status1 status2) := by
  refine .trans ?_ (sameHistory_raiseIrq _)
  exact ⟨rfl, rfl, rfl⟩

theorem sameHistory_finishReadWrite (i : Fin kFdcDrives) (moved size : Nat) :
    SameHistory d (finishReadWrite d i moved size) := by
  unfold finishReadWrite
  split
  · exact sameHistory_endReadWrite ..
  · refine .trans ?_ (sameHistory_endReadWrite ..)
    exact ⟨rfl, rfl, rfl⟩

theorem sameHistory_doSenseInterrupt (i : Fin kFdcDrives) :
    SameHistory d (doSenseInterrupt d i) := by
  have hsense : ∀ (d : FdcDevice) status0, SameHistory d (senseResult d i status0) := by
    intro d status0
    refine .trans ?_ (.trans (sameHistory_lowerIrq _) ⟨rfl, rfl, rfl⟩)
    exact ⟨rfl, rfl, rfl⟩
  unfold doSenseInterrupt
  split
  · refine .trans ?_ (hsense _ _)
    exact ⟨rfl, rfl, rfl⟩
  split
  · exact hsense _ _
  · exact ⟨rfl, rfl, rfl⟩

theorem sameHistory_readFifo : SameHistory d (readFifo d).2 := by
  unfold readFifo
  split
  · exact ⟨rfl, rfl, rfl⟩
  split
  · exact ⟨rfl, rfl, rfl⟩
  split
  · exact ⟨rfl, rfl, rfl⟩
  dsimp only
  split
  · refine .trans ?_ (sameHistory_lowerIrq _)
    exact ⟨rfl, rfl, rfl⟩
  · exact ⟨rfl, rfl, rfl⟩

end

theorem sameHistory_takeByte {v : BitVec 8} (h : takeByte d v = some d') : SameHistory d d' := by
  unfold takeByte at h
  split at h
  · cases h
  split at h
  · cases h
  split at h
  · cases h
  split at h <;>
    · cases h
      exact ⟨rfl, rfl, rfl⟩

/-! ## READ DATA and WRITE DATA -/

structure SameMedium (drv drv' : FdcDrive) : Prop where
  image : drv'.image = drv.image
  cylinders : drv'.cylinders = drv.cylinders
  heads : drv'.heads = drv.heads
  sectors : drv'.sectors = drv.sectors
  readOnly : drv'.readOnly = drv.readOnly

theorem sameMedium_seekDrive (drv : FdcDrive) (head track sect : Nat) :
    SameMedium drv (seekDrive drv head track sect).1 := by
  unfold seekDrive
  split
  · exact ⟨rfl, rfl, rfl, rfl, rfl⟩
  split
  · exact ⟨rfl, rfl, rfl, rfl, rfl⟩
  dsimp only
  split <;> exact ⟨rfl, rfl, rfl, rfl, rfl⟩

theorem seekDrive_ok_iff (drv : FdcDrive) (head track sect : Nat) :
    ((seekDrive drv head track sect).2 = .same ∨ (seekDrive drv head track sect).2 = .stepped) ↔
      drv.image.isSome ∧ track < drv.cylinders ∧ (head = 0 ∨ 2 ≤ drv.heads) ∧ 1 ≤ sect ∧
        sect ≤ drv.sectors := by
  unfold seekDrive
  split
  · simp
    omega
  split
  · simp
    omega
  cases drv.image with
  | none => simp
  | some f =>
    simp only [Option.isNone_some, Bool.false_eq_true, if_false, Option.isSome_some, true_and]
    constructor
    · omega
    · intro _
      split
      · exact .inr rfl
      · exact .inl rfl

def rwAccesses (b : FdcBoard D) (isWrite : Bool) : List ImageAccess :=
  match rwRequest b.fdc isWrite with
  | none => []
  | some (f, off, want) =>
    if isWrite ∧ rwReach b isWrite want = 0 then []
    else [⟨isWrite, off, rwReach b isWrite want, f.size, (b.fdc.drives b.fdc.rwDrive).readOnly⟩]

def rwReads (b : FdcBoard D) (isWrite : Bool) : List ReadTransfer :=
  match rwRequest b.fdc isWrite with
  | none => []
  | some (f, off, want) =>
    if isWrite then []
    else
      let fetched := f.readAt off want
      let n := transferLen b.dma kFdcDmaChannel want
      [⟨fetched, if (b.dma.ch kFdcDmaChannel).toMemory then
        bufBytes (fillBuf b.fdc.buf fetched) n else []⟩]

structure Added (b b' : FdcBoard D) (n : Nat) (accesses : List ImageAccess)
    (reads : List ReadTransfer) : Prop where
  drive : b'.fdc.currDrive = n
  accesses : b'.fdc.accesses = b.fdc.accesses ++ accesses
  reads : b'.fdc.reads = b.fdc.reads ++ reads
  openBus : X86.OpenBus b'.world.bus

theorem Added.clean_iff {reads : List ReadTransfer} (h : Added b b' n accesses reads)
    (hclean : Clean b.fdc) :
    Clean b'.fdc ↔ n < kFdcDrives ∧ (∀ a ∈ accesses, a.Ok) ∧ ∀ t ∈ reads, t.Ok := by
  constructor
  · rintro ⟨hn, ha, ht⟩
    rw [h.drive] at hn
    rw [h.accesses] at ha
    rw [h.reads] at ht
    exact ⟨hn, fun a hin => ha a (mem_append_right _ hin),
      fun t hin => ht t (mem_append_right _ hin)⟩
  · rintro ⟨hn, ha, ht⟩
    refine ⟨h.drive ▸ hn, ?_, ?_⟩
    · rw [h.accesses]
      intro a hin
      exact (mem_append.mp hin).elim (hclean.accesses a) (ha a)
    · rw [h.reads]
      intro t hin
      exact (mem_append.mp hin).elim (hclean.reads t) (ht t)

theorem Added.andThen {reads : List ReadTransfer} (h : Added b b' n accesses reads)
    (hd : SameHistory b'.fdc d) : Added b { b' with fdc := d } n accesses reads :=
  ⟨hd.drive.trans h.drive, hd.accesses.trans h.accesses, hd.reads.trans h.reads, h.openBus⟩

section

variable (hopen : X86.OpenBus b.world.bus)
include hopen

theorem writePhase_spec (hf : (b.fdc.drives i).image = some f) (off : Int) (want : Nat) :
    let n := transferLen b.dma kFdcDmaChannel want
    ∃ b', writePhase b i off want = .ok (b', n) ∧ Added b b' b.fdc.currDrive
        (if n = 0 then [] else [⟨true, off, n, f.size, (b.fdc.drives i).readOnly⟩]) [] := by
  obtain ⟨t, ht⟩ := i8237Transfer_isSome hopen b.dma kFdcDmaChannel b.fdc.buf want
  have hmoved := moved_i8237Transfer ht
  have hopen' := hopen.sameBoard (sameBoard_i8237Transfer ht)
  unfold writePhase
  rw [ht]
  dsimp only
  rw [hf, ← hmoved]
  dsimp only
  split
  · exact ⟨_, rfl, rfl, by simp, by simp, hopen'⟩
  · exact ⟨_, rfl, rfl, rfl, by simp [setDrive], hopen'⟩

theorem readPhase_spec (hf : (b.fdc.drives i).image = some f) (off : Int) (want : Nat) :
    let n := transferLen b.dma kFdcDmaChannel want
    let fetched := f.readAt off want
    ∃ b', readPhase b i off want = .ok (b', n) ∧
      Added b b' b.fdc.currDrive [⟨false, off, want, f.size, (b.fdc.drives i).readOnly⟩]
        [⟨fetched, if (b.dma.ch kFdcDmaChannel).toMemory then
          bufBytes (fillBuf b.fdc.buf fetched) n else []⟩] := by
  obtain ⟨t, ht⟩ := i8237Transfer_isSome hopen b.dma kFdcDmaChannel
    (fillBuf b.fdc.buf (f.readAt off want)) want
  have hmoved := moved_i8237Transfer ht
  have hopen' := hopen.sameBoard (sameBoard_i8237Transfer ht)
  unfold readPhase
  dsimp only
  rw [hf]
  rw [ht, ← hmoved]
  exact ⟨_, rfl, rfl, rfl, rfl, hopen'⟩

theorem added_of_no_request {isWrite : Bool} (hd : SameHistory d d') (hdrive : d.currDrive = n)
    (haccesses : d.accesses = b.fdc.accesses) (hreads : d.reads = b.fdc.reads)
    (hnone : rwRequest b.fdc isWrite = none) :
    Added b { b with fdc := d' } n (rwAccesses b isWrite) (rwReads b isWrite) := by
  refine ⟨hd.drive.trans hdrive, ?_, ?_, hopen⟩
  · rw [rwAccesses, hnone, hd.accesses, haccesses]
    simp
  · rw [rwReads, hnone, hd.reads, hreads]
    simp

theorem rwBody_spec (isWrite : Bool) (hseek : SeekOk b.fdc) :
    ∃ b', rwBody b b.fdc.rwDrive isWrite = .ok b' ∧
      Added b b' b.fdc.currDrive (rwAccesses b isWrite) (rwReads b isWrite) := by
  obtain ⟨f, hf⟩ := Option.isSome_iff_exists.mp hseek.1
  unfold rwBody
  dsimp only
  split
  · refine ⟨_, rfl, added_of_no_request hopen (sameHistory_endReadWrite ..) rfl rfl rfl (if_neg ?_)⟩
    omega
  split
  · rename_i hprotected
    refine ⟨_, rfl, added_of_no_request hopen (sameHistory_endReadWrite ..) rfl rfl rfl (if_neg ?_)⟩
    rintro ⟨-, -, hallowed⟩
    exact hallowed hprotected
  · rename_i hallowed
    have hrequest : rwRequest b.fdc isWrite = some (f, b.fdc.rwOffset (b.fdc.drives b.fdc.rwDrive),
        min b.fdc.rwLength.toNat kFdcMaxTransfer) := by
      rw [rwRequest, if_pos ⟨hseek, by omega, hallowed⟩, hf]
      rfl
    -- the state the data phase starts in
    let b1 : FdcBoard D := { b with fdc := { b.fdc with
      eot := b.fdc.cmdArgs[5], msr := b.fdc.msr &&& ~~~kMsrRqm } }
    have hend {b' : FdcBoard D} {accesses : List ImageAccess} {reads : List ReadTransfer}
        (size : Nat)
        (h : Added b1 b' b.fdc.currDrive accesses reads) (ha : accesses = rwAccesses b isWrite)
        (hr : reads = rwReads b isWrite) :
        Added b { b' with fdc := finishReadWrite b'.fdc b.fdc.rwDrive size b.fdc.rwSize }
          b.fdc.currDrive (rwAccesses b isWrite) (rwReads b isWrite) := by
      have h := h.andThen (sameHistory_finishReadWrite b'.fdc b.fdc.rwDrive size b.fdc.rwSize)
      rw [ha, hr] at h
      exact ⟨h.drive, h.accesses, h.reads, h.openBus⟩
    cases isWrite with
    | true =>
      obtain ⟨b', hphase, hadded⟩ := writePhase_spec (b := b1) hopen hf
        (b.fdc.rwOffset (b.fdc.drives b.fdc.rwDrive)) (min b.fdc.rwLength.toNat kFdcMaxTransfer)
      refine ⟨_, congrArg (Except.map _) hphase, hend _ hadded ?_ ?_⟩
      · simp [rwAccesses, hrequest, rwReach, b1]
      · simp [rwReads, hrequest]
    | false =>
      obtain ⟨b', hphase, hadded⟩ := readPhase_spec (b := b1) hopen hf
        (b.fdc.rwOffset (b.fdc.drives b.fdc.rwDrive)) (min b.fdc.rwLength.toNat kFdcMaxTransfer)
      refine ⟨_, congrArg (Except.map _) hphase, hend _ hadded ?_ ?_⟩
      · simp [rwAccesses, hrequest, rwReach, b1]
      · simp [rwReads, hrequest, b1]

end

theorem rwRequest_congr (hargs : d'.cmdArgs = d.cmdArgs) (hmulti : d'.multiTrack = d.multiTrack)
    (hmedium : SameMedium (d.drives d.rwDrive) (d'.drives d.rwDrive)) (isWrite : Bool) :
    SeekOk d' = SeekOk d ∧ rwRequest d' isWrite = rwRequest d isWrite := by
  have hdrive : d'.rwDrive = d.rwDrive := Fin.ext (by simp only [rwDrive, hargs])
  have hseek : SeekOk d' = SeekOk d := by
    simp only [SeekOk, hdrive, hargs, hmedium.image, hmedium.cylinders, hmedium.heads,
      hmedium.sectors]
  have hsize : d'.rwSize = d.rwSize := by simp only [rwSize, hargs]
  have hlength : d'.rwLength = d.rwLength := by simp only [rwLength, hargs, hmulti, hsize]
  have hoffset : d'.rwOffset (d'.drives d.rwDrive) = d.rwOffset (d.drives d.rwDrive) := by
    simp only [rwOffset, hargs, hsize, chsToLba, hmedium.heads, hmedium.sectors]
  refine ⟨hseek, ?_⟩
  rw [rwRequest, hdrive]
  refine if_congr ?_ ?_ rfl
  · rw [hseek, hsize, hlength, hmedium.readOnly]
  · rw [hmedium.image, hoffset, hlength]

theorem doReadWrite_spec (hopen : X86.OpenBus b.world.bus) (isWrite : Bool) :
    ∃ b', doReadWrite b isWrite = .ok b' ∧
      Added b b' b.fdc.rwDrive (rwAccesses b isWrite) (rwReads b isWrite) := by
  have hok := seekDrive_ok_iff (b.fdc.drives b.fdc.rwDrive) b.fdc.cmdArgs[2].toNat
    b.fdc.cmdArgs[1].toNat b.fdc.cmdArgs[3].toNat
  have hmedium := sameMedium_seekDrive (b.fdc.drives b.fdc.rwDrive) b.fdc.cmdArgs[2].toNat
    b.fdc.cmdArgs[1].toNat b.fdc.cmdArgs[3].toNat
  unfold doReadWrite
  dsimp only
  generalize seekDrive (b.fdc.drives b.fdc.rwDrive) b.fdc.cmdArgs[2].toNat
    b.fdc.cmdArgs[1].toNat b.fdc.cmdArgs[3].toNat = sought at hok hmedium
  obtain ⟨drv, seek⟩ := sought
  have hmoves : ∀ status0 : BitVec 8, SeekOk b.fdc → ∃ b',
      rwBody { b with fdc := { b.fdc.setDrive b.fdc.rwDrive drv with
        currDrive := b.fdc.rwDrive.val, status0 := status0 } } b.fdc.rwDrive isWrite = .ok b' ∧
      Added b b' b.fdc.rwDrive (rwAccesses b isWrite) (rwReads b isWrite) := by
    intro status0 hseek
    let d : FdcDevice := { b.fdc.setDrive b.fdc.rwDrive drv with
        currDrive := b.fdc.rwDrive.val, status0 := status0 }
    have hdrive : d.drives b.fdc.rwDrive = drv := Function.update_self ..
    have hsame : SeekOk d = SeekOk b.fdc ∧ rwRequest d isWrite = rwRequest b.fdc isWrite :=
      @rwRequest_congr b.fdc d rfl rfl (hdrive ▸ hmedium) isWrite
    obtain ⟨b', hbody, hadded⟩ := rwBody_spec (b := { b with fdc := d }) hopen isWrite
      (hsame.1 ▸ hseek)
    refine ⟨b', hbody, hadded.drive, ?_, ?_, hadded.openBus⟩
    · rw [hadded.accesses, rwAccesses]
      rw [hsame.2]
      have hro : (d.drives d.rwDrive).readOnly = (b.fdc.drives b.fdc.rwDrive).readOnly :=
        (congrArg FdcDrive.readOnly hdrive).trans hmedium.readOnly
      rw [hro]
      rfl
    · rw [hadded.reads, rwReads]
      rw [hsame.2]
      rfl
  cases seek with
  | offMedium => exact ⟨_, rfl, added_of_no_request hopen (sameHistory_endReadWrite ..) rfl rfl rfl
      (if_neg fun h => by simpa using hok.mpr h.1)⟩
  | offTrack => exact ⟨_, rfl, added_of_no_request hopen (sameHistory_endReadWrite ..) rfl rfl rfl
      (if_neg fun h => by simpa using hok.mpr h.1)⟩
  | same => exact hmoves _ (hok.mp (.inl rfl))
  | stepped => exact hmoves _ (hok.mp (.inr rfl))

theorem rwRequest_some {isWrite : Bool} {off : Int} {want : Nat}
    (h : rwRequest d isWrite = some (f, off, want)) :
    0 ≤ off ∧ want ≤ kFdcMaxTransfer ∧
      ¬ (isWrite = true ∧ (d.drives d.rwDrive).readOnly = true) := by
  unfold rwRequest at h
  dsimp only at h
  split at h
  · rename_i hok
    obtain ⟨f', -, hf'⟩ := Option.map_eq_some_iff.mp h
    cases hf'
    refine ⟨?_, Nat.min_le_right _ _, by simpa using hok.2.2⟩
    have hsect := hok.1.2.2.2.1
    have hlba : 0 ≤ chsToLba (d.drives d.rwDrive) d.cmdArgs[1].toNat d.cmdArgs[2].toNat
        d.cmdArgs[3].toNat := by
      refine Int.add_nonneg ?_ (by omega)
      positivity
    exact Int.mul_nonneg hlba (Int.natCast_nonneg _)
  · cases h

theorem forall_request {off : Int} {P : HostFile → Int → Nat → Prop} :
    (∀ f' off' n', some (f, off, n) = some (f', off', n') → P f' off' n') ↔ P f off n := by
  constructor
  · intro h
    exact h f off n rfl
  · rintro h f' off' n' ⟨⟩
    exact h

theorem rw_ok_iff (b : FdcBoard D) (isWrite : Bool) :
    ((∀ a ∈ rwAccesses b isWrite, a.Ok) ∧ ∀ t ∈ rwReads b isWrite, t.Ok) ↔ RwFits b isWrite := by
  unfold RwFits rwAccesses rwReads
  cases hrequest : rwRequest b.fdc isWrite with
  | none => simp
  | some r =>
    obtain ⟨f, off, want⟩ := r
    obtain ⟨hoff, hwant, hallowed⟩ := rwRequest_some hrequest
    have hok : ∀ n, (⟨isWrite, off, n, f.size, (b.fdc.drives b.fdc.rwDrive).readOnly⟩ :
        ImageAccess).Ok ↔ n = 0 ∨ off + n ≤ f.size := by
      intro n
      simp only [ImageAccess.Ok, hoff, hallowed, true_and, not_false_eq_true, and_true]
    rw [forall_request]
    cases isWrite with
    | true =>
      dsimp only
      split
      · rename_i h0
        simp [h0.2]
      · simp only [mem_singleton, forall_eq, hok, if_true, not_mem_nil, false_implies,
          implies_true, and_true]
    | false =>
      have hread : rwReach b false want = want := rfl
      simp only [Bool.false_eq_true, false_and, if_false, mem_singleton, forall_eq, hok, hread]
      refine ⟨fun h => h.1, fun h => ⟨h, ?_⟩⟩
      -- the channel moves no more than was fetched
      have hn := transferLen_le b.dma kFdcDmaChannel want
      have hlen : transferLen b.dma kFdcDmaChannel want ≤ (f.readAt off want).length := by
        rcases h with h0 | hfit
        · omega
        · rw [HostFile.length_readAt hoff
            (by simp only [kFdcMaxTransfer, kFdcSectorSize] at hwant; omega) hfit]
          exact hn
      split
      · rw [bufBytes_fillBuf _ hlen]
        exact take_prefix _ _
      · exact nil_prefix

/-! ## FORMAT TRACK -/

def formatAccessesOf (b : FdcBoard D) (i : Fin kFdcDrives) : List ImageAccess :=
  match formatRequest b i with
  | none => []
  | some (f, lba, n) => formatAccesses (b.fdc.drives i) f lba n

theorem doFormatTrack_spec (hopen : X86.OpenBus b.world.bus) (i : Fin kFdcDrives) :
    ∃ b', doFormatTrack b i = .ok b' ∧ Added b b' i (formatAccessesOf b i) [] := by
  unfold doFormatTrack
  dsimp only
  split
  · rename_i hprotected
    have hend := sameHistory_endReadWrite { b.fdc with currDrive := i.val } i
      (kSr0AbnTerm ||| kSr0Seek) kSr1NotWritable 0
    refine ⟨_, rfl, hend.drive, ?_, ?_, hopen⟩
    · rw [hend.accesses, formatAccessesOf, formatRequest]
      cases (b.fdc.drives i).image <;> simp [hprotected]
    · rw [hend.reads]
      simp
  · rename_i hallowed
    have hallowed : (b.fdc.drives i).readOnly = false := by simpa using hallowed
    obtain ⟨t, ht⟩ := i8237Transfer_isSome hopen b.dma kFdcDmaChannel b.fdc.buf
      (b.fdc.cmdArgs[2].toNat * 4)
    have hmoved := moved_i8237Transfer ht
    have hopen' := hopen.sameBoard (sameBoard_i8237Transfer ht)
    rw [ht]
    -- the head moves on and the result is put together, whatever was filled
    have hrest : ∀ d : FdcDevice, d.currDrive = i.val →
        d.accesses = b.fdc.accesses ++ formatAccessesOf b i → d.reads = b.fdc.reads →
        Added b ⟨endReadWrite (d.advance i 1) i 0 0 0, t.dev, t.world⟩ i (formatAccessesOf b i)
          [] := by
      intro d hdrive haccesses hreads
      have hend := sameHistory_endReadWrite (d.advance i 1) i 0 0 0
      refine ⟨hend.drive.trans hdrive, hend.accesses.trans haccesses, ?_, hopen'⟩
      rw [append_nil]
      exact hend.reads.trans hreads
    refine ⟨_, rfl, hrest _ ?_ ?_ ?_⟩
    · split
      · split <;> rfl
      · rfl
    · rw [formatAccessesOf, formatRequest]
      cases himage : (b.fdc.drives i).image with
      | none => simp
      | some f =>
        dsimp only
        rw [← hmoved]
        split
        · rename_i hall
          rw [if_pos ⟨hallowed, hall⟩]
        · rename_i hall
          rw [if_neg fun h => hall h.2]
          simp
    · split
      · split <;> rfl
      · rfl

theorem formatRequest_some {lba : Int} (h : formatRequest b i = some (f, lba, n)) :
    0 ≤ lba ∧ (b.fdc.drives i).readOnly = false := by
  unfold formatRequest at h
  dsimp only at h
  split at h
  · cases h
  split at h
  · rename_i hok
    cases h
    refine ⟨Int.add_nonneg ?_ (by omega), hok.1⟩
    positivity
  · cases h

theorem format_ok_iff (b : FdcBoard D) (i : Fin kFdcDrives) :
    (∀ a ∈ formatAccessesOf b i, a.Ok) ↔ FormatFits b i := by
  unfold FormatFits formatAccessesOf
  cases hrequest : formatRequest b i with
  | none => simp
  | some r =>
    obtain ⟨f, lba, n⟩ := r
    obtain ⟨hlba, hallowed⟩ := formatRequest_some hrequest
    have hok : ∀ k : Nat, (⟨true, (lba + k) * kFdcSectorSize, kFdcSectorSize, f.size,
        (b.fdc.drives i).readOnly⟩ : ImageAccess).Ok ↔ (lba + k + 1) * 512 ≤ f.size := by
      intro k
      simp only [ImageAccess.Ok, hallowed, kFdcSectorSize]
      constructor
      · rintro ⟨h | h, -⟩ <;> omega
      · intro h
        exact ⟨.inr (by omega), by simp⟩
    rw [forall_request]
    simp only [formatAccesses, mem_map, mem_range, forall_exists_index, and_imp,
      forall_apply_eq_imp_iff₂, hok]
    simp only [kFdcSectorSize]
    constructor
    · intro h
      rcases Nat.eq_zero_or_pos n with h0 | hpos
      · exact .inl h0
      · have := h (n - 1) (by omega)
        omega
    · omega

/-! ## Steps and runs -/

section

variable (hopen : X86.OpenBus b.world.bus)
include hopen

section

variable (hclean : Clean b.fdc)
include hclean

theorem contained_withDrive (n : Nat) {f : Fin kFdcDrives → FdcDevice}
    (hf : ∀ i : Fin kFdcDrives, SameHistory { b.fdc with currDrive := i.val } (f i)) :
    (Contained (withDrive n fun i => .ok { b with fdc := f i }) ↔ n < kFdcDrives) ∧
      ∀ b', (withDrive n fun i => .ok { b with fdc := f i }) = .ok b' →
        X86.OpenBus b'.world.bus := by
  unfold withDrive
  split
  · rename_i hn
    have h := hf ⟨n, hn⟩
    have hadded : Added b { b with fdc := f ⟨n, hn⟩ } n [] [] :=
      ⟨h.drive, by rw [append_nil, h.accesses], by rw [append_nil, h.reads], hopen⟩
    refine ⟨?_, ?_⟩
    · rw [Contained, hadded.clean_iff hclean]
      simp
    · rintro b' ⟨⟩
      exact hadded.openBus
  · rename_i hn
    exact ⟨⟨False.elim, hn⟩, nofun⟩

theorem doReadWrite_contained (isWrite : Bool) :
    (Contained (doReadWrite b isWrite) ↔ RwFits b isWrite) ∧
      ∀ b', doReadWrite b isWrite = .ok b' → X86.OpenBus b'.world.bus := by
  obtain ⟨b', hrun, hadded⟩ := doReadWrite_spec hopen isWrite
  rw [hrun]
  refine ⟨?_, ?_⟩
  · rw [Contained, hadded.clean_iff hclean, rw_ok_iff]
    exact ⟨fun h => h.2, fun h => ⟨b.fdc.rwDrive.isLt, h⟩⟩
  · rintro b'' ⟨⟩
    exact hadded.openBus

theorem runCommand_contained :
    (Contained (runCommand b) ↔ CommandFits b) ∧
      ∀ b', runCommand b = .ok b' → X86.OpenBus b'.world.bus := by
  unfold runCommand CommandFits
  generalize decodeCommand b.fdc.cmdCode = command
  match command with
  | some .read => exact doReadWrite_contained hopen hclean false
  | some .write => exact doReadWrite_contained hopen hclean true
  | some .seek =>
    refine contained_withDrive hopen hclean _ fun i => ?_
    refine SameHistory.trans ?_ (sameHistory_raiseIrq _)
    exact ⟨rfl, rfl, rfl⟩
  | some .recalibrate =>
    refine contained_withDrive hopen hclean _ fun i => ?_
    refine SameHistory.trans ?_ (sameHistory_raiseIrq _)
    exact ⟨rfl, rfl, rfl⟩
  | some .senseInterrupt =>
    rw [withDrive, dif_pos hclean.drive]
    have h :=
      (sameHistory_doSenseInterrupt b.fdc ⟨b.fdc.currDrive, hclean.drive⟩).clean_iff.mpr hclean
    exact ⟨iff_true_intro h, by rintro b' ⟨⟩; exact hopen⟩
  | some .readId =>
    refine contained_withDrive hopen hclean _ fun i => ?_
    refine SameHistory.trans ?_ (sameHistory_endReadWrite ..)
    exact ⟨rfl, rfl, rfl⟩
  | some .senseDrive => exact contained_withDrive hopen hclean _ fun i => ⟨rfl, rfl, rfl⟩
  | some .formatTrack =>
    unfold withDrive
    split
    · rename_i hn
      obtain ⟨b', hrun, hadded⟩ := doFormatTrack_spec hopen ⟨b.fdc.select, hn⟩
      rw [hrun]
      refine ⟨?_, by rintro b'' ⟨⟩; exact hadded.openBus⟩
      rw [Contained, hadded.clean_iff hclean, format_ok_iff]
      exact ⟨fun h => ⟨hn, h.2.1⟩, fun ⟨_, h⟩ => ⟨hn, h, nofun⟩⟩
    · rename_i hn
      exact ⟨⟨False.elim, fun ⟨h, _⟩ => hn h⟩, nofun⟩
  | some .specify =>
    have h : Clean (enterCommandPhase b.fdc) := ⟨hclean.drive, hclean.accesses, hclean.reads⟩
    exact ⟨iff_true_intro h, by rintro b' ⟨⟩; exact hopen⟩
  | none =>
    have h : Clean (doInvalid b.fdc) := ⟨hclean.drive, hclean.accesses, hclean.reads⟩
    exact ⟨iff_true_intro h, by rintro b' ⟨⟩; exact hopen⟩

theorem writeFifo_contained (v : BitVec 8) : (Contained (writeFifo b v) ↔ StepFits b (.write 5 v)) ∧
      ∀ b', writeFifo b v = .ok b' → X86.OpenBus b'.world.bus := by
  unfold writeFifo
  cases htake : takeByte b.fdc v with
  | none =>
    refine ⟨⟨?_, fun _ => hclean⟩, by rintro b' ⟨⟩; exact hopen⟩
    intro _ d hd
    rw [htake] at hd
    cases hd
  | some d =>
    have hclean' : Clean d := (sameHistory_takeByte htake).clean_iff.mpr hclean
    dsimp only
    split
    · rename_i hlast
      have h := runCommand_contained (b := { b with fdc := { d with phase := .execution } }) hopen
        ⟨hclean'.drive, hclean'.accesses, hclean'.reads⟩
      refine ⟨h.1.trans ⟨?_, ?_⟩, h.2⟩
      · intro hfits d' hd' _
        rw [htake] at hd'
        cases hd'
        exact hfits
      · intro hfits
        exact hfits d htake hlast
    · rename_i hmore
      refine ⟨⟨?_, fun _ => hclean'⟩, by rintro b' ⟨⟩; exact hopen⟩
      intro _ d' hd' hlast
      rw [htake] at hd'
      cases hd'
      exact absurd hlast hmore

end

end

theorem clean_writeDor (h : Clean d) (v : BitVec 8) : Clean (writeDor d v) := by
  have hreset : ∀ d : FdcDevice, Clean d → Clean (controllerReset d) := by
    intro d h
    have hirq := sameHistory_raiseIrq { controllerStateReset d with status0 := kSr0RdyChg }
    have hclean := hirq.clean_iff.mpr ⟨Nat.zero_lt_two, h.accesses, h.reads⟩
    exact ⟨hclean.drive, hclean.accesses, hclean.reads⟩
  unfold writeDor
  dsimp only
  split
  · have hclean := hreset { d with srb := _ } ⟨h.drive, h.accesses, h.reads⟩
    exact ⟨Nat.mod_lt _ (by decide), hclean.accesses, hclean.reads⟩
  · exact ⟨Nat.mod_lt _ (by decide), h.accesses, h.reads⟩

theorem fdcWrite_contained (hopen : X86.OpenBus b.world.bus) (hclean : Clean b.fdc) (reg : Nat)
    (v : BitVec 8) :
    (Contained (fdcWrite b reg v) ↔ StepFits b (.write reg v)) ∧
      ∀ b', fdcWrite b reg v = .ok b' → X86.OpenBus b'.world.bus := by
  unfold fdcWrite
  split
  · have h := clean_writeDor hclean v
    exact ⟨iff_of_true h trivial, by rintro b' ⟨⟩; exact hopen⟩
  · refine ⟨iff_of_true ?_ trivial, by rintro b' ⟨⟩; exact hopen⟩
    split
    · exact ⟨hclean.drive, hclean.accesses, hclean.reads⟩
    · exact hclean
  · exact writeFifo_contained hopen hclean v
  · rename_i h2 h3 h5
    refine ⟨iff_of_true hclean ?_, by rintro b' ⟨⟩; exact hopen⟩
    unfold StepFits
    split
    · rename_i heq
      cases heq
      exact absurd rfl h5
    · trivial

theorem clean_fdcRead (hclean : Clean d) (reg : Nat) : ∃ r, fdcRead d reg = .ok r ∧ Clean r.2 := by
  unfold fdcRead
  split
  case h_6 => exact ⟨_, rfl, (sameHistory_readFifo d).clean_iff.mpr hclean⟩
  case h_7 =>
    rw [withDrive, dif_pos hclean.drive]
    exact ⟨_, rfl, hclean⟩
  all_goals exact ⟨_, rfl, hclean⟩

theorem fdcStep_contained (hopen : X86.OpenBus b.world.bus) (hclean : Clean b.fdc)
    (e : FdcEvent D) :
    (Contained (fdcStep b e) ↔ StepFits b e) ∧
      ∀ b', fdcStep b e = .ok b' → X86.OpenBus b'.world.bus := by
  cases e with
  | write reg v => exact fdcWrite_contained hopen hclean reg v
  | read reg =>
    obtain ⟨r, hread, hr⟩ := clean_fdcRead hclean reg
    rw [fdcStep, hread]
    exact ⟨iff_of_true hr trivial, by rintro b' ⟨⟩; exact hopen⟩
  | dmaWrite port v => exact ⟨iff_of_true hclean trivial, by rintro b' ⟨⟩; exact hopen⟩
  | dmaRead port => exact ⟨iff_of_true hclean trivial, by rintro b' ⟨⟩; exact hopen⟩
  | reset =>
    have h : Clean (controllerStateReset b.fdc) := ⟨Nat.zero_lt_two, hclean.accesses, hclean.reads⟩
    exact ⟨iff_of_true h trivial, by rintro b' ⟨⟩; exact hopen⟩
  | guest w => exact ⟨iff_of_true hclean trivial, by rintro b' ⟨⟩; exact w.property⟩

def RunContained : FdcBoard D → List (FdcEvent D) → Prop
  | _, [] => True
  | b, e :: es => Contained (fdcStep b e) ∧ ∀ b', fdcStep b e = .ok b' → RunContained b' es

def RunFits : FdcBoard D → List (FdcEvent D) → Prop
  | _, [] => True
  | b, e :: es => StepFits b e ∧ ∀ b', fdcStep b e = .ok b' → RunFits b' es

theorem runContained_iff (hopen : X86.OpenBus b.world.bus) (hclean : Clean b.fdc)
    (events : List (FdcEvent D)) : RunContained b events ↔ RunFits b events := by
  induction events generalizing b with
  | nil => exact .rfl
  | cons e es ih =>
    obtain ⟨hstep, hopen'⟩ := fdcStep_contained hopen hclean e
    have hrest : Contained (fdcStep b e) → ∀ b', fdcStep b e = .ok b' →
        (RunContained b' es ↔ RunFits b' es) := by
      intro hcontained b' hb'
      rw [hb'] at hcontained
      exact ih (hopen' b' hb') hcontained
    rw [RunContained, RunFits]
    constructor
    · rintro ⟨hcontained, hruns⟩
      exact ⟨hstep.mp hcontained, fun b' hb' => (hrest hcontained b' hb').mp (hruns b' hb')⟩
    · rintro ⟨hfits, hruns⟩
      have hcontained := hstep.mpr hfits
      exact ⟨hcontained, fun b' hb' => (hrest hcontained b' hb').mpr (hruns b' hb')⟩

/-- A run from power-on, with any drives and any DMA programming and memory, is contained exactly
when its commands fit: their drive is one of the two, and the range a READ DATA, WRITE DATA or
FORMAT TRACK reaches ends on the medium. -/
theorem fdc_contained_iff (drives : Fin kFdcDrives → FdcDrive) (dma : I8237Device)
    (w : { w : World D // X86.OpenBus w.bus }) (events : List (FdcEvent D)) :
    RunContained ⟨fdcInit drives, dma, w.val⟩ events ↔
      RunFits ⟨fdcInit drives, dma, w.val⟩ events :=
  runContained_iff w.property
    ⟨Nat.zero_lt_two, fun _ h => absurd h List.not_mem_nil, fun _ h => absurd h List.not_mem_nil⟩
      events

end

/-! ## Runs that are not contained -/

def image320K (v : BitVec 8) : HostFile := ⟨327680, fun _ => v⟩

def withImage (v : BitVec 8) : FdcBoard Unit :=
  let drives := fun i => if i.val = 0 then (fdcAttach (image320K v)).getD emptyDrive else emptyDrive
  ⟨fdcInit drives, i8237Init, X86.ramBoard 0x100000 false X86.x86MemMap_oneMeg fun _ => 0⟩

def program (mode : BitVec 8) : List (FdcEvent Unit) :=
  [.dmaWrite 0x0a 0x02, .dmaWrite 0x0b mode, .dmaWrite 0x05 1, .dmaWrite 0x05 0]

def command (bytes : List (BitVec 8)) : List (FdcEvent Unit) :=
  bytes.map (.write 5) ++ replicate 7 (.read 5)

/-- Three runs that leave the medium or the drive table. A WRITE DATA of two bytes at head 255,
which a two-sided drive does not check, lands behind the end of the image. A READ DATA there
fetches nothing and hands over two bytes the READ DATA before it had left in the buffer. A SEEK
of drive 2 indexes past the table. -/
theorem fdc_escapes :
    ((program 0x4a ++ command [0x45, 0, 39, 255, 8, 0, 8, 0, 2]).foldlM fdcStep
        (withImage 0)).toOption.map (fun b => b.fdc.accesses) =
      some [⟨true, 341888, 2, 327680, false⟩] ∧
    ((program 0x46 ++ command [0x46, 0, 0, 0, 1, 0, 1, 0, 2] ++
        command [0x46, 0, 39, 255, 8, 0, 8, 0, 2]).foldlM fdcStep
        (withImage 0xaa)).toOption.map (fun b => b.fdc.reads) =
      some [⟨[0xaa, 0xaa], [0xaa, 0xaa]⟩, ⟨[], [0xaa, 0xaa]⟩] ∧
    (match ([.write 5 0x0f, .write 5 2, .write 5 0] : List (FdcEvent Unit)).foldlM fdcStep
        (withImage 0) with
      | .error stop => some stop
      | .ok _ => none) = some .badDrive := by
  decide +kernel

end Cemu.Storage
