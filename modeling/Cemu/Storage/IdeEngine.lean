import Cemu.Dma.I8237
import Cemu.Storage.Ide

/-!
# What the bus-master engine does to the media

The engine takes its direction from its own command register, so a transfer to the medium is
safe exactly when the blocks from the cursor to the end of the command may be written. `Room`
says so, and is kept by every piece the engine moves. Two more facts are used with it: with the
open bus in the map no transfer is fatal, and every transfer ends.
-/

namespace Cemu.Storage

open IdeChannel

open Cemu.Dma Cemu.X86

/-! ## Media -/

/-- The part of a bay a transfer can write: the image, with the kind and length it was given. -/
structure IdeMedium where
  image : Option HostFile
  atapi : Bool
  blocks : Nat

def IdeDrive.medium (dr : IdeDrive) : IdeMedium := ⟨dr.image, dr.atapi, dr.blocks⟩

def IdeChannel.media (ch : IdeChannel) (i : Fin kIdeDrivesPerChannel) : IdeMedium :=
  (ch.drives i).medium

def ImageAgree (S : Nat → Prop) : Option HostFile → Option HostFile → Prop
  | none, none => True
  | some f, some f' => f'.size = f.size ∧ ∀ k < f.size, ¬ S k → f'.data k = f.data k
  | _, _ => False

theorem ImageAgree.refl (S : Nat → Prop) (f : Option HostFile) : ImageAgree S f f := by
  cases f with
  | none => trivial
  | some f => exact ⟨rfl, fun _ _ _ => rfl⟩

theorem ImageAgree.trans {S : Nat → Prop} {f g h : Option HostFile} (hfg : ImageAgree S f g)
    (hgh : ImageAgree S g h) : ImageAgree S f h := by
  cases f <;> cases g <;> cases h <;> try trivial
  obtain ⟨hsize, hdata⟩ := hfg
  obtain ⟨hsize', hdata'⟩ := hgh
  exact ⟨hsize'.trans hsize, fun k hk hS => (hdata' k (hsize ▸ hk) hS).trans (hdata k hk hS)⟩

structure MediaAgree (S : Fin kIdeDrivesPerChannel → Nat → Prop) (ch ch' : IdeChannel) : Prop where
  atapi : ∀ i, (ch'.media i).atapi = (ch.media i).atapi
  blocks : ∀ i, (ch'.media i).blocks = (ch.media i).blocks
  image : ∀ i, ImageAgree (S i) (ch.media i).image (ch'.media i).image

section

variable {S : Fin kIdeDrivesPerChannel → Nat → Prop} {ch ch' ch'' : IdeChannel}

theorem MediaAgree.of_eq (h : ch'.media = ch.media) : MediaAgree S ch ch' :=
  ⟨fun _ => by rw [h], fun _ => by rw [h], fun _ => by rw [h]; exact .refl _ _⟩

theorem MediaAgree.trans (h : MediaAgree S ch ch') (h' : MediaAgree S ch' ch'') :
    MediaAgree S ch ch'' :=
  ⟨fun i => (h'.atapi i).trans (h.atapi i), fun i => (h'.blocks i).trans (h.blocks i),
    fun i => (h.image i).trans (h'.image i)⟩

theorem MediaAgree.size (h : MediaAgree S ch ch') {i : Fin kIdeDrivesPerChannel} {f' : HostFile}
    (hf' : (ch'.media i).image = some f') :
    ∃ f, (ch.media i).image = some f ∧ f'.size = f.size := by
  have himage := h.image i
  rw [hf'] at himage
  cases hf : (ch.media i).image with
  | none => rw [hf] at himage; exact himage.elim
  | some f => rw [hf] at himage; exact ⟨f, rfl, himage.1⟩

end

section

variable (ch : IdeChannel) (i : Fin kIdeDrivesPerChannel)

variable {ch i} in
theorem media_of_update {ch' : IdeChannel} {dr : IdeDrive}
    (h : ch'.drives = Function.update ch.drives i dr) (hdr : dr.medium = (ch.drives i).medium) :
    ch'.media = ch.media := by
  funext j
  by_cases hj : j = i
  · subst hj
    simp [media, h, hdr]
  · simp [media, h, hj]

@[simp] theorem media_abort : (abort ch i).media = ch.media := media_of_update rfl rfl

@[simp] theorem media_atapiError (key asc : BitVec 8) :
    (atapiError ch i key asc).media = ch.media :=
  media_of_update rfl rfl

@[simp] theorem media_cmdOk : (cmdOk ch i).media = ch.media := media_of_update rfl rfl

@[simp] theorem media_checkCondition : (checkCondition ch i).media = ch.media :=
  media_of_update rfl rfl

@[simp] theorem media_mediumReadFailed : (mediumReadFailed ch i).media = ch.media := by
  unfold mediumReadFailed
  split <;> simp

@[simp] theorem active_mediumReadFailed : (mediumReadFailed ch i).active = none := by
  unfold mediumReadFailed
  split <;> rfl

@[simp] theorem media_endCommand : (endCommand ch i).media = ch.media := by
  unfold endCommand
  split <;> exact media_of_update rfl rfl

theorem writeMedium_agree {S : Fin kIdeDrivesPerChannel → Nat → Prop} {off : Int} {n : Nat}
    (hS : ∀ k : Nat, off ≤ k → (k : Int) < off + n → S i k)
    (hfits : ∀ f, (ch.media i).image = some f → off + n ≤ f.size) :
    MediaAgree S ch (writeMedium ch i off n).1 := by
  unfold writeMedium
  split
  next f hf =>
    have hin := hfits f hf
    have himage : ImageAgree (S i) (some f) (some (f.writeAt off (bufBytes ch.buf n)).1) := by
      unfold HostFile.writeAt
      split
      · exact .refl _ _
      have hlen : (bufBytes ch.buf n).length = n := by simp [bufBytes]
      constructor
      · dsimp only
        split <;> omega
      · intro k hk hnot
        dsimp only
        rw [if_neg fun hr => hnot (hS k (by omega) (by omega)), if_pos hk]
    refine ⟨fun j => ?_, fun j => ?_, fun j => ?_⟩ <;> by_cases hj : j = i
    · subst hj; simp [media, setDrive, IdeDrive.medium]
    · simp [media, setDrive, hj]
    · subst hj; simp [media, setDrive, IdeDrive.medium]
    · simp [media, setDrive, hj]
    · subst hj
      simpa [media, setDrive, IdeDrive.medium, hf] using himage
    · simp [media, setDrive, hj, ImageAgree.refl]
  next => exact .of_eq rfl

end

/-! ## Outcomes -/

namespace Engine

variable {α β : Type}

/-- The engine does not stop the process, and leaves `P` when it comes to its end. -/
def Safe (P : α → Prop) : Engine α → Prop
  | done a => P a
  | fatal => False
  | endless => True

variable {P Q : α → Prop} {m : Engine α}

theorem Safe.mono (h : m.Safe P) (hPQ : ∀ a, P a → Q a) : m.Safe Q := by
  cases m with
  | done a => exact hPQ a h
  | fatal => exact h
  | endless => trivial

theorem Safe.bind {Q : β → Prop} {f : α → Engine β} (h : m.Safe P) (hf : ∀ a, P a → (f a).Safe Q) :
    (m.bind f).Safe Q := by
  cases m with
  | done a => exact hf a h
  | fatal => exact h
  | endless => trivial

def Ends (P : α → Prop) : Engine α → Prop
  | done a => P a
  | _ => False

instance {P : α → Prop} [DecidablePred P] : DecidablePred (Ends P)
  | done a => inferInstanceAs (Decidable (P a))
  | fatal => .isFalse id
  | endless => .isFalse id

theorem Ends.mono (h : m.Ends P) (hPQ : ∀ a, P a → Q a) : m.Ends Q := by
  cases m with
  | done a => exact hPQ a h
  | fatal => exact h
  | endless => exact h

theorem Ends.bind {Q : β → Prop} {f : α → Engine β} (h : m.Ends P) (hf : ∀ a, P a → (f a).Ends Q) :
    (m.bind f).Ends Q := by
  cases m with
  | done a => exact hf a h
  | fatal => exact h
  | endless => exact h

theorem Ends.and_safe (h : m.Ends P) (h' : m.Safe Q) : m.Ends fun a => P a ∧ Q a := by
  cases m with
  | done a => exact ⟨h, h'⟩
  | fatal => exact h
  | endless => exact h

theorem Safe.ends_ofBus {m : Option α} (h : (ofBus m).Safe P) : (ofBus m).Ends P := by
  cases m with
  | none => exact h
  | some a => exact h

end Engine

section

variable {D : Type} {w : World D}

theorem memRead32_safe (h : OpenBus w.bus) (addr : BitVec 32) :
    (Engine.ofBus (memRead32 w addr)).Safe fun r => OpenBus r.2.bus := by
  obtain ⟨⟨buf, w'⟩, hr⟩ := moveBytes_isSome h false (fun k => addr + .ofNat 32 k) (fun _ => 0) 4
  rw [memRead32, hr]
  exact h.sameBoard (moveBytes_sameBoard hr)

theorem memMove_safe (h : OpenBus w.bus) (toMem : Bool) (addr : BitVec 32) (buf : Nat → BitVec 8)
    (used n : Int) :
    (Engine.ofBus (memMove toMem addr buf used n w)).Safe fun r => OpenBus r.2.bus := by
  obtain ⟨⟨buf', w'⟩, hr⟩ := moveBytes_isSome h toMem (fun k => addr + .ofNat 32 k)
    (fun k => buf (used.toNat + k)) n.toNat
  rw [memMove, hr]
  exact h.sameBoard (moveBytes_sameBoard hr)

/-! ## Pieces -/

/-- The blocks from the cursor of `ch` to the end of its transfer are disk blocks of drive `i`
in `S`. -/
structure Room (S : Nat → Prop) (i : Fin kIdeDrivesPerChannel) (ch : IdeChannel) : Prop where
  block : ch.blockSize = 512
  left : 0 ≤ ch.left
  inside : ∀ k : Nat, ch.lba * 512 ≤ k → (k : Int) < ch.lba * 512 + ch.used + ch.left → S k
  fits : ∀ f, (ch.media i).image = some f → ch.lba * 512 + ch.used + ch.left ≤ f.size

/-- Whether the engine may run: it fills memory, or it cannot complete a block, or it has room. -/
def EngineOk (toMem : Bool) (S : Nat → Prop) (i : Fin kIdeDrivesPerChannel) (ch : IdeChannel) :
    Prop :=
  toMem = true ∨ ch.used + ch.left < ch.blockSize ∨ Room S i ch

variable {toMem : Bool} {S : Fin kIdeDrivesPerChannel → Nat → Prop} {i : Fin kIdeDrivesPerChannel}
  {ch ch' ch'' : IdeChannel} {count off : BitVec 32}

theorem Room.advance {T : Nat → Prop} (h : Room T i ch) (hmedia : MediaAgree S ch ch')
    (hblock : ch'.blockSize = ch.blockSize) (hleft : 0 ≤ ch'.left) (hlba : ch.lba ≤ ch'.lba)
    (hend : ch'.lba * 512 + ch'.used + ch'.left ≤ ch.lba * 512 + ch.used + ch.left) :
    Room T i ch' where
  block := hblock.trans h.block
  left := hleft
  inside k hlo hhi := h.inside k (by omega) (by omega)
  fits f' hf' := by
    obtain ⟨f, hf, hsize⟩ := hmedia.size hf'
    have hfits := h.fits f hf
    omega

structure Moved (toMem : Bool) (S : Fin kIdeDrivesPerChannel → Nat → Prop)
    (i : Fin kIdeDrivesPerChannel) (ch ch' : IdeChannel) (w' : World D) : Prop where
  bus : OpenBus w'.bus
  block : ch'.blockSize = ch.blockSize
  ok : EngineOk toMem (S i) i ch → MediaAgree S ch ch' ∧ EngineOk toMem (S i) i ch'

theorem Moved.refl (h : OpenBus w.bus) : Moved toMem S i ch ch w :=
  ⟨h, rfl, fun hok => ⟨.of_eq rfl, hok⟩⟩

theorem Moved.trans {w' w'' : World D} (h : Moved toMem S i ch ch' w')
    (h' : Moved toMem S i ch' ch'' w'') : Moved toMem S i ch ch'' w'' :=
  ⟨h'.bus, h'.block.trans h.block, fun hok =>
    ⟨(h.ok hok).1.trans (h'.ok (h.ok hok).2).1, (h'.ok (h.ok hok).2).2⟩⟩

theorem storeIf_cursor (ch : IdeChannel) (i : Fin kIdeDrivesPerChannel) (needed : Bool) (off : Int)
    (n : Nat) :
    let ch' := (storeIf ch i needed off n).1
    ch'.blockSize = ch.blockSize ∧ ch'.left = ch.left ∧ ch'.lba = ch.lba ∧ ch'.used = ch.used := by
  unfold storeIf writeMedium
  split
  · split <;> exact ⟨rfl, rfl, rfl, rfl⟩
  · exact ⟨rfl, rfl, rfl, rfl⟩

theorem storeIf_agree {T : Nat → Prop} {needed : Bool} {n : Nat} (h : needed = true → Room T i ch)
    (hn : needed = true → (n : Int) ≤ ch.used + ch.left) (hT : ∀ k, T k → S i k) :
    MediaAgree S ch (storeIf ch i needed (ch.lba * 512) n).1 := by
  cases needed
  · exact .of_eq rfl
  · exact writeMedium_agree ch i
      (fun k hlo hhi => hT k ((h rfl).inside k hlo (by have := hn rfl; omega)))
      fun f hf => by have := (h rfl).fits f hf; have := hn rfl; omega

theorem blockDone_spec (toMem : Bool) (ch : IdeChannel) (i : Fin kIdeDrivesPerChannel) :
    (blockDone toMem ch i).1.blockSize = ch.blockSize ∧ (blockDone toMem ch i).1.left = ch.left ∧
      ((blockDone toMem ch i).2 = false → (blockDone toMem ch i).1.used = 0) := by
  obtain ⟨hblock, hleft, -, -⟩ :=
    storeIf_cursor ch i (!toMem) (ch.lba * ch.blockSize) ch.blockSize.toNat
  unfold blockDone
  dsimp only
  split
  · exact ⟨hblock, hleft, fun _ => rfl⟩
  · exact ⟨hblock, hleft, fun h => nomatch h⟩

theorem blockDone_ok (hused : ch.used = ch.blockSize) (h : Room (S i) i ch) :
    MediaAgree S ch (blockDone toMem ch i).1 ∧ Room (S i) i (blockDone toMem ch i).1 := by
  obtain ⟨hblock, hleft, hlba, hused'⟩ :=
    storeIf_cursor ch i (!toMem) (ch.lba * ch.blockSize) ch.blockSize.toNat
  have hfive := h.block
  have hpos := h.left
  have hagree : MediaAgree S ch
      (storeIf ch i (!toMem) (ch.lba * ch.blockSize) ch.blockSize.toNat).1 := by
    rw [hfive]
    exact storeIf_agree (fun _ => h) (fun _ => by omega) fun _ hk => hk
  unfold blockDone
  dsimp only
  generalize storeIf ch i (!toMem) (ch.lba * ch.blockSize) ch.blockSize.toNat = r at *
  split
  · have hnext : MediaAgree S ch (nextBlock r.1) := hagree.trans (.of_eq rfl)
    refine ⟨hnext, h.advance hnext hblock ?_ ?_ ?_⟩ <;> simp only [nextBlock] <;> omega
  · refine ⟨hagree, h.advance hagree hblock ?_ ?_ ?_⟩ <;> dsimp only <;> omega

theorem prdRefill_spec (toMem : Bool) (ch : IdeChannel) (i : Fin kIdeDrivesPerChannel) :
    let ch' := (prdRefill toMem ch i).1
    ch'.media = ch.media ∧ ch'.blockSize = ch.blockSize ∧ ch'.left = ch.left ∧ ch'.lba = ch.lba ∧
      ch'.used = ch.used := by
  unfold prdRefill fetchIf readMedium
  split
  · split <;> exact ⟨rfl, rfl, rfl, rfl, rfl⟩
  · exact ⟨rfl, rfl, rfl, rfl, rfl⟩

variable {n : Int}

theorem Moved.piece {w' : World D} (hbus : OpenBus w'.bus) (hmedia : ch'.media = ch.media)
    (hblock : ch'.blockSize = ch.blockSize) (hlba : ch'.lba = ch.lba)
    (hused : ch'.used = ch.used + n) (hleft : ch'.left = ch.left - n) (hn : n ≤ ch.left) :
    Moved toMem S i ch ch' w' := by
  refine ⟨hbus, hblock, fun hok => ⟨.of_eq hmedia, ?_⟩⟩
  rcases hok with hdir | hshort | hroom
  · exact .inl hdir
  · exact .inr (.inl (by omega))
  · exact .inr (.inr (hroom.advance (S := S) (.of_eq hmedia) hblock (by omega) (by omega)
      (by rw [hlba]; omega)))

theorem Moved.blockDone {w' : World D} (hbus : OpenBus w'.bus) (hused : ch.used = ch.blockSize)
    (hleft : 0 ≤ ch.left) : Moved toMem S i ch (blockDone toMem ch i).1 w' := by
  refine ⟨hbus, (blockDone_spec toMem ch i).1, fun hok => ?_⟩
  rcases hok with rfl | hshort | hroom
  · exact ⟨.of_eq rfl, .inl rfl⟩
  · omega
  · exact ⟨(blockDone_ok hused hroom).1, .inr (.inr (blockDone_ok hused hroom).2)⟩

theorem prdPiece_safe (h : OpenBus w.bus) (addr off : BitVec 32) (hpos : 0 < ch.left)
    (hn : n ≤ ch.left) :
    (prdPiece toMem i addr off n ch w).Safe fun r =>
      Moved toMem S i ch r.1 r.2.1 ∧ (r.2.2 = false → r.1.left = ch.left - n ∧
        (ch.used + n = ch.blockSize → r.1.used = 0) ∧
        (ch.used + n ≠ ch.blockSize → r.1.used = ch.used + n)) := by
  obtain ⟨hmedia, hblock, hleft, hlba, hused⟩ := prdRefill_spec toMem ch i
  unfold prdPiece
  dsimp only
  split
  · refine ⟨.piece (n := 0) h hmedia hblock hlba ?_ ?_ (by omega), fun hf => nomatch hf⟩
    · exact hused.trans (by omega)
    · exact hleft.trans (by omega)
  refine (memMove_safe h toMem _ _ _ _).bind fun m hm => ?_
  generalize hto : (prdRefill toMem ch i).1.advance m.1 n = ch'
  have hused' : ch'.used = ch.used + n := by rw [← hused, ← hto]; rfl
  have hleft' : ch'.left = ch.left - n := by rw [← hleft, ← hto]; rfl
  have hblock' : ch'.blockSize = ch.blockSize := by rw [← hblock, ← hto]; rfl
  have hmoved : Moved toMem S i ch ch' m.2 := by
    refine .piece hm (by rw [← hmedia, ← hto]; rfl) hblock' (by rw [← hlba, ← hto]; rfl) hused'
      hleft' hn
  obtain ⟨-, hleftDone, husedDone⟩ := blockDone_spec toMem ch' i
  split
  · next hfull =>
    refine ⟨hmoved.trans (.blockDone hm hfull (by omega)), fun hok => ⟨?_, ?_, ?_⟩⟩
    · exact hleftDone.trans hleft'
    · exact fun _ => husedDone hok
    · omega
  · exact ⟨hmoved, fun _ => ⟨hleft', fun heq => absurd heq (by omega), fun _ => hused'⟩⟩

/-! ## The loops -/

theorem pieceBytes_le_left (ch : IdeChannel) (count off : BitVec 32) :
    pieceBytes ch count off ≤ ch.left := by
  unfold pieceBytes
  omega

theorem prdLoop_safe (h : OpenBus w.bus) (addr count off : BitVec 32) (fuel : Nat) :
    (prdLoop toMem i addr count fuel off ch w).Safe fun r => Moved toMem S i ch r.1 r.2.1 := by
  induction fuel generalizing off ch w with
  | zero => trivial
  | succ fuel ih =>
    rw [prdLoop]
    split
    · exact .refl h
    rename_i hgo
    have hpos : 0 < ch.left := by
      by_contra hneg
      exact hgo fun hand => hneg hand.2
    refine (prdPiece_safe (S := S) h addr off hpos (pieceBytes_le_left ..)).bind fun r hr => ?_
    split
    · exact hr.1
    · exact (ih hr.1.bus _).mono fun a ha => hr.1.trans ha

theorem tableLoop_safe (h : OpenBus w.bus) (prd : BitVec 32) (fuel : Nat) :
    (tableLoop toMem i fuel prd ch w).Safe fun r => Moved toMem S i ch r.1 r.2.1 := by
  induction fuel generalizing prd ch w with
  | zero => trivial
  | succ fuel ih =>
    rw [tableLoop]
    split
    · exact .refl h
    refine (memRead32_safe h prd).bind fun a ha => ?_
    refine (memRead32_safe ha (prd + 4)).bind fun c hc => ?_
    refine (prdLoop_safe (S := S) hc _ _ _ _).bind fun r hr => ?_
    split
    · exact hr
    · exact (ih hr.bus _).mono fun b hb => hr.trans hb

/-! ## Every transfer ends -/

theorem prdPiece_ends (h : OpenBus w.bus) (addr off : BitVec 32) (n : Int) (ch : IdeChannel) :
    (prdPiece toMem i addr off n ch w).Ends fun _ => True := by
  unfold prdPiece
  dsimp only
  split
  · trivial
  · refine (memMove_safe h toMem _ _ _ _).ends_ofBus.bind fun m _ => ?_
    split <;> trivial

theorem prdPiece_progress (h : OpenBus w.bus) (addr : BitVec 32) (hblock : 0 < ch.blockSize)
    (hpos : 0 < ch.left) :
    (prdPiece toMem i addr off (pieceBytes ch count off) ch w).Ends fun r =>
      OpenBus r.2.1.bus ∧ r.1.blockSize = ch.blockSize ∧ (r.2.2 = false →
        r.1.used < ch.blockSize ∧ r.1.left = ch.left - pieceBytes ch count off) := by
  refine ((prdPiece_ends h addr off _ ch).and_safe
    (prdPiece_safe (S := fun _ _ => True) h addr off hpos (pieceBytes_le_left ..))).mono ?_
  intro r ⟨_, hmoved, hcursor⟩
  refine ⟨hmoved.bus, hmoved.block, fun hok => ⟨?_, (hcursor hok).1⟩⟩
  obtain ⟨-, hfull, hpart⟩ := hcursor hok
  have hle : pieceBytes ch count off ≤ ch.blockSize - ch.used := by
    unfold pieceBytes
    omega
  by_cases heq : ch.used + pieceBytes ch count off = ch.blockSize
  · rw [hfull heq]
    exact hblock
  · omega

theorem pieceBytes_bounds (hused : ch.used < ch.blockSize) (hoff : off < count)
    (hpos : 0 < ch.left) :
    0 < pieceBytes ch count off ∧ pieceBytes ch count off ≤ (count - off).toNat := by
  have hroom : 0 < (count - off).toNat := by bv_omega
  unfold pieceBytes
  omega

theorem offset_advance (hoff : off < count) (hn : 0 < n) (hle : n ≤ (count - off).toNat) :
    off + .ofInt 32 n ≤ count ∧
      ((count - (off + .ofInt 32 n)).toNat : Int) = (count - off).toNat - n := by
  constructor <;> bv_omega

structure Descended (blockSize left : Int) (r : IdeChannel × World D × Bool) : Prop where
  bus : OpenBus r.2.1.bus
  block : r.1.blockSize = blockSize
  cursor : r.2.2 = false → r.1.used < blockSize ∧ r.1.left ≤ left

theorem Descended.le {blockSize left left' : Int} {r : IdeChannel × World D × Bool}
    (h : Descended blockSize left r) (hle : left ≤ left') : Descended blockSize left' r :=
  ⟨h.bus, h.block, fun hok => ⟨(h.cursor hok).1, Int.le_trans (h.cursor hok).2 hle⟩⟩

variable {fuel : Nat}

theorem prdLoop_ends (h : OpenBus w.bus) (addr : BitVec 32)
    (hused : ch.used < ch.blockSize) (hblock : 0 < ch.blockSize) (hfuel : 0 < fuel)
    (henough : off < count → (count - off).toNat < fuel) :
    (prdLoop toMem i addr count fuel off ch w).Ends (Descended ch.blockSize ch.left) := by
  induction fuel generalizing off ch w with
  | zero => omega
  | succ fuel ih =>
    rw [prdLoop]
    split
    · exact ⟨h, rfl, fun _ => ⟨hused, Int.le_refl _⟩⟩
    rename_i hgo
    obtain ⟨hlt, hpos⟩ := not_not.mp hgo
    obtain ⟨hn, hle⟩ := pieceBytes_bounds hused hlt hpos
    have hrest := offset_advance hlt hn hle
    have henough := henough hlt
    refine (prdPiece_progress h addr hblock hpos).bind fun r ⟨hbus, hsame, hcursor⟩ => ?_
    split
    · next hfailed => exact ⟨hbus, hsame, fun hok => by rw [hok] at hfailed; cases hfailed⟩
    rename_i hok
    obtain ⟨hused', hleft'⟩ := hcursor (by simpa using hok)
    have hend : (prdLoop toMem i addr count fuel (off + .ofInt 32 (pieceBytes ch count off))
        r.1 r.2.1).Ends (Descended r.1.blockSize r.1.left) :=
      ih hbus (by omega) (by omega) (by omega) (by omega)
    rw [hsame] at hend
    exact hend.mono fun a ha => ha.le (by omega)

/-- The least a descriptor moves a cursor: a cursor past its block gives back the excess. -/
def leastMove (ch : IdeChannel) : Int :=
  if ch.used < ch.blockSize then 1 else ch.blockSize - ch.used

theorem prdLoop_descriptor (h : OpenBus w.bus) (addr : BitVec 32) (hcount : 0 < count.toNat)
    (hcount' : count.toNat ≤ 2 ^ 16) (hblock : 0 < ch.blockSize) (hpos : 0 < ch.left) :
    (prdLoop toMem i addr count kPrdFuel 0 ch w).Ends
      (Descended ch.blockSize (ch.left - leastMove ch)) := by
  have hlt : 0 < count := by bv_omega
  have hn : leastMove ch ≤ pieceBytes ch count 0 := by
    have hroom : 0 < (count - 0).toNat := by bv_omega
    unfold leastMove pieceBytes
    split <;> omega
  rw [kPrdFuel, show 2 ^ 17 = (2 ^ 17 - 1) + 1 from rfl, prdLoop, if_neg (not_not.mpr ⟨hlt, hpos⟩)]
  refine (prdPiece_progress h addr hblock hpos).bind fun r ⟨hbus, hsame, hcursor⟩ => ?_
  split
  · next hfailed => exact ⟨hbus, hsame, fun hok => by rw [hok] at hfailed; cases hfailed⟩
  rename_i hok
  obtain ⟨hused', hleft'⟩ := hcursor (by simpa using hok)
  have hend : (prdLoop toMem i addr count (2 ^ 17 - 1) (0 + .ofInt 32 (pieceBytes ch count 0))
      r.1 r.2.1).Ends (Descended r.1.blockSize r.1.left) :=
    prdLoop_ends hbus addr (by omega) (by omega) (by omega) fun hlt' => by bv_omega
  rw [hsame] at hend
  exact hend.mono fun a ha => ha.le (by omega)

theorem prdCount_bounds (second : BitVec 32) :
    let count := if second &&& 0xffff#32 = 0 then 0x10000#32 else second &&& 0xffff#32
    0 < count.toNat ∧ count.toNat ≤ 2 ^ 16 := by
  have hle : (second &&& 0xffff#32).toNat ≤ 0xffff := by
    exact Nat.and_le_right
  split
  · decide
  · next h =>
    have hne : (second &&& 0xffff#32).toNat ≠ 0 := fun h0 => h (BitVec.eq_of_toNat_eq h0)
    omega

/-- One descriptor, and the rest of the table where it leaves the cursor. -/
theorem tableLoop_succ (h : OpenBus w.bus) (prd : BitVec 32) (hblock : 0 < ch.blockSize)
    (hrest : ∀ (prd : BitVec 32) (ch' : IdeChannel) (w' : World D), OpenBus w'.bus →
      ch'.used < ch'.blockSize → 0 < ch'.blockSize → 0 < ch.left →
      ch'.left ≤ ch.left - leastMove ch → (tableLoop toMem i fuel prd ch' w').Ends fun _ => True) :
    (tableLoop toMem i (fuel + 1) prd ch w).Ends fun _ => True := by
  rw [tableLoop]
  split
  · trivial
  rename_i hpos
  have hpos := not_not.mp hpos
  refine (memRead32_safe h prd).ends_ofBus.bind fun a ha => ?_
  refine (memRead32_safe ha (prd + 4)).ends_ofBus.bind fun c hc => ?_
  obtain ⟨hlo, hhi⟩ := prdCount_bounds c.1
  refine (prdLoop_descriptor hc _ hlo hhi hblock hpos).bind fun r hr => ?_
  split
  · trivial
  rename_i hgo
  simp only [Bool.or_eq_true, not_or, Bool.not_eq_true] at hgo
  obtain ⟨hused', hleft'⟩ := hr.cursor hgo.1
  exact hrest _ _ _ hr.bus (hr.block.symm ▸ hused') (hr.block.symm ▸ hblock) hpos hleft'

theorem tableLoop_ends (h : OpenBus w.bus) (prd : BitVec 32)
    (hused : ch.used < ch.blockSize) (hblock : 0 < ch.blockSize) (hfuel : ch.left.toNat < fuel) :
    (tableLoop toMem i fuel prd ch w).Ends fun _ => True := by
  induction fuel generalizing prd ch w with
  | zero => omega
  | succ fuel ih =>
    refine tableLoop_succ h prd hblock fun prd ch' w' hbus hused' hblock' hpos hleft' => ?_
    rw [leastMove] at hleft'
    exact ih hbus prd hused' hblock' (by omega)

theorem tableLoop_ends_any (h : OpenBus w.bus) (prd : BitVec 32)
    (hblock : 0 < ch.blockSize) (hfuel : ch.left.toNat + ch.used.toNat + 2 ≤ fuel) :
    (tableLoop toMem i fuel prd ch w).Ends fun _ => True := by
  obtain ⟨fuel, rfl⟩ : ∃ n, fuel = n + 1 := ⟨fuel - 1, by omega⟩
  refine tableLoop_succ h prd hblock fun prd ch' w' hbus hused' hblock' _ hleft' => ?_
  have hleast : -ch.used.toNat ≤ leastMove ch := by
    unfold leastMove
    split <;> omega
  exact tableLoop_ends hbus prd hused' hblock' (by omega)

section

variable (ch : IdeChannel) (i : Fin kIdeDrivesPerChannel) (failed : Bool)

@[simp] theorem media_bmdmaEnd :
    (bmdmaEnd ch i failed).media = ch.media := by
  unfold bmdmaEnd bmdmaFinish
  dsimp only
  split
  · rw [media_mediumReadFailed]
    rfl
  split
  · rw [media_abort]
    rfl
  · rw [media_endCommand]
    rfl

@[simp] theorem active_bmdmaEnd :
    (bmdmaEnd ch i failed).active = none := by
  unfold bmdmaEnd bmdmaFinish
  dsimp only
  split
  · exact active_mediumReadFailed _ _
  · split <;> rfl

end

/-- The engine's run: it is never fatal and leaves no command active. When the engine may run,
the media are as they were outside `S`. -/
theorem bmdmaRun_safe (S : Fin kIdeDrivesPerChannel → Nat → Prop) (h : OpenBus w.bus) :
    (bmdmaRun ch i w).Safe fun r => OpenBus r.2.bus ∧ r.1.active = none ∧
      (EngineOk ch.toMem (S i) i ch → MediaAgree S ch r.1) := by
  refine (tableLoop_safe (S := S) h _ _).bind
    fun r hr => ⟨hr.bus, active_bmdmaEnd .., fun hok => ?_⟩
  have hok' : EngineOk ch.toMem (S i) i { ch with dma := true } := by
    refine hok.imp_right (.imp_right fun hroom => ?_)
    exact hroom.advance (S := S) (.of_eq rfl) rfl hroom.left (Int.le_refl _) (Int.le_refl _)
  have hstart : MediaAgree S ch { ch with dma := true } := .of_eq rfl
  exact (hstart.trans (hr.ok hok').1).trans (.of_eq (media_bmdmaEnd ..))

theorem bmdmaRun_ends (h : OpenBus w.bus) (hblock : 0 < ch.blockSize) :
    (bmdmaRun ch i w).Ends fun _ => True :=
  (tableLoop_ends_any h _ (by exact hblock) (Nat.le_refl _)).bind fun _ _ => trivial

/-- On a board with any RAM size it accepts and any programming of its map, every address a device
can put on the memory bus is claimed, so no transfer of the 8237 or of the engine is fatal. -/
theorem dma_never_fatal (w : { w : World D // X86Map w.bus }) :
    (∀ addr : BitVec 32, (w.1.regionAt (addr.setWidth 64) 1).isSome) ∧
      (∀ d channel buf len, (i8237Transfer d channel buf len w.1).isSome) ∧
      (∀ addr, (memRead32 w.1 addr).isSome) ∧
      (∀ toMem addr buf used n, (memMove toMem addr buf used n w.1).isSome) ∧
      ∀ ch i, bmdmaRun ch i w.1 ≠ .fatal := by
  have hopen := w.2.openBus
  refine ⟨fun addr => ?_, fun d channel buf len => ?_, fun addr => ?_,
    fun toMem addr buf used n => ?_,
    fun ch i => ?_⟩
  · obtain ⟨r, hr⟩ := hopen.regionAt addr
    rw [hr]
    rfl
  · obtain ⟨t, ht⟩ := i8237Transfer_isSome hopen d channel buf len
    rw [ht]
    rfl
  · have hsafe := memRead32_safe hopen addr
    cases hread : memRead32 w.1 addr with
    | none => rw [hread] at hsafe; exact hsafe.elim
    | some r => rfl
  · have hsafe := memMove_safe hopen toMem addr buf used n
    cases hmove : memMove toMem addr buf used n w.1 with
    | none => rw [hmove] at hsafe; exact hsafe.elim
    | some r => rfl
  · intro hfatal
    have hsafe : (bmdmaRun ch i w.1).Safe _ := bmdmaRun_safe (fun _ _ => True) hopen
    rw [hfatal] at hsafe
    exact hsafe

end

end Cemu.Storage
