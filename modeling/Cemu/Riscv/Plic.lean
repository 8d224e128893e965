import Cemu.Lib.FirstLeast

/-!
# The platform-level interrupt controller

`device/intc/plic.c` on the virt board, whose sink is set before the guest runs: `line` holds the
level last given to `set_irq` for each context. The register file is accessed by words; an access
of eight bytes is one or two of them. Offsets are those inside the window, where the `int` casts
are exact.
-/

namespace Cemu.Plic

open Function

def kPlicNumSrc : Nat := 95
def kPlicNumCtx : Nat := 2
def kPlicNumWords : Nat := 3

def kPlicOffPending : Nat := 0x1000
def kPlicOffEnable : Nat := 0x2000
def kPlicEnableStride : Nat := 0x80
def kPlicOffContext : Nat := 0x200000
def kPlicContextStride : Nat := 0x1000

structure PlicDevice where
  priority : Nat → BitVec 32
  pending : Nat → BitVec 32
  enable : Nat → Nat → BitVec 32
  threshold : Nat → BitVec 32
  line : Nat → Bool

def plicInit : PlicDevice := ⟨fun _ => 0, fun _ => 0, fun _ _ => 0, fun _ => 0, fun _ => false⟩

def sources : List Nat := List.range' 1 kPlicNumSrc

variable (p : PlicDevice)

namespace PlicDevice

def isPending (src : Nat) : Bool := (p.pending (src / 32)).getLsbD (src % 32)

def enabled (ctx src : Nat) : Bool :=
  (p.enable ctx (src / 32)).getLsbD (src % 32)

def claimable (ctx src : Nat) : Bool :=
  p.isPending src && p.enabled ctx src && decide (p.threshold ctx < p.priority src)

def setPending (src : Nat) (level : Bool) : PlicDevice :=
  let bit := 1#32 <<< (src % 32)
  let word := p.pending (src / 32)
  let word := if level then word ||| bit else word &&& ~~~bit
  { p with pending := update p.pending (src / 32) word }

def setPriority (src : Nat) (val : BitVec 32) : PlicDevice :=
  { p with priority := update p.priority src val }

end PlicDevice

def updateOutput : PlicDevice :=
  { p with line := fun ctx => sources.any (p.claimable ctx) }

def plicDeviceIrq (src : Nat) (level : Bool) : PlicDevice :=
  if src < 1 ∨ kPlicNumSrc < src then p else updateOutput (p.setPending src level)

def PlicDevice.rank (src : Nat) : Natᵒᵈ := OrderDual.toDual (p.priority src).toNat

/-- The loop of `Claim` keeps the best source so far and replaces it by one of strictly higher
priority. -/
def claim (ctx : Nat) : Nat :=
  match firstLeast (p.claimable ctx) p.rank sources with
  | none => 0
  | some (_, src) => src

def readWord (off : Nat) : BitVec 32 × PlicDevice :=
  if off < kPlicOffPending then
    (if 1 ≤ off / 4 ∧ off / 4 ≤ kPlicNumSrc then p.priority (off / 4) else 0, p)
  else if off < kPlicOffEnable then
    let word := (off - kPlicOffPending) / 4
    (if word < kPlicNumWords then p.pending word else 0, p)
  else if off < kPlicOffContext then
    let rel := off - kPlicOffEnable
    let ctx := rel / kPlicEnableStride
    let widx := rel % kPlicEnableStride / 4
    (if ctx < kPlicNumCtx ∧ widx < kPlicNumWords then p.enable ctx widx else 0, p)
  else
    let rel := off - kPlicOffContext
    let ctx := rel / kPlicContextStride
    let field := rel % kPlicContextStride / 4
    if ctx < kPlicNumCtx then
      if field = 0 then (p.threshold ctx, p)
      else if field = 1 then
        let src := claim p ctx
        (BitVec.ofNat 32 src, if src ≠ 0 then updateOutput (p.setPending src false) else p)
      else (0, p)
    else (0, p)

def writeWord (off : Nat) (val : BitVec 32) : PlicDevice :=
  if off < kPlicOffPending then
    if 1 ≤ off / 4 ∧ off / 4 ≤ kPlicNumSrc then p.setPriority (off / 4) (val &&& 7) else p
  else if off < kPlicOffEnable then p
  else if off < kPlicOffContext then
    let rel := off - kPlicOffEnable
    let ctx := rel / kPlicEnableStride
    let widx := rel % kPlicEnableStride / 4
    updateOutput (if ctx < kPlicNumCtx ∧ widx < kPlicNumWords then
      { p with enable := update p.enable ctx (update (p.enable ctx) widx val) }
      else p)
  else
    let rel := off - kPlicOffContext
    let ctx := rel / kPlicContextStride
    updateOutput (if ctx < kPlicNumCtx ∧ rel % kPlicContextStride / 4 = 0 then
      { p with threshold := update p.threshold ctx val }
      else p)

/-! ### The outputs -/

/-- A word access or a change of a device line. An access of the bus is one or two words. -/
inductive PlicOp where
  | irq (src : Nat) (level : Bool)
  | read (off : Nat)
  | write (off : Nat) (val : BitVec 32)
  deriving DecidableEq

def step : PlicOp → PlicDevice
  | .irq src level => plicDeviceIrq p src level
  | .read off => (readWord p off).2
  | .write off val => writeWord p off val

variable {p : PlicDevice} {ctx src : Nat}

def OutputsRight (p : PlicDevice) : Prop :=
  ∀ ctx < kPlicNumCtx, p.line ctx = true ↔ ∃ src ∈ sources, p.claimable ctx src = true

/-- A priority write takes no context across the line between having a claimable source and having
none. The other operations drive the outputs. -/
def Steady (p : PlicDevice) : PlicOp → Prop
  | .write off val => off / 4 ∈ sources → off < kPlicOffPending → ∀ ctx < kPlicNumCtx,
      p.isPending (off / 4) = true → p.enabled ctx (off / 4) = true →
      (p.threshold ctx < p.priority (off / 4) ↔ p.threshold ctx < val &&& 7) ∨
        ∃ src ∈ sources, src ≠ off / 4 ∧ p.claimable ctx src = true
  | _ => True

theorem mem_sources : src ∈ sources ↔ 1 ≤ src ∧ src ≤ kPlicNumSrc := by
  simp only [sources, List.mem_range'_1]
  omega

theorem updateOutput_right (p : PlicDevice) : OutputsRight (updateOutput p) := by
  intro ctx _
  exact List.any_eq_true

/-- The source a claim is owed: the lowest of those of highest priority. -/
def ClaimRight (p : PlicDevice) (ctx r : Nat) : Prop :=
  (r = 0 ∧ ∀ src ∈ sources, p.claimable ctx src = false) ∨
  (r ∈ sources ∧ p.claimable ctx r = true ∧ ∀ src ∈ sources, p.claimable ctx src = true →
    p.priority src ≤ p.priority r ∧ (p.priority src = p.priority r → r ≤ src))

/-- What an operation that is no priority write does to the outputs. -/
theorem writeWord_driven {off : Nat} (hoff : kPlicOffPending ≤ off) (val : BitVec 32) :
    writeWord p off val = p ∨ ∃ q, writeWord p off val = updateOutput q := by
  unfold writeWord
  rw [if_neg (Nat.not_lt.mpr hoff)]
  split
  · exact .inl rfl
  split
  · exact .inr ⟨_, rfl⟩
  · exact .inr ⟨_, rfl⟩

theorem readWord_driven (off : Nat) :
    (readWord p off).2 = p ∨ ∃ q, (readWord p off).2 = updateOutput q := by
  unfold readWord
  dsimp only
  split_ifs
  all_goals first | exact .inl rfl | exact .inr ⟨_, rfl⟩

/-- A priority write leaves the outputs as they are, so they are right afterwards exactly if the
claimable sources of no context come or go. -/
theorem priority_right_iff (h : OutputsRight p) {off : Nat} (hoff : off < kPlicOffPending)
    (val : BitVec 32) : OutputsRight (writeWord p off val) ↔ Steady p (.write off val) := by
  simp only [writeWord, if_pos hoff, Steady]
  by_cases hsrc : 1 ≤ off / 4 ∧ off / 4 ≤ kPlicNumSrc
  · rw [if_pos hsrc]
    have hmem := mem_sources.mpr hsrc
    generalize off / 4 = src at *
    have hsplit (P : Nat → Prop) :
        (∃ s ∈ sources, P s) ↔ P src ∨ ∃ s ∈ sources, s ≠ src ∧ P s := by grind
    have hnew (v : BitVec 32) ctx : (∃ s ∈ sources, (p.setPriority src v).claimable ctx s = true) ↔
          (p.isPending src = true ∧ p.enabled ctx src = true ∧ p.threshold ctx < v) ∨
            ∃ s ∈ sources, s ≠ src ∧ p.claimable ctx s = true := by
      refine (hsplit _).trans (or_congr ?_ ?_)
      · simp [PlicDevice.claimable, PlicDevice.isPending, PlicDevice.enabled,
          PlicDevice.setPriority, and_assoc]
      · refine exists_congr fun s => and_congr_right fun _ => and_congr_right fun hne => ?_
        simp [PlicDevice.claimable, PlicDevice.isPending, PlicDevice.enabled,
          PlicDevice.setPriority, hne]
    have hold := hnew (p.priority src)
    rw [PlicDevice.setPriority, update_eq_self] at hold
    refine ⟨fun hright _ _ ctx hctx hpend hen => ?_, fun hsteady ctx hctx => ?_⟩
    · have hline := (h ctx hctx).symm.trans (hright ctx hctx)
      rw [hold, hnew] at hline
      by_cases hsome : ∃ s ∈ sources, s ≠ src ∧ p.claimable ctx s = true
      · exact .inr hsome
      · simpa [hpend, hen, hsome] using hline
    · refine (h ctx hctx).trans ?_
      rw [hold]
      grind
  · rw [if_neg hsrc]
    exact iff_of_true h fun hmem => absurd (mem_sources.mp hmem) hsrc

theorem getElem_sources {i src : Nat} : sources[i]? = some src ↔ src = i + 1 ∧ src ∈ sources := by
  rw [mem_sources, sources, List.getElem?_eq_some_iff]
  simp only [List.length_range', List.getElem_range']
  constructor
  · rintro ⟨hi, rfl⟩
    omega
  · rintro ⟨rfl, hsrc⟩
    exact ⟨by omega, by omega⟩

theorem claim_right (p : PlicDevice) (ctx : Nat) : ClaimRight p ctx (claim p ctx) := by
  have h : IsFirstLeast (p.claimable ctx) p.rank sources _ := isFirstLeast_firstLeast _
  unfold claim
  generalize firstLeast (p.claimable ctx) p.rank sources = best at h
  cases best with
  | none => exact .inl ⟨rfl, h⟩
  | some best =>
    obtain ⟨i, r⟩ := best
    obtain ⟨hi, hclaim, hleast⟩ := h
    dsimp only
    obtain ⟨hr, hmem⟩ := getElem_sources.mp hi
    refine .inr ⟨hmem, hclaim, fun src hsrc hother => ?_⟩
    have hj := getElem_sources.mpr ⟨(Nat.sub_add_cancel (mem_sources.mp hsrc).1).symm, hsrc⟩
    obtain ⟨hle, hlt⟩ := hleast (src - 1) src hj hother
    refine ⟨hle, fun heq => ?_⟩
    by_contra hbelow
    have hpos := (mem_sources.mp hsrc).1
    have hstrict : (p.priority src).toNat < (p.priority r).toNat := hlt (by omega)
    rw [heq] at hstrict
    omega

/-- The operations of a run in which every priority write is steady. -/
inductive PlicRun : PlicDevice → Prop
  | start : PlicRun plicInit
  | step {p : PlicDevice} (op : PlicOp) (hrun : PlicRun p) (hsteady : Steady p op) :
      PlicRun (step p op)

def claimOff (ctx : Nat) : Nat := kPlicOffContext + ctx * kPlicContextStride + 4

theorem readWord_claim (p : PlicDevice) (hctx : ctx < kPlicNumCtx) :
    readWord p (claimOff ctx) = (.ofNat 32 (claim p ctx),
      if claim p ctx ≠ 0 then updateOutput (p.setPending (claim p ctx) false) else p) := by
  have hcases : ctx = 0 ∨ ctx = 1 := by
    simp only [kPlicNumCtx] at hctx
    omega
  rcases hcases with rfl | rfl <;> rfl

theorem toNat_readWord_claim (p : PlicDevice) (hctx : ctx < kPlicNumCtx) :
    (readWord p (claimOff ctx)).1.toNat = claim p ctx := by
  have hsmall : claim p ctx < 2 ^ 32 := by
    rcases claim_right p ctx with ⟨hzero, -⟩ | ⟨hmem, -⟩
    · omega
    · have := (mem_sources.mp hmem).2
      simp only [kPlicNumSrc] at this
      omega
  rw [readWord_claim p hctx, BitVec.toNat_ofNat, Nat.mod_eq_of_lt hsmall]

/-- One operation keeps the outputs right exactly if it is steady. -/
theorem step_right_iff (h : OutputsRight p) (op : PlicOp) :
    OutputsRight (step p op) ↔ Steady p op := by
  cases op with
  | irq src level =>
    refine iff_of_true ?_ trivial
    unfold step plicDeviceIrq
    dsimp only
    split
    · exact h
    · exact updateOutput_right _
  | read off =>
    refine iff_of_true ?_ trivial
    rcases readWord_driven off with hsame | ⟨q, hdriven⟩
    · rwa [step, hsame]
    · rw [step, hdriven]
      exact updateOutput_right q
  | write off val =>
    by_cases hoff : off < kPlicOffPending
    · exact priority_right_iff h hoff val
    · refine iff_of_true ?_ fun _ h => absurd h hoff
      rcases writeWord_driven (Nat.not_lt.mp hoff) val with hsame | ⟨q, hdriven⟩
      · rwa [step, hsame]
      · rw [step, hdriven]
        exact updateOutput_right q

theorem PlicRun.right (h : PlicRun p) : OutputsRight p := by
  induction h with
  | start =>
    intro ctx _
    exact iff_of_false Bool.false_ne_true fun ⟨_, _, hclaim⟩ => by
      simp [PlicDevice.claimable, plicInit] at hclaim
  | step op _ hsteady ih => exact (step_right_iff ih op).mpr hsteady

/-- After every run of steady operations the outputs say which contexts have a claimable source,
and the next operation keeps them right exactly if it is steady. A claim is always right. -/
theorem plic_outputs_iff (hrun : PlicRun p) (op : PlicOp) :
    OutputsRight p ∧ (OutputsRight (step p op) ↔ Steady p op) ∧
      ∀ ctx < kPlicNumCtx, ClaimRight p ctx (readWord p (claimOff ctx)).1.toNat := by
  refine ⟨hrun.right, step_right_iff hrun.right op, fun ctx hctx => ?_⟩
  rw [toNat_readWord_claim p hctx]
  exact claim_right p ctx

/-- Source 1 enabled for context 0 and raised with priority 0. -/
def raised : PlicDevice :=
  [.write kPlicOffEnable 2, .irq 1 true].foldl step plicInit

theorem plic_outputs_raised :
    OutputsRight raised ∧ ClaimRight raised 0 (readWord raised (claimOff 0)).1.toNat := by
  have hrun : PlicRun raised :=
    .step (.irq 1 true)
      (.step (.write kPlicOffEnable 2) .start fun _ h => absurd h (by decide)) trivial
  have hright := plic_outputs_iff hrun (.read 0)
  exact ⟨hright.1, hright.2.2 0 (by decide)⟩

/-- Giving the raised source priority 1 makes it claimable and leaves the output low. -/
theorem priority_write_unseen :
    (step raised (.write 4 1)).claimable 0 1 = true ∧
      (step raised (.write 4 1)).line 0 = false := by
  decide

/-! ### Claims and completions -/

def runOps (p : PlicDevice) (ops : List PlicOp) : PlicDevice := ops.foldl step p

theorem isPending_setPending (p : PlicDevice) (s src : Nat) (level : Bool) :
    (p.setPending s level).isPending src = if src = s then level else p.isPending src := by
  by_cases hword : src / 32 = s / 32
  · simp only [PlicDevice.isPending, PlicDevice.setPending, hword]
    cases level <;> simp [BitVec.getLsbD_shiftLeft] <;> grind
  · have hne : src ≠ s := fun h => hword (by rw [h])
    simp [PlicDevice.isPending, PlicDevice.setPending, hword, hne]

/-- Only its own line makes a source pending again. -/
theorem step_not_pending (h : p.isPending src = false) {op : PlicOp} (hop : op ≠ .irq src true) :
    (step p op).isPending src = false := by
  cases op with
  | irq s level =>
    unfold step plicDeviceIrq
    dsimp only
    split
    · exact h
    · refine (isPending_setPending p s src level).trans ?_
      split
      · rename_i hsrc
        subst hsrc
        cases level with
        | false => rfl
        | true => exact absurd rfl hop
      · exact h
  | read off =>
    unfold step readWord
    dsimp only
    split_ifs
    all_goals first
      | exact h
      | refine (isPending_setPending p (claim p _) src false).trans ?_
        split
        · rfl
        · exact h
  | write off val =>
    unfold step writeWord
    dsimp only
    split_ifs <;> exact h

theorem runOps_not_pending (h : p.isPending src = false) {ops : List PlicOp}
    (hops : .irq src true ∉ ops) : (runOps p ops).isPending src = false := by
  induction ops generalizing p with
  | nil => exact h
  | cons op ops ih =>
    rw [List.mem_cons, not_or] at hops
    exact ih (step_not_pending h (.symm hops.1)) hops.2

theorem claim_pending (h : claim p ctx ≠ 0) : p.isPending (claim p ctx) = true := by
  rcases claim_right p ctx with ⟨hzero, -⟩ | ⟨-, hclaim, -⟩
  · exact absurd hzero h
  · simp only [PlicDevice.claimable, Bool.and_eq_true] at hclaim
    exact hclaim.1.1

/-- A claimed source is claimed by no context again until its own line is driven high, and a
completion only drives the outputs. -/
theorem claimed_until_raised (p : PlicDevice) (ctx : Nat) (hctx : ctx < kPlicNumCtx) :
    ((readWord p (claimOff ctx)).1 ≠ 0 → ∀ ops : List PlicOp,
      PlicOp.irq (readWord p (claimOff ctx)).1.toNat true ∉ ops → ∀ ctx' < kPlicNumCtx,
      (readWord (runOps (readWord p (claimOff ctx)).2 ops) (claimOff ctx')).1 ≠
        (readWord p (claimOff ctx)).1) ∧
    ∀ val, writeWord p (claimOff ctx) val = updateOutput p := by
  constructor
  · intro hclaimed ops hops ctx' hctx' hagain
    rw [toNat_readWord_claim p hctx] at hops
    have hsome : claim p ctx ≠ 0 := by
      rw [← toNat_readWord_claim p hctx]
      exact fun h => hclaimed (BitVec.eq_of_toNat_eq h)
    have hcleared : (readWord p (claimOff ctx)).2.isPending (claim p ctx) = false := by
      rw [readWord_claim p hctx, if_pos hsome]
      exact (isPending_setPending p _ _ false).trans (if_pos rfl)
    have hstill := runOps_not_pending hcleared hops
    have hsame := congrArg BitVec.toNat hagain
    rw [toNat_readWord_claim _ hctx', toNat_readWord_claim p hctx] at hsame
    rw [← hsame, claim_pending (hsame ▸ hsome)] at hstill
    cases hstill
  · have hcases : ctx = 0 ∨ ctx = 1 := by
      simp only [kPlicNumCtx] at hctx
      omega
    rcases hcases with rfl | rfl <;> exact fun _ => rfl

/-- Source 1 raised with priority 1 and enabled for both contexts. -/
def ready : PlicDevice :=
  runOps plicInit [.write 4 1, .write kPlicOffEnable 2,
    .write (kPlicOffEnable + kPlicEnableStride) 2, .irq 1 true]

/-- Context 0 has claimed it and the line is still high. -/
def served : PlicDevice := (readWord ready (claimOff 0)).2

theorem claimed_until_raised_served :
    (readWord (runOps served [.write (claimOff 0) 1]) (claimOff 1)).1 ≠
      (readWord ready (claimOff 0)).1 :=
  (claimed_until_raised ready 0 (by decide)).1 (by decide +kernel) [.write (claimOff 0) 1]
    (by simp) 1 (by decide)

/-- If the device repeats its level before the completion, context 1 claims the source again; if
it does not, the completion leaves the source not pending, though the line is high. -/
theorem served_twice_or_lost :
    (readWord ready (claimOff 0)).1 = 1 ∧
      (readWord (step served (.irq 1 true)) (claimOff 1)).1 = 1 ∧
      (step served (.write (claimOff 0) 1)).isPending 1 = false := by
  decide +kernel

end Cemu.Plic
