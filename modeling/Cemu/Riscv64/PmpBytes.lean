import Cemu.Riscv64.Translate

/-!
# riscv64: the PMP check of an access and of its bytes

The first entry that touches an access decides, and denies it when it holds only a part of
it. So a denied byte denies every access it belongs to, and the converse holds where no
boundary of an entry falls inside the access. The entry that decides an allowed access decides
each of its bytes.
-/

namespace Cemu.Rv64

open List

def byteAt (p : BitVec 64) (k : Nat) : BitVec 64 := p + BitVec.ofNat 64 k

/-- No boundary of an entry falls inside the access. -/
def PmpWhole (s : RiscvState) (p : BitVec 64) (size : Nat) : Prop :=
  ∀ i < kPmpCount, ∀ base len, pmpRegion s i = some (base, len) →
    (base ≤ p ∨ p + BitVec.ofNat 64 size ≤ base) ∧
      (base + len ≤ p ∨ p + BitVec.ofNat 64 size ≤ base + len)

section

variable {p base e : BitVec 64} {size k : Nat} (hfit : p.toNat + size < 2 ^ 64) (hk : k < size)

include hfit hk

/-- An access with an entry's boundaries outside it touches the entry as each byte does, and
then lies inside it. -/
theorem touches_whole (hbase : base ≤ p ∨ p + .ofNat 64 size ≤ base)
    (hend : e ≤ p ∨ p + .ofNat 64 size ≤ e) :
    ((p < e ∧ base < p + .ofNat 64 size) ↔ (byteAt p k < e ∧ base < byteAt p k + .ofNat 64 1)) ∧
    ((p < e ∧ base < p + .ofNat 64 size) → (base ≤ p ∧ p + .ofNat 64 size ≤ e) ∧
      (base ≤ byteAt p k ∧ byteAt p k + .ofNat 64 1 ≤ e)) := by
  rw [byteAt]
  bv_omega

theorem touches_byte (h : byteAt p k < e ∧ base < byteAt p k + .ofNat 64 1) :
    (base ≤ byteAt p k ∧ byteAt p k + .ofNat 64 1 ≤ e) ∧ (p < e ∧ base < p + .ofNat 64 size) := by
  rw [byteAt] at h ⊢
  bv_omega

theorem contains_byte (h : base ≤ p ∧ p + .ofNat 64 size ≤ e) :
    byteAt p k < e ∧ base < byteAt p k + .ofNat 64 1 := by
  rw [byteAt]
  bv_omega

end
variable {s : RiscvState} {p : BitVec 64} {size k : Nat} {is : List Nat} {mode : BitVec 8}

section

variable (hfit : p.toNat + size < 2 ^ 64)
include hfit

theorem pmpScan_whole (hk : k < size) (acc : Acc) (mode : BitVec 8)
    (hwhole : ∀ i ∈ is, ∀ base len, pmpRegion s i = some (base, len) →
      (base ≤ p ∨ p + .ofNat 64 size ≤ base) ∧ (base + len ≤ p ∨ p + .ofNat 64 size ≤ base + len))
    (active : Bool) :
    pmpScan s p (.ofNat 64 size) acc mode is active =
      pmpScan s (byteAt p k) (.ofNat 64 1) acc mode is active := by
  induction is generalizing active with
  | nil => rfl
  | cons i rest ih =>
    have hrest := ih fun j hj => hwhole j (mem_cons_of_mem _ hj)
    rw [pmpScan, pmpScan]
    cases hregion : pmpRegion s i with
    | none => exact hrest active
    | some r =>
      obtain ⟨base, len⟩ := r
      obtain ⟨hbase, hend⟩ := hwhole i mem_cons_self base len hregion
      obtain ⟨hiff, hin⟩ := touches_whole hfit hk hbase hend
      simp only
      by_cases htouch : p < base + len ∧ base < p + .ofNat 64 size
      · obtain ⟨hwide, hbyte⟩ := hin htouch
        rw [if_neg (not_not_intro htouch), if_neg (not_not_intro (hiff.1 htouch)),
          if_neg (not_not_intro hwide), if_neg (not_not_intro hbyte)]
      · rw [if_pos htouch, if_pos (mt hiff.2 htouch)]
        exact hrest true

theorem riscvPmpAllowed_whole (hk : k < size) (hwhole : PmpWhole s p size) (acc : Acc)
    (mode : BitVec 8) :
    riscvPmpAllowed s p size acc mode = riscvPmpAllowed s (byteAt p k) 1 acc mode :=
  pmpScan_whole hfit hk acc mode (fun i hi => hwhole i (mem_range.1 hi)) false

theorem pmpScan_denied (hk : k < size) {acc : Acc} {active : Bool}
    (h : pmpScan s (byteAt p k) (.ofNat 64 1) acc mode is active = false) :
    pmpScan s p (.ofNat 64 size) acc mode is active = false := by
  induction is generalizing active with
  | nil => exact h
  | cons i rest ih =>
    rw [pmpScan] at h ⊢
    cases hregion : pmpRegion s i with
    | none =>
      rw [hregion] at h
      exact ih h
    | some r =>
      obtain ⟨base, len⟩ := r
      rw [hregion] at h
      simp only at h ⊢
      by_cases hbyte : byteAt p k < base + len ∧ base < byteAt p k + .ofNat 64 1
      · obtain ⟨hin, htouch⟩ := touches_byte hfit hk hbyte
        rw [if_neg (not_not_intro hbyte), if_neg (not_not_intro hin)] at h
        rw [if_neg (not_not_intro htouch)]
        split
        · rfl
        · exact h
      · rw [if_pos hbyte] at h
        by_cases htouch : p < base + len ∧ base < p + .ofNat 64 size
        · -- the byte is not in the entry, so the access straddles it
          rw [if_neg (not_not_intro htouch), if_pos (mt (contains_byte hfit hk) hbyte)]
        · rw [if_pos htouch]
          exact ih h

theorem riscvPmpAllowed_denied (hk : k < size) {acc : Acc}
    (h : riscvPmpAllowed s (byteAt p k) 1 acc mode = false) :
    riscvPmpAllowed s p size acc mode = false :=
  pmpScan_denied hfit hk h

end

/-! ### The deciding entry -/

/-- The loop's test, with its wrapping sums. -/
def pmpMatches (s : RiscvState) (addr len : BitVec 64) (i : Nat) : Bool :=
  match pmpRegion s i with
  | none => false
  | some (base, size) => decide (addr < base + size ∧ base < addr + len)

/-- The first entry whose test matches. -/
def pmpDecider (s : RiscvState) (addr : BitVec 64) (len : Nat) : Option Nat :=
  (range kPmpCount).find? (pmpMatches s addr (BitVec.ofNat 64 len))

/-- What a matching entry says: it holds the whole access, and M mode may pass or the
configuration grants it. -/
def pmpVerdict (s : RiscvState) (addr len : BitVec 64) (acc : Acc) (mode : BitVec 8) (i : Nat) :
    Bool :=
  match pmpRegion s i with
  | none => false
  | some (base, size) =>
    decide (base ≤ addr ∧ addr + len ≤ base + size) &&
      (decide (mode = kPrivMachine ∧ pmpCfg s i &&& kPmpL = 0) || pmpGrants (pmpCfg s i) acc)

/-- The scan asks the first matching entry, and without one lets M mode pass, or everyone when no
entry is active. -/
theorem pmpScan_eq_verdict (s : RiscvState) (addr len : BitVec 64) (acc : Acc) (mode : BitVec 8)
    (is : List Nat) (active : Bool) :
    pmpScan s addr len acc mode is active = match is.find? (pmpMatches s addr len) with
      | some i => pmpVerdict s addr len acc mode i
      | none =>
        !(active || is.any fun i => (pmpRegion s i).isSome) || decide (mode = kPrivMachine) := by
  induction is generalizing active with
  | nil => simp [pmpScan]
  | cons i rest ih =>
    rw [pmpScan]
    cases hregion : pmpRegion s i with
    | none =>
      have hno : pmpMatches s addr len i = false := by rw [pmpMatches, hregion]
      rw [find?_cons_of_neg (by simp [hno]), any_cons, hregion]
      exact ih active
    | some r =>
      obtain ⟨base, size⟩ := r
      by_cases htouch : addr < base + size ∧ base < addr + len
      · have hyes : pmpMatches s addr len i = true := by
          rw [pmpMatches, hregion]
          exact decide_eq_true htouch
        rw [find?_cons_of_pos hyes]
        simp only [pmpVerdict, hregion, if_neg (not_not_intro htouch)]
        by_cases hin : base ≤ addr ∧ addr + len ≤ base + size
        · rw [if_neg (not_not_intro hin), decide_eq_true hin, Bool.true_and]
          split
          · next hm => rw [decide_eq_true hm, Bool.true_or]
          · next hm => rw [decide_eq_false hm, Bool.false_or]
        · rw [if_pos hin, decide_eq_false hin, Bool.false_and]
      · have hno : pmpMatches s addr len i = false := by
          rw [pmpMatches, hregion]
          exact decide_eq_false htouch
        rw [find?_cons_of_neg (by simp [hno]), any_cons, hregion]
        simp only [if_pos htouch]
        rw [ih true]
        simp

theorem riscvPmpAllowed_eq_verdict (s : RiscvState) (addr : BitVec 64) (len : Nat) (acc : Acc)
    (mode : BitVec 8) :
    riscvPmpAllowed s addr len acc mode = match pmpDecider s addr len with
      | some i => pmpVerdict s addr (.ofNat 64 len) acc mode i
      | none => !((range kPmpCount).any fun i => (pmpRegion s i).isSome) ||
          decide (mode = kPrivMachine) :=
  pmpScan_eq_verdict s addr _ acc mode _ false

theorem pmpScan_decider (hfit : p.toNat + size < 2 ^ 64) (hk : k < size) {acc : Acc} {active : Bool}
    (h : pmpScan s p (.ofNat 64 size) acc mode is active = true) :
    is.find? (pmpMatches s (byteAt p k) (.ofNat 64 1)) =
      is.find? (pmpMatches s p (.ofNat 64 size)) := by
  induction is generalizing active with
  | nil => rfl
  | cons i rest ih =>
    rw [pmpScan] at h
    cases hregion : pmpRegion s i with
    | none =>
      rw [hregion] at h
      rw [find?_cons_of_neg (by simp [pmpMatches, hregion]),
        find?_cons_of_neg (by simp [pmpMatches, hregion])]
      exact ih h
    | some r =>
      obtain ⟨base, len⟩ := r
      rw [hregion] at h
      simp only at h
      by_cases htouch : p < base + len ∧ base < p + .ofNat 64 size
      · rw [if_neg (not_not_intro htouch)] at h
        -- a straddled entry would have denied the access
        have hin : base ≤ p ∧ p + .ofNat 64 size ≤ base + len := by
          by_contra hout
          rw [if_pos hout] at h
          cases h
        have hbyte := contains_byte hfit hk hin
        rw [find?_cons_of_pos (by simpa only [pmpMatches, hregion, decide_eq_true_eq]),
          find?_cons_of_pos (by simpa only [pmpMatches, hregion, decide_eq_true_eq])]
      · rw [if_pos htouch] at h
        have hbyte : ¬(byteAt p k < base + len ∧ base < byteAt p k + .ofNat 64 1) :=
          fun hb => htouch (touches_byte hfit hk hb).2
        rw [find?_cons_of_neg (by simpa only [pmpMatches, hregion, decide_eq_true_eq]),
          find?_cons_of_neg (by simpa only [pmpMatches, hregion, decide_eq_true_eq])]
        exact ih h

/-- An allowed access that does not wrap has each of its bytes allowed, and the lowest-numbered
matching entry, or the lack of one, is the same for the access and for all its bytes. -/
theorem pmp_allowed_bytewise (s : RiscvState) (addr : BitVec 64) (len : Nat) (acc : Acc)
    (mode : BitVec 8) (hfit : addr.toNat + len < 2 ^ 64)
    (h : riscvPmpAllowed s addr len acc mode = true) :
    ∀ k < len, riscvPmpAllowed s (byteAt addr k) 1 acc mode = true ∧
      pmpDecider s (byteAt addr k) 1 = pmpDecider s addr len := by
  intro k hk
  refine ⟨?_, pmpScan_decider hfit hk h⟩
  by_contra hdenied
  rw [Bool.not_eq_true] at hdenied
  rw [riscvPmpAllowed_denied hfit hk hdenied] at h
  cases h

/-- A user read of eight bytes inside a TOR region that follows a lower one. -/
theorem pmp_allowed_bytewise_tor :
    let s := { riscvInit with
      pmpcfg := fun k => if k = 0 then 0x0f08 else 0
      pmpaddr := fun k => if k = 0 then 0x1000 else if k = 1 then 0x2000 else 0 }
    (0x4010#64).toNat + 8 < 2 ^ 64 ∧ riscvPmpAllowed s 0x4010 8 .read kPrivUser = true ∧
      ∀ k < 8, riscvPmpAllowed s (byteAt 0x4010 k) 1 .read kPrivUser = true ∧
        pmpDecider s (byteAt 0x4010 k) 1 = pmpDecider s 0x4010 8 :=
  ⟨by decide, by decide, pmp_allowed_bytewise _ _ _ _ _ (by decide) (by decide)⟩

end Cemu.Rv64
