import Mathlib.Data.UInt

/-!
# Ledger sequences, ranges and checkpoints

The captive backend computes with `uint32` ledger sequences. Lean's `UInt32` wraps around
exactly as Go's does; the first lemmas move its comparisons and sums to `Nat`, where `omega`
closes them. The rest of the module declares what the backend reads of the world: the
sequence of a `LedgerCloseMeta`, the errors it builds with `github.com/pkg/errors`, the
`Range` it prepares, the checkpoint helpers of the history archive, and `runFromParams`,
the checkpoint arithmetic of the online mode.
-/

namespace AuroraIngest.Captive.Ledger

@[simp]
theorem u32_lt_iff (a b : UInt32) : a < b ↔ a.toNat < b.toNat := Iff.rfl

@[simp]
theorem u32_le_iff (a b : UInt32) : a ≤ b ↔ a.toNat ≤ b.toNat := Iff.rfl

theorem u32_eq_iff (a b : UInt32) : a = b ↔ a.toNat = b.toNat :=
  ⟨congrArg UInt32.toNat, UInt32.toNat.inj⟩

theorem u32_ne_iff (a b : UInt32) : a ≠ b ↔ a.toNat ≠ b.toNat :=
  not_congr (u32_eq_iff a b)

theorem u32_toNat_lt (a : UInt32) : a.toNat < 2 ^ 32 := a.toNat_lt_size

@[simp]
theorem u32_toNat_add (a b : UInt32) : (a + b).toNat = (a.toNat + b.toNat) % 2 ^ 32 := by
  show (a.toBitVec + b.toBitVec).toNat = _
  simp only [BitVec.toNat_add]
  rfl

@[simp]
theorem u32_toNat_sub (a b : UInt32) :
    (a - b).toNat = (2 ^ 32 - b.toNat + a.toNat) % 2 ^ 32 := by
  show (a.toBitVec - b.toBitVec).toNat = _
  simp only [BitVec.toNat_sub]
  rfl

@[simp]
theorem u32_toNat_mul (a b : UInt32) : (a * b).toNat = a.toNat * b.toNat % 2 ^ 32 := by
  show (a.toBitVec * b.toBitVec).toNat = _
  simp only [BitVec.toNat_mul]
  rfl

@[simp]
theorem u32_toNat_ofNat (n : Nat) : (UInt32.ofNat n).toNat = n % 2 ^ 32 := rfl

@[simp]
theorem u32_toNat_lit (n : Nat) : (no_index (OfNat.ofNat n : UInt32)).toNat = n % 2 ^ 32 := rfl

/-- A sequence below another steps to one that is not 0 and does not pass it. -/
theorem u32_succ_le {a b : UInt32} (h : a ≤ b) (hne : a ≠ b) : a + 1 ≠ 0 ∧ a + 1 ≤ b := by
  have hb := u32_toNat_lt b
  simp only [u32_ne_iff, u32_le_iff, u32_toNat_add, u32_toNat_lit, UInt32.toNat_zero] at h hne ⊢
  omega

/-- `xdr.LedgerCloseMeta` as the backend sees it: `LedgerSequence()` and an opaque payload
standing for the rest of the record, so that two frames of one sequence can differ. The
default value is Go's zero value `xdr.LedgerCloseMeta{}`. -/
structure LedgerCloseMeta where
  ledgerSequence : UInt32
  payload : Nat
  deriving DecidableEq, Repr, Inhabited

/-- A Go `error` built with `github.com/pkg/errors`: `New` and `Errorf` give a message,
`Wrap` puts a message in front of a cause. -/
inductive Err where
  | new (msg : String)
  | wrap (cause : Err) (msg : String)
  deriving DecidableEq, Repr

/-- `err.Error()`: a wrapped error prints as `msg: cause`. -/
def Err.error : Err → String
  | .new msg => msg
  | .wrap cause msg => msg ++ ": " ++ cause.error

/-- The part of `xdr.LedgerHeaderHistoryEntry` the backend reads: the hex text
`hex.EncodeToString` makes of `Header.PreviousLedgerHash`. -/
structure LedgerHeader where
  previousLedgerHash : String
  deriving DecidableEq, Repr

/-- Modelled from the spec: `Range` (declared outside src/), a window of sequences tagged
bounded (`[from, to]`) or unbounded (`[from, ∞)`). -/
structure Range where
  «from» : UInt32
  «to» : UInt32
  bounded : Bool
  deriving DecidableEq, Repr

/-- Modelled from the spec: `BoundedRange(from, to)`. -/
def boundedRange («from» «to» : UInt32) : Range := ⟨«from», «to», true⟩

/-- Modelled from the spec: `UnboundedRange(from)`. -/
def unboundedRange («from» : UInt32) : Range := ⟨«from», 0, false⟩

/-- `ledgersPerCheckpoint` (declared outside src/): 64, as the spec's round-down formula
`max(2, L − (L mod 64))` has it. -/
def ledgersPerCheckpoint : UInt32 := 64

def roundDownToFirstReplayAfterCheckpointStart (ledger : UInt32) : UInt32 :=
  let v := ledger / ledgersPerCheckpoint * ledgersPerCheckpoint
  if v = 0 then 2 else v

/-- Modelled from the spec: `historyarchive.IsCheckpoint`, `(seq + 1) mod 64 == 0`. -/
def isCheckpoint (i : UInt32) : Bool := (i + 1) % 64 == 0

/-- Modelled from the spec: `historyarchive.PrevCheckpoint`, the largest checkpoint at or
below `i`, and 0 below the first one. -/
def prevCheckpoint (i : UInt32) : UInt32 := if i < 63 then 0 else (i + 1) / 64 * 64 - 1

/-- The first ledger a catchup replays is at least 2 and at most the requested one. -/
theorem roundDown_bounds (ledger : UInt32) (h : 2 ≤ ledger) :
    2 ≤ roundDownToFirstReplayAfterCheckpointStart ledger ∧
      roundDownToFirstReplayAfterCheckpointStart ledger ≤ ledger := by
  unfold roundDownToFirstReplayAfterCheckpointStart ledgersPerCheckpoint
  have hlt := u32_toNat_lt ledger
  dsimp only
  split
  · exact ⟨UInt32.le_refl 2, h⟩
  · next hv =>
    simp only [u32_eq_iff, u32_le_iff, u32_toNat_mul, UInt32.toNat_div, u32_toNat_lit, Nat.reducePow, Nat.reduceMod] at hv h ⊢
    omega

theorem roundDown_ne_zero (ledger : UInt32) :
    roundDownToFirstReplayAfterCheckpointStart ledger ≠ 0 := by
  unfold roundDownToFirstReplayAfterCheckpointStart
  dsimp only
  split
  · decide
  · assumption

/-- `runFromParams`: the ledger to pass as `--start-at-ledger`, the hash to pass with it and
the first ledger the subprocess will stream, for an online session asked to start at
`from`. The archive's `GetLedgerHeader` is the first argument. -/
def runFromParams (getLedgerHeader : UInt32 → Except Err LedgerHeader) («from» : UInt32) :
    Except Err (UInt32 × String × UInt32) :=
  if «from» = 1 then
    .error (.new "CaptiveCore is unable to start from ledger 1, start from ledger 2")
  else
    let («from», nextLedger) : UInt32 × UInt32 :=
      if «from» ≤ 63 then (3, 2)
      else
        let «from» := if isCheckpoint «from» then «from» else prevCheckpoint «from»
        («from», if «from» - 63 < 2 then 2 else «from» - 63)
    match getLedgerHeader «from» with
    | .error e =>
      let sequence := «from»
      .error (.wrap e s!"error trying to read ledger header {sequence} from HAS")
    | .ok ledgerHeader => .ok («from» - 1, ledgerHeader.previousLedgerHash, nextLedger)

theorem clamp_two (x : UInt32) : 2 ≤ (if x < 2 then 2 else x) := by
  split <;> simp_all

/-- The first ledger an online session streams is at least 2. -/
theorem runFromParams_nextLedger {getLedgerHeader : UInt32 → Except Err LedgerHeader}
    {«from» runFrom nextLedger : UInt32} {hash : String}
    (h : runFromParams getLedgerHeader «from» = .ok (runFrom, hash, nextLedger)) :
    2 ≤ nextLedger := by
  unfold runFromParams at h
  split at h
  · cases h
  · dsimp only at h
    split at h
    · cases h
    · simp only [Except.ok.injEq, Prod.mk.injEq] at h
      obtain ⟨-, -, rfl⟩ := h
      split
      · decide
      · exact clamp_two _

/-- Past the first checkpoint, the checkpoint an online session starts from is at least 63
and at most the ledger asked for. -/
theorem startCheckpoint_bounds {i : UInt32} (h : 63 < i) :
    63 ≤ (if isCheckpoint i then i else prevCheckpoint i) ∧
      (if isCheckpoint i then i else prevCheckpoint i) ≤ i := by
  have hlt := u32_toNat_lt i
  simp only [u32_lt_iff, u32_toNat_lit] at h
  split
  · simp only [u32_le_iff, u32_toNat_lit]
    omega
  · next hc =>
    have hc' : (i.toNat + 1) % 2 ^ 32 % 64 ≠ 0 := by
      simpa [isCheckpoint, u32_eq_iff] using hc
    have hi : ¬ i < 63 := by simp only [u32_lt_iff, u32_toNat_lit]; omega
    simp only [prevCheckpoint, hi, ↓reduceIte, u32_le_iff, u32_toNat_sub, u32_toNat_mul,
      UInt32.toNat_div, u32_toNat_add, u32_toNat_lit, Nat.reducePow, Nat.reduceMod]
    omega

/-- From ledger 2 on, an online session starts at or before the ledger asked for. -/
theorem runFromParams_nextLedger_le {getLedgerHeader : UInt32 → Except Err LedgerHeader}
    {«from» runFrom nextLedger : UInt32} {hash : String}
    (h : runFromParams getLedgerHeader «from» = .ok (runFrom, hash, nextLedger))
    (h2 : 2 ≤ «from») : nextLedger ≤ «from» := by
  unfold runFromParams at h
  split at h
  · cases h
  · dsimp only at h
    split at h
    · cases h
    · simp only [Except.ok.injEq, Prod.mk.injEq] at h
      obtain ⟨-, -, rfl⟩ := h
      split
      · exact h2
      · next hgt =>
        obtain ⟨h63, hle⟩ := startCheckpoint_bounds (by simpa using hgt)
        generalize (if isCheckpoint «from» then «from» else prevCheckpoint «from») = cp at h63 hle ⊢
        simp only [u32_le_iff, u32_lt_iff, u32_toNat_sub, u32_toNat_lit] at h63 hle hgt h2 ⊢
        split <;> simp only [u32_toNat_sub, u32_toNat_lit] <;> omega

/-- What `runFromParams` returns: below the first checkpoint it runs from 2 (passed as 3),
past it from the checkpoint of `from`, streaming from 63 ledgers before it and not below 2. -/
theorem runFromParams_eq_ok {getLedgerHeader : UInt32 → Except Err LedgerHeader}
    {«from» runFrom nextLedger : UInt32} {hash : String}
    (h : runFromParams getLedgerHeader «from» = .ok (runFrom, hash, nextLedger)) :
    «from» ≠ 1 ∧ («from» ≤ 63 → runFrom = 2 ∧ nextLedger = 2) ∧
      (¬ «from» ≤ 63 →
        runFrom = (if isCheckpoint «from» then «from» else prevCheckpoint «from») - 1 ∧
        nextLedger = if (if isCheckpoint «from» then «from» else prevCheckpoint «from») - 63 < 2
          then 2 else (if isCheckpoint «from» then «from» else prevCheckpoint «from») - 63) := by
  unfold runFromParams at h
  split at h
  · cases h
  · next h1 =>
    refine ⟨h1, fun hle ↦ ?_, fun hgt ↦ ?_⟩
    · simp only [hle, ↓reduceIte] at h
      split at h <;> simp only [Except.ok.injEq, Prod.mk.injEq, reduceCtorEq] at h
      exact ⟨by rw [← h.1]; rfl, h.2.2.symm⟩
    · simp only [hgt, ↓reduceIte] at h
      split at h <;> simp only [Except.ok.injEq, Prod.mk.injEq, reduceCtorEq] at h
      exact ⟨h.1.symm, h.2.2.symm⟩

/-- Past the first checkpoint, an online session starts from the largest checkpoint at or
below the ledger asked for. -/
theorem startCheckpoint_greatest {i : UInt32} (h : 63 < i) :
    isCheckpoint (if isCheckpoint i then i else prevCheckpoint i) = true ∧
      (∀ c, isCheckpoint c = true → c ≤ i → c ≤ (if isCheckpoint i then i else prevCheckpoint i)) ∧
      i.toNat < (if isCheckpoint i then i else prevCheckpoint i).toNat + 64 := by
  split
  · next hc => exact ⟨hc, fun _ _ hle ↦ hle, by omega⟩
  · next hc =>
    have hlt := u32_toNat_lt i
    have hi : ¬ i < 63 := by simp only [u32_lt_iff, u32_toNat_lit] at h ⊢; omega
    simp only [isCheckpoint, beq_iff_eq, u32_eq_iff, UInt32.toNat_mod, u32_toNat_add,
      u32_toNat_lit, UInt32.toNat_zero, Nat.reducePow, Nat.reduceMod] at hc ⊢
    simp only [prevCheckpoint, hi, ↓reduceIte, u32_le_iff, u32_toNat_sub, u32_toNat_mul,
      UInt32.toNat_div, u32_toNat_add, u32_toNat_lit, Nat.reducePow, Nat.reduceMod]
    refine ⟨by omega, fun c hc' hle ↦ ?_, by omega⟩
    simp only [u32_le_iff] at hle
    omega

/-- An online session asked to start at `from ≥ 2` streams from at most 127 ledgers before
it, and runs from the ledger before the largest checkpoint at or below `from`, or from 2
before the first checkpoint. -/
theorem runFromParams_window {getLedgerHeader : UInt32 → Except Err LedgerHeader}
    {«from» runFrom nextLedger : UInt32} {hash : String}
    (h : runFromParams getLedgerHeader «from» = .ok (runFrom, hash, nextLedger))
    (h2 : 2 ≤ «from») :
    2 ≤ nextLedger ∧ nextLedger ≤ «from» ∧ «from».toNat - nextLedger.toNat < 128 ∧
      («from» ≤ 63 → runFrom + 1 = 3) ∧
      (63 < «from» → isCheckpoint (runFrom + 1) = true ∧ runFrom + 1 ≤ «from» ∧
        ∀ c, isCheckpoint c = true → c ≤ «from» → c ≤ runFrom + 1) := by
  obtain ⟨-, hlow, hhigh⟩ := runFromParams_eq_ok h
  refine ⟨runFromParams_nextLedger h, runFromParams_nextLedger_le h h2, ?_,
    fun hle ↦ by rw [(hlow hle).1]; rfl, fun hgt ↦ ?_⟩
  · by_cases hle : «from» ≤ 63
    · rw [(hlow hle).2]
      simp only [u32_le_iff, u32_toNat_lit] at hle ⊢
      omega
    · obtain ⟨-, hn⟩ := hhigh hle
      have hgt : 63 < «from» := by simpa using hle
      obtain ⟨h63, hcp⟩ := startCheckpoint_bounds hgt
      obtain ⟨-, -, hnear⟩ := startCheckpoint_greatest hgt
      rw [hn]
      generalize (if isCheckpoint «from» then «from» else prevCheckpoint «from») = cp at h63 hcp hnear
      simp only [u32_le_iff, u32_lt_iff, u32_toNat_lit] at h63 hcp hgt
      have hlt := u32_toNat_lt cp
      split <;> next hge =>
        simp only [u32_lt_iff, u32_toNat_sub, u32_toNat_lit, Nat.reducePow, Nat.reduceMod] at hge ⊢
        omega
  · obtain ⟨hr, -⟩ := hhigh (by simpa [u32_le_iff, u32_lt_iff] using hgt)
    obtain ⟨hck, hmax, -⟩ := startCheckpoint_greatest hgt
    obtain ⟨-, hcp⟩ := startCheckpoint_bounds hgt
    rw [hr, sub_add_cancel]
    exact ⟨hck, hcp, hmax⟩

end AuroraIngest.Captive.Ledger
