import AuroraIngest.Captive.Prepare
import AuroraIngest.Captive.CoreRunner

/-!
# Where the backend's `uint32` arithmetic wraps

The captive backend computes four sums over `uint32`: the online guard
`latestCheckpointSequence + 2*64` of `openOnlineReplaySubprocess`, the count `to-from+1` the
runner's `catchup` passes to the subprocess, `c.nextLedger++` in `GetLedger`, and
`c.nextLedger - 1 + uint32(len(c.metaC))` in `GetLatestLedgerSequence`. Each is the sum over
the naturals exactly below the top of the range, and no check of the code keeps the inputs
there. A latest checkpoint within 128 of `2^32` wraps the guard to a small bound, so that
`PrepareRange` refuses every ledger above it although it lies below the checkpoint; the
bounded range `[0, 2^32 - 1]` asks for a catchup of 0 ledgers; and an online session asked
to start at `2^32 - 1` fast-forwards `nextLedger` to 0, the value `isClosed` reads as a
closed session, while the reader goroutine and the subprocess still run.
-/

namespace AuroraIngest.Captive.Overflow

open AuroraIngest.Captive.Ledger AuroraIngest.Captive.State AuroraIngest.Captive.Backend
open AuroraIngest.Captive.Step AuroraIngest.Captive.Prepare

theorem maxLedger_toNat (latestCheckpointSequence : UInt32) :
    (latestCheckpointSequence + 2 * 64).toNat = (latestCheckpointSequence.toNat + 128) % 2 ^ 32 := by
  simp

/-- The guard of `openOnlineReplaySubprocess` compares with `latest + 128` for every `from`
exactly when that sum does not wrap. -/
theorem onlineGuard_exact_iff (latest : UInt32) :
    (∀ «from» : UInt32, «from» > latest + 2 * 64 ↔ latest.toNat + 128 < «from».toNat) ↔
      latest.toNat + 128 < 2 ^ 32 := by
  have hl := u32_toNat_lt latest
  constructor
  · intro h
    have htop := h 4294967295
    simp only [gt_iff_lt, u32_lt_iff, maxLedger_toNat, u32_toNat_lit] at htop
    omega
  · intro h _
    simp only [gt_iff_lt, u32_lt_iff, maxLedger_toNat, Nat.mod_eq_of_lt h]

/-- The catchup count of a range `from ≤ to` is its number of ledgers unless the range is
all of `uint32`. -/
theorem catchupCount_exact_iff {«from» «to» : UInt32} (h : «from» ≤ «to») :
    («to» - «from» + 1).toNat = «to».toNat - «from».toNat + 1 ↔
      ¬ («from» = 0 ∧ «to» = 4294967295) := by
  have ht := u32_toNat_lt «to»
  simp only [u32_le_iff] at h
  simp only [u32_toNat_add, u32_toNat_sub, u32_toNat_lit, u32_eq_iff, UInt32.toNat_zero]
  omega

/-- `nextLedger++` counts on exactly below `2^32 - 1`. -/
theorem nextLedger_succ_exact_iff (nextLedger : UInt32) :
    (nextLedger + 1).toNat = nextLedger.toNat + 1 ↔ nextLedger ≠ 4294967295 := by
  have hn := u32_toNat_lt nextLedger
  simp only [u32_toNat_add, u32_toNat_lit, u32_ne_iff]
  omega

/-- In an open unbounded session, `GetLatestLedgerSequence` returns the last sequence the
buffer reaches exactly when that sequence is below `2^32`. -/
theorem latestSequence_exact_iff {c : Core} (hopen : isClosed c = false)
    (hun : c.lastLedger = none) (hbuf : c.bufLen < 2 ^ 32) :
    (getLatestLedgerSequence c).1.toNat = c.nextLedger.toNat - 1 + c.bufLen ↔
      c.nextLedger.toNat + c.bufLen ≤ 2 ^ 32 := by
  have hn := u32_toNat_lt c.nextLedger
  have hne : c.nextLedger.toNat ≠ 0 := by
    simpa [isClosed, u32_eq_iff] using hopen
  simp only [getLatestLedgerSequence, hopen, hun, Bool.false_eq_true, ↓reduceIte, u32_toNat_add,
    u32_toNat_sub, u32_toNat_ofNat, u32_toNat_lit, Nat.mod_eq_of_lt hbuf]
  omega

/-- With a latest checkpoint whose guard wraps, a fresh backend refuses every online start
above the wrapped bound, and the call changes nothing. -/
theorem prepareRange_fresh_tooFar (configPath : String) (latest : UInt32) (p : Pipe)
    («from» : UInt32) (hwrap : (latest.toNat + 128) % 2 ^ 32 < «from».toNat) :
    step (Sys.fresh configPath) (.call (.prepareRange (unboundedRange «from»)) (archiveEnv latest p)) =
      some (Sys.fresh configPath, some (.prepareRange (unboundedRange «from») (some (.wrap
        (.new s!"trying to start online mode too far (latest checkpoint={latest}), only two checkpoints in the future allowed")
        "opening subprocess")))) := by
  have hg : ¬ «from».toNat ≤ (latest.toNat + 128) % 4294967296 := by omega
  simp [step, call, prepareRange, Sys.fresh, isPrepared, closeBegin, closeRunner, closeReturn,
    openOnlineAfterClose, archiveEnv, unboundedRange, hg, prepareRangeFail, Sys.finish, Sys.modify]

/-- An archive at checkpoint `2^32 - 129` and a child that streams from `2^32 - 64`. -/
def wrapEnv : Env := archiveEnv 4294967167 (ledgerStream 4294967232 0)

/-- `PrepareRange(UnboundedRange(2^32 - 1))`, with the reader bringing each ledger of the
fast-forward as it is consumed. -/
def wrapRun : List Action :=
  .call (.prepareRange (unboundedRange 4294967295)) wrapEnv ::
    (List.replicate 65 (readOne ++ [.resume wrapEnv])).flatten

set_option maxRecDepth 20000 in
/-- The four sums of the backend differ from the sums over the naturals at the top of the
`uint32` range, and three of them are reached by runs: the guard refuses an online start
below the latest checkpoint, the bounded range `[0, 2^32 - 1]` starts a catchup of `0`
ledgers, and the fast-forward to `2^32 - 1` leaves `nextLedger` at 0 with the session's
reader and subprocess still running. -/
theorem uint32_arithmetic_wraps :
    (∀ latest : UInt32,
      (∀ «from» : UInt32, «from» > latest + 2 * 64 ↔ latest.toNat + 128 < «from».toNat) ↔
        latest.toNat + 128 < 2 ^ 32) ∧
    (∀ (configPath : String) (latest : UInt32) (p : Pipe) («from» : UInt32),
      (latest.toNat + 128) % 2 ^ 32 < «from».toNat →
      step (Sys.fresh configPath) (.call (.prepareRange (unboundedRange «from»)) (archiveEnv latest p)) =
        some (Sys.fresh configPath, some (.prepareRange (unboundedRange «from») (some (.wrap
          (.new s!"trying to start online mode too far (latest checkpoint={latest}), only two checkpoints in the future allowed")
          "opening subprocess"))))) ∧
    (∀ «from» «to» : UInt32, «from» ≤ «to» →
      ((«to» - «from» + 1).toNat = «to».toNat - «from».toNat + 1 ↔
        ¬ («from» = 0 ∧ «to» = 4294967295))) ∧
    (∀ nextLedger : UInt32, (nextLedger + 1).toNat = nextLedger.toNat + 1 ↔ nextLedger ≠ 4294967295) ∧
    (∀ c : Core, isClosed c = false → c.lastLedger = none → c.bufLen < 2 ^ 32 →
      ((getLatestLedgerSequence c).1.toNat = c.nextLedger.toNat - 1 + c.bufLen ↔
        c.nextLedger.toNat + c.bufLen ≤ 2 ^ 32)) ∧
    step (Sys.fresh "hcnet-core.cfg")
        (.call (.prepareRange (unboundedRange 200)) (archiveEnv 4294967295 (ledgerStream 136 0))) =
      some (Sys.fresh "hcnet-core.cfg", some (.prepareRange (unboundedRange 200) (some (.wrap
        (.new "trying to start online mode too far (latest checkpoint=4294967295), only two checkpoints in the future allowed")
        "opening subprocess")))) ∧
    (∃ s rn, step (Sys.fresh "")
        (.call (.prepareRange (boundedRange 0 4294967295)) (archiveEnv 4294967295 (ledgerStream 2 0))) =
          some (s, none) ∧
        s.core.hcnetCoreRunner = some (.live rn) ∧ rn.command = some (.catchup 0 4294967295) ∧
        ∀ (t : CoreRunner.Sys) (env : CoreRunner.CatchupEnv), t.runner.started = false →
          env.newDbStartErr = none → env.newDbWaitErr = none →
          (CoreRunner.catchup t 0 4294967295 env).1.cmds.map CoreRunner.Cmd.args =
            t.cmds.map CoreRunner.Cmd.args ++ [["--conf", CoreRunner.getConfFileName t.runner,
              "catchup", "4294967295/0", "--metadata-output-stream", "fd:3", "--replay-in-memory"]]) ∧
    (∃ s rn, run (Sys.fresh "hcnet-core.cfg") wrapRun =
        some (s, [.prepareRange (unboundedRange 4294967295) none]) ∧
      s.core.nextLedger = 0 ∧ isClosed s.core = true ∧ s.readerRunning = true ∧
      s.core.hcnetCoreRunner = some (.live rn) ∧ rn.alive = true) :=
  ⟨onlineGuard_exact_iff, prepareRange_fresh_tooFar, fun _ _ ↦ catchupCount_exact_iff,
    nextLedger_succ_exact_iff, fun _ ↦ latestSequence_exact_iff,
    prepareRange_fresh_tooFar _ _ _ _ (by decide), ⟨_, _, rfl, rfl, rfl, fun t env hst h1 h2 ↦ by
      rw [CoreRunner.catchup_args t 0 4294967295 env hst h1 h2, show Go.formatUint
        (4294967295 : UInt32).toNat ++ "/" ++ Go.formatUint ((4294967295 : UInt32) - 0 + 1).toNat =
          "4294967295/0" by decide]
      rfl⟩,
    ⟨_, _, rfl, rfl, rfl, rfl, rfl, rfl⟩⟩

end AuroraIngest.Captive.Overflow
