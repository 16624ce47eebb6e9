import AuroraIngest.Captive.Representation

/-!
# What `PrepareRange` leaves

`PrepareRange(r)` returns nil at once when `IsPrepared(r)` holds, and otherwise opens a
session for `r` and waits for its first buffered item. Over every reachable state, a nil
return leaves the backend prepared for `r`, except after the online fast-forward: that
consumes `r.from` and leaves `nextLedger` one past it, where `IsPrepared(r)` is false, so a
second `PrepareRange(r)` tears the session down and starts a new subprocess. An error return
leaves the backend closed, except when the subprocess exited while `PrepareRange` waited: the
session then stays open and prepared, and a retried `PrepareRange(r)` returns nil at once.

`IsPrepared` does not read the end of a bounded request, so it also answers true for a range
that reaches past the session's last ledger.

A range that `IsPrepared` rejects is opened by `open…ReplaySubprocess`, whose first act is
`Close()`: the range is checked against the archive only after the session it would replace
is gone. A request beyond the archive thus returns its error with the old session closed.
-/

namespace AuroraIngest.Captive.Prepare

open AuroraIngest.Captive.Ledger AuroraIngest.Captive.State AuroraIngest.Captive.Backend
open AuroraIngest.Captive.Step AuroraIngest.Captive.Invariant AuroraIngest.Captive.Consumer
open AuroraIngest.Captive.Representation

theorem retOk_of_reachable {s s' : Sys} {a : Action} {r : Ret} (h : Reachable s)
    (hstep : step s a = some (s', some r)) : RetOk s'.core r :=
  ((ok_step (inv_of_reachable h) (actionOk_false a) hstep).2 r rfl).2.2

/-- A child that writes the ledgers `n0, n0 + 1, …` without end. -/
def ledgerStream (n0 : UInt32) (payload : Nat) : Pipe :=
  fun i ↦ .frame ⟨n0 + UInt32.ofNat i, payload⟩

/-- An archive whose latest checkpoint is `latest` and a runner whose child writes `p`. -/
def archiveEnv (latest : UInt32) (p : Pipe) : Env :=
  ⟨.ok latest, fun _ ↦ .ok ⟨""⟩, none, .ok p, none⟩

/-- The reader moves one item of the pipe into `metaC`. -/
def readOne : List Action := [.readerEnter, .readerRead, .readerSend]

/-- The bounded session `[65, 66]` is open with nothing consumed. -/
def offlineRun : List Action :=
  .call (.prepareRange (boundedRange 65 66)) (archiveEnv 100 (ledgerStream 64 0)) :: readOne ++
    [.resume (archiveEnv 100 (ledgerStream 64 0))]

/-- `PrepareRange([65, 100])` on that session, then `GetLedger` of 65, 66 and 67. -/
def pastEndRun : List Action :=
  [.call (.prepareRange (boundedRange 65 100)) (archiveEnv 100 (ledgerStream 64 0)),
    .call (.getLedger 65) (archiveEnv 100 (ledgerStream 64 0)),
    .resume (archiveEnv 100 (ledgerStream 64 0))] ++ readOne ++
    [.resume (archiveEnv 100 (ledgerStream 64 0))] ++ readOne ++
    [.call (.getLedger 66) (archiveEnv 100 (ledgerStream 64 0)),
      .resume (archiveEnv 100 (ledgerStream 64 0)), .resume (archiveEnv 100 (ledgerStream 64 0)),
      .call (.getLedger 67) (archiveEnv 100 (ledgerStream 64 0))]

/-- In the bounded session `[65, 66]`, `IsPrepared([65, 100])` is true, so `PrepareRange`
returns nil without a new session, and ledger 67 of the range is never obtained: the session
closes after 66 and `GetLedger(67)` fails. -/
theorem isPrepared_past_session_end :
    ∃ s, run (Sys.fresh "") offlineRun = some (s, [.prepareRange (boundedRange 65 66) none]) ∧
      s.core.lastLedger = some 66 ∧ isPrepared s.core (boundedRange 65 100) = true ∧
      run s pastEndRun = some (after s pastEndRun,
        [.prepareRange (boundedRange 65 100) none, .getLedger 65 true ⟨65, 0⟩ none,
          .getLedger 66 true ⟨66, 0⟩ none,
          .getLedger 67 false default (some (.new "session is closed, call PrepareRange first"))]) :=
  ⟨_, rfl, rfl, rfl, rfl⟩

/-- An online session for `[3, ∞)`: the child starts at ledger 2, so `PrepareRange`
fast-forwards through 2 and 3 and waits for 4; then `IsPrepared([3, ∞))`. -/
def onlineRun : List Action :=
  .call (.prepareRange (unboundedRange 3)) (archiveEnv 100 (ledgerStream 2 0)) :: readOne ++
    [.resume (archiveEnv 100 (ledgerStream 2 0))] ++ readOne ++
    [.resume (archiveEnv 100 (ledgerStream 2 0))] ++ readOne ++
    [.resume (archiveEnv 100 (ledgerStream 2 0)),
      .call (.isPrepared (unboundedRange 3)) (archiveEnv 100 (ledgerStream 2 0))]

/-- `PrepareRange([3, ∞))` again, with a new child that marks its ledgers with payload 1:
the old session is closed, its reader returns, and the new session starts at ledger 2. -/
def onlineAgainRun : List Action :=
  [.call (.prepareRange (unboundedRange 3)) (archiveEnv 100 (ledgerStream 2 1)), .readerShutdown,
    .resume (archiveEnv 100 (ledgerStream 2 1))] ++ readOne ++
    [.resume (archiveEnv 100 (ledgerStream 2 1))]

/-- Whatever the child writes and however the goroutines interleave, a `PrepareRange(r)` that
returns nil, for `r` from ledger 2 on and not ending before it starts, leaves `IsPrepared(r)`
true or, after the online fast-forward, `nextLedger` at `r.from + 1`. The second case
happens: `IsPrepared([3, ∞))` is then false, and a second `PrepareRange([3, ∞))` closes the
session and starts a new subprocess, whose ledger 2 is buffered again. -/
theorem prepareRange_fastForward_unprepared :
    (∀ s a s' r, Reachable s → step s a = some (s', some (.prepareRange r none)) →
      2 ≤ r.«from» → (r.bounded = true → r.«from» ≤ r.«to») →
      isPrepared s'.core r = true ∨ (r.bounded = false ∧ s'.core.nextLedger = r.«from» + 1)) ∧
    ∃ s₁ s₂, run (Sys.fresh "hcnet-core.cfg") onlineRun =
        some (s₁, [.prepareRange (unboundedRange 3) none, .isPrepared (unboundedRange 3) false]) ∧
      s₁.core.nextLedger = 4 ∧
      run s₁ onlineAgainRun = some (s₂, [.prepareRange (unboundedRange 3) none]) ∧
      s₂.core.metaC = some ⟨[⟨some ⟨2, 1⟩, none⟩], false⟩ :=
  ⟨fun _ _ _ _ h hstep ↦ retOk_of_reachable h hstep, _, _, rfl, rfl, rfl, rfl⟩

/-- The bounded session `[65, 66]` with a child that exits before it writes anything. -/
def exitRun : List Action :=
  [.call (.prepareRange (boundedRange 65 66)) (archiveEnv 100 fun _ ↦ .eof),
    .childExit (some (.new "exit status 1"))] ++ readOne ++
    [.resume (archiveEnv 100 fun _ ↦ .eof)]

/-- Whatever the child writes, when every frame is below `2^32 - 1`, a `PrepareRange(r)` that
fails leaves the backend closed, or the subprocess exited while it waited and the session
stays open and prepared for `r` as after a nil return. The second case happens: the retried
`PrepareRange` returns nil at once and leaves the exited child in place. -/
theorem prepareRange_exit_leaves_session :
    (∀ s a s' r e, ReachableBelow s → ActionOk True a →
      step s a = some (s', some (.prepareRange r (some e))) →
      Closed s'.core ∨ (s'.core.processExit = true ∧ isClosed s'.core = false ∧
        PreparedFor s'.core r)) ∧
    ∃ s, run (Sys.fresh "") exitRun = some (s, [.prepareRange (boundedRange 65 66)
        (some (.wrap (.new "exit status 1") "hcnet-core process exited with an error"))]) ∧
      isClosed s.core = false ∧ isPrepared s.core (boundedRange 65 66) = true ∧
      step s (.call (.prepareRange (boundedRange 65 66)) (archiveEnv 100 fun _ ↦ .eof)) =
        some (s, some (.prepareRange (boundedRange 65 66) none)) := by
  refine ⟨fun s a s' r e h ha hstep ↦ ?_, _, rfl, rfl, rfl, rfl⟩
  have hout := ok_step (inv_of_reachableBelow h) ha hstep
  have hi : Inv True s' := hout.1
  obtain ⟨hf, hpc, hret⟩ : s'.fault = none ∧ s'.pc = .idle ∧ RetOk s'.core _ := hout.2 _ rfl
  refine hret.imp_right fun ⟨hpe, hsh, hp⟩ ↦ ⟨hpe, ?_, hp⟩
  rcases hi with hfault | ⟨-, -, hc, -⟩
  · simp [hf] at hfault
  rw [hpc] at hc
  rcases hc with hc | ho
  · simp [hc.2.2] at hsh
  · simpa [isClosed] using ho.1 trivial

/-- `PrepareRange` of a range that `IsPrepared` rejects, other than an unbounded one that an
open online session at or before its start takes over, begins with `Close`: before anything is
read from the archive, the session is forgotten and `shutdown` is closed. -/
theorem prepareRange_closes_first {s : Sys} (env : Env) {r : Range}
    (hsh : s.core.shutdown = some .empty) (hprep : isPrepared s.core r = false)
    (hreuse : r.bounded = false →
      ¬ (s.core.lastLedger.isNone ∧ s.core.nextLedger ≠ 0 ∧ s.core.nextLedger ≤ r.«from»)) :
    (prepareRange s env r).2 = none ∧ (prepareRange s env r).1.core.nextLedger = 0 ∧
      (prepareRange s env r).1.core.shutdown = some ⟨[], true⟩ ∧
      (prepareRange s env r).1.pc = .closeWait (if r.bounded then .openOffline r else .openOnline r) := by
  unfold prepareRange
  cases hb : r.bounded
  · have hno : ¬ ((s.core.lastLedger.isNone && s.core.nextLedger != 0 &&
        decide (s.core.nextLedger ≤ r.«from»)) = true) := by
      simpa [and_assoc] using hreuse hb
    rw [if_neg (by simp [hprep]), if_neg (by simp), if_neg hno]
    simp [closeBegin, hsh, Chan.empty, Sys.await, Sys.modify]
  · simp [hprep, closeBegin, hsh, Chan.empty, Sys.await, Sys.modify]

/-- `PrepareRange` of the unbounded `[1000, ∞)` on the session `[65, 66]`, with an archive
whose latest checkpoint is 100. -/
def farOnlineRun : List Action :=
  [.call (.prepareRange (unboundedRange 1000)) (archiveEnv 100 (ledgerStream 64 0)),
    .readerShutdown, .resume (archiveEnv 100 (ledgerStream 64 0))]

/-- In every state with an open session, a `PrepareRange` that has to open a new one closes
the old one before it checks the range. On the open session `[65, 66]`, `[200, 300]` is past
the archive's latest checkpoint 100 yet `PrepareRange` returns nil, since `IsPrepared` holds;
and `[1000, ∞)` is two checkpoints too far ahead: `PrepareRange` returns the error, and the
session, its subprocess and its reader are gone. -/
theorem prepareRange_misuse_closes_session :
    (∀ s env r, s.core.shutdown = some .empty → isPrepared s.core r = false →
      (r.bounded = false →
        ¬ (s.core.lastLedger.isNone ∧ s.core.nextLedger ≠ 0 ∧ s.core.nextLedger ≤ r.«from»)) →
      (call s env (.prepareRange r)).2 = none ∧ (call s env (.prepareRange r)).1.core.nextLedger = 0 ∧
        (call s env (.prepareRange r)).1.core.shutdown = some ⟨[], true⟩) ∧
    ∃ s s', run (Sys.fresh "") offlineRun = some (s, [.prepareRange (boundedRange 65 66) none]) ∧
      isPrepared s.core (boundedRange 65 66) = true ∧
      step s (.call (.prepareRange (boundedRange 200 300)) (archiveEnv 100 (ledgerStream 64 0))) =
        some (s, some (.prepareRange (boundedRange 200 300) none)) ∧
      run s farOnlineRun = some (s', [.prepareRange (unboundedRange 1000) (some (.wrap
        (.new "trying to start online mode too far (latest checkpoint=100), only two checkpoints in the future allowed")
        "opening subprocess"))]) ∧
      s'.core.nextLedger = 0 ∧ s'.core.hcnetCoreRunner = none ∧ s'.core.shutdown = none ∧
      s'.reader = some ⟨66, 1, .done⟩ :=
  ⟨fun _ env _ hsh hprep hreuse ↦
    (prepareRange_closes_first env hsh hprep hreuse).imp_right (And.imp_right And.left),
    _, _, rfl, rfl, rfl, rfl, rfl, rfl, rfl, rfl⟩

end AuroraIngest.Captive.Prepare
