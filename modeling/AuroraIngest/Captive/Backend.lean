import AuroraIngest.Captive.State

/-!
# The consumer's side of `CaptiveHcnetCore`

The public methods of the backend, cut at the points where they block. Each function runs
one stretch of Go code without interruption and ends by returning to the caller, by
blocking (`Sys.await`, with the program counter saying where to resume), or by a panic.
Nested calls keep their caller in the program counter: `Close` called from
`openOfflineReplaySubprocess` resumes into the rest of that function, `GetLedger` called
by the online fast-forward resumes into the rest of `PrepareRange`. The definitions come
callee first, so the chain `PrepareRange → Close → open… → GetLedger → Close` is a chain of
ordinary function calls.
-/

namespace AuroraIngest.Captive.Backend

open AuroraIngest.Captive.Ledger AuroraIngest.Captive.State

def isClosed (c : Core) : Bool := c.nextLedger == 0

/-- `IsPrepared`; it never returns an error. -/
def isPrepared (c : Core) (ledgerRange : Range) : Bool :=
  if c.nextLedger = 0 then false
  else
    match c.lastLedger with
    | none => c.nextLedger ≤ ledgerRange.«from»
    | some lastLedger =>
      if ledgerRange.bounded then c.nextLedger ≤ ledgerRange.«from» && c.nextLedger ≤ lastLedger
      else false

/-- `IsPrepared` answers true exactly for an open session that starts at or before `from`
and, when it is bounded, for a bounded request with `nextLedger` not past the session's
bound. The end of the requested range is not read. -/
theorem isPrepared_eq_true_iff (c : Core) (r : Range) :
    isPrepared c r = true ↔ c.nextLedger ≠ 0 ∧ c.nextLedger ≤ r.«from» ∧
      ∀ l, c.lastLedger = some l → r.bounded = true ∧ c.nextLedger ≤ l := by
  unfold isPrepared
  split
  · simp_all
  · next hn =>
    rcases hl : c.lastLedger with _ | l
    · simp [hn]
    · cases r.bounded <;> simp [hn]

def getLatestLedgerSequence (c : Core) : UInt32 × Option Err :=
  if isClosed c then
    (0, some (.new "hcnet-core must be opened to return latest available sequence"))
  else
    match c.lastLedger with
    | none => (c.nextLedger - 1 + UInt32.ofNat c.bufLen, none)
    | some lastLedger => (lastLedger, none)

/-- `c.cachedMeta != nil && sequence == c.cachedMeta.LedgerSequence()`, giving the meta. -/
def cacheHit (c : Core) (sequence : UInt32) : Option LedgerCloseMeta :=
  match c.cachedMeta with
  | some m => if sequence = m.ledgerSequence then some m else none
  | none => none

theorem cacheHit_eq_some {c : Core} {sequence : UInt32} {m : LedgerCloseMeta} :
    cacheHit c sequence = some m ↔ c.cachedMeta = some m ∧ m.ledgerSequence = sequence := by
  unfold cacheHit
  split
  · next m' hm =>
    split <;> simp_all [eq_comm]
  · simp_all

/-- `if c.hcnetCoreRunner == nil { c.hcnetCoreRunner, err = c.hcnetCoreRunnerFactory(…) }`,
with the factory's error. -/
def ensureRunner (c : Core) (env : Env) : Core × Option Err :=
  match c.hcnetCoreRunner with
  | some _ => (c, none)
  | none =>
    match env.newRunnerErr with
    | some e => ({ c with hcnetCoreRunner := some .nilPointer }, some e)
    | none => ({ c with hcnetCoreRunner := some (.live Runner.new) }, none)

/-- The runner's `catchup` or `runFrom`: `runner already started` on a runner that already
ran a command, otherwise the environment's answer. -/
def startRunner (rn : Runner) (cmd : Command) (env : Env) : Except Err Runner :=
  if rn.command.isSome then .error (.new "runner already started")
  else
    match env.start with
    | .error e => .error e
    | .ok pipe => .ok { rn with command := some cmd, metaPipe := some pipe, alive := true }

/-- The tail both `open…ReplaySubprocess` functions share: the session's fields, fresh
`metaC` and `shutdown` channels, and `go c.sendLedgerMeta(untilSequence)`. It fails when
the previous reader has not returned, which would make it a second sender on `metaC`. -/
def startSession (s : Sys) (rn : Runner) (nextLedger : UInt32)
    (lastLedger : Option UInt32) (blocking : Bool) (untilSequence : UInt32) : Option Sys :=
  if s.readerRunning then none
  else
    some
      { s with
        core :=
          { s.core with
            hcnetCoreRunner := some (.live rn), nextLedger := nextLedger,
            lastLedger := lastLedger, blocking := blocking, processExit := false,
            processErr := none, metaC := some .empty, shutdown := some .empty }
        reader := some ⟨untilSequence, 0, .top⟩
        accepted := []
        sessionStart := nextLedger }

/-- An error of `open…ReplaySubprocess`, as `PrepareRange` returns it. -/
def prepareRangeFail (s : Sys) (r : Range) (e : Err) : Out :=
  s.finish (.prepareRange r (some (.wrap e "opening subprocess")))

/-- `PrepareRange` after the subprocess is open: the `metaPipe == nil` check, then the wait
for the first buffered item. -/
def prepareRangeAwait (s : Sys) (r : Range) : Out :=
  match s.core.hcnetCoreRunner with
  | some (.live rn) =>
    match rn.metaPipe with
    | some _ => s.await (.prepareWait r)
    | none => s.finish (.prepareRange r (some (.new "missing metadata pipe")))
  | _ => s.crash .nilRunnerCall

/-- One poll of `PrepareRange`'s waiting loop; `none` while it keeps sleeping. -/
def prepareRangeWait (s : Sys) (r : Range) : Option Out :=
  if s.core.shutdownClosed then some (s.finish (.prepareRange r none))
  else if 0 < s.core.bufLen then
    let err : Option Err :=
      if s.core.processExit then
        match s.core.processErr with
        | some e => some (.wrap e "hcnet-core process exited with an error")
        | none => some (.new "hcnet-core process exited without an error unexpectedly")
      else none
    some (s.finish (.prepareRange r err))
  else none

/-- `GetLedger` returns to its caller. The fast-forward of `openOnlineReplaySubprocess`
restores `blocking` and goes on with `PrepareRange`. -/
def getLedgerReturn (s : Sys) (k : GetCaller) (sequence : UInt32) (found : Bool)
    (meta : LedgerCloseMeta) (err : Option Err) : Out :=
  match k with
  | .user => s.finish (.getLedger sequence found meta err)
  | .fastForward r =>
    let s := s.modify fun c ↦ { c with blocking := false }
    match err with
    | some e =>
      let sequence := r.«from»
      prepareRangeFail s r (.wrap e s!"Error fast-forwarding to {sequence}")
    | none => prepareRangeAwait s r

/-- `GetLedger` up to its loop: the `cachedMeta` shortcut, the closed check and the check
that the request is not behind the stream. -/
def getLedgerBegin (s : Sys) (k : GetCaller) (sequence : UInt32) : Out :=
  match cacheHit s.core sequence with
  | some m => getLedgerReturn s k sequence true m none
  | none =>
    if isClosed s.core then
      getLedgerReturn s k sequence false default
        (some (.new "session is closed, call PrepareRange first"))
    else if sequence < s.core.nextLedger then
      getLedgerReturn s k sequence false default
        (some (.new s!"requested ledger {sequence} is behind the captive core stream (expected={s.core.nextLedger})"))
    else s.await (.getLedger sequence k)

/-- `openOfflineReplaySubprocess(from, to)` after its `Close()`. -/
def openOfflineReplaySubprocess (s : Sys) (env : Env) (r : Range) : Out :=
  match env.rootHAS with
  | .error e =>
    prepareRangeFail s r
      (.wrap (.wrap e "error getting root HAS") "error getting latest checkpoint sequence")
  | .ok latestCheckpointSequence =>
    if r.«from» > latestCheckpointSequence then
      let sequence := r.«from»
      prepareRangeFail s r
        (.new s!"sequence: {sequence} is greater than max available in history archives: {latestCheckpointSequence}")
    else
      let «to» := if r.«to» > latestCheckpointSequence then latestCheckpointSequence else r.«to»
      let (c, err) := ensureRunner s.core env
      let s := { s with core := c }
      match err with
      | some e => prepareRangeFail s r (.wrap e "error creating hcnet-core runner")
      | none =>
        match c.hcnetCoreRunner with
        | some (.live rn) =>
          match startRunner rn (.catchup r.«from» «to») env with
          | .error e => prepareRangeFail s r (.wrap e "error running hcnet-core")
          | .ok rn =>
            match startSession s rn (roundDownToFirstReplayAfterCheckpointStart r.«from»)
                (some «to») true «to» with
            | none => s.crash .secondReader
            | some s => prepareRangeAwait s r
        | _ => s.crash .nilRunnerCall

/-- `openOnlineReplaySubprocess(from)` after its `Close()`. When the new session starts
behind `from`, it fast-forwards with a blocking `GetLedger(from)`. -/
def openOnlineAfterClose (s : Sys) (env : Env) (r : Range) : Out :=
  match env.rootHAS with
  | .error e =>
    prepareRangeFail s r
      (.wrap (.wrap e "error getting root HAS") "error getting latest checkpoint sequence")
  | .ok latestCheckpointSequence =>
    let maxLedger := latestCheckpointSequence + 2 * 64
    if r.«from» > maxLedger then
      prepareRangeFail s r
        (.new s!"trying to start online mode too far (latest checkpoint={latestCheckpointSequence}), only two checkpoints in the future allowed")
    else if s.core.hcnetCoreRunner.isNone && s.core.configPath == "" then
      prepareRangeFail s r (.new "hcnet-core config file path cannot be empty in an online mode")
    else
      let (c, err) := ensureRunner s.core env
      let s := { s with core := c }
      match err with
      | some e => prepareRangeFail s r (.wrap e "error creating hcnet-core runner")
      | none =>
        match runFromParams env.ledgerHeader r.«from» with
        | .error e =>
          prepareRangeFail s r (.wrap e "error calculating ledger and hash for stelar-core run")
        | .ok (runFrom, ledgerHash, nextLedger) =>
          match c.hcnetCoreRunner with
          | some (.live rn) =>
            match startRunner rn (.runFrom runFrom ledgerHash) env with
            | .error e => prepareRangeFail s r (.wrap e "error running hcnet-core")
            | .ok rn =>
              match startSession s rn nextLedger none false 0 with
              | none => s.crash .secondReader
              | some s =>
                if s.core.nextLedger < r.«from» then
                  getLedgerBegin (s.modify fun c ↦ { c with blocking := true })
                    (.fastForward r) r.«from»
                else prepareRangeAwait s r
          | _ => s.crash .nilRunnerCall

/-- `Close` returns to its caller with the runner's error, if any. -/
def closeReturn (s : Sys) (env : Env) (k : CloseCaller) (err : Option Err) : Out :=
  match k with
  | .user => s.finish (.close err)
  | .openOffline r =>
    match err with
    | some e => prepareRangeFail s r (.wrap e "error closing existing session")
    | none => openOfflineReplaySubprocess s env r
  | .openOnline r =>
    match err with
    | some e => prepareRangeFail s r (.wrap e "error closing existing session")
    | none => openOnlineAfterClose s env r
  | .getLedgerErr sequence e k => getLedgerReturn s k sequence false default (some e)
  | .getLedgerLast sequence k =>
    match err with
    | some e => getLedgerReturn s k sequence false default (some (.wrap e "error closing session"))
    | none => getLedgerReturn s k sequence true (s.core.cachedMeta.getD default) none

/-- The last part of `Close`: `hcnetCoreRunner.close()` kills the child, and the field is
set to nil whatever the result. -/
def closeRunner (s : Sys) (env : Env) (k : CloseCaller) : Out :=
  match s.core.hcnetCoreRunner with
  | none => closeReturn s env k none
  | some .nilPointer => s.crash .nilRunnerCall
  | some (.live _) =>
    closeReturn (s.modify fun c ↦ { c with hcnetCoreRunner := none }) env k
      (env.closeErr.map fun e ↦ .wrap e "error closing hcnet-core subprocess")

/-- `Close` up to `c.wait.Wait()`: forget the session, close `shutdown` and wait for the
reader. Without a `shutdown` channel it goes straight to the runner. -/
def closeBegin (s : Sys) (env : Env) (k : CloseCaller) : Out :=
  let s := s.modify fun c ↦ { c with nextLedger := 0, lastLedger := none }
  match s.core.shutdown with
  | none => closeRunner s env k
  | some sh =>
    if sh.closed then s.crash .closeOfClosedChannel
    else (s.modify fun c ↦ { c with shutdown := some { sh with closed := true } }).await (.closeWait k)

/-- `Close` once the reader has returned: close `metaC`, drop `shutdown`, close the runner. -/
def closeEnd (s : Sys) (env : Env) (k : CloseCaller) : Out :=
  match s.core.metaC with
  | none => s.crash .closeOfNilChannel
  | some ch =>
    if ch.closed then s.crash .closeOfClosedChannel
    else
      closeRunner
        (s.modify fun c ↦ { c with metaC := some { ch with closed := true }, shutdown := none })
        env k

/-- The body of `GetLedger`'s loop once it received `x` from `metaC`. -/
def getLedgerReceive (s : Sys) (env : Env) (sequence : UInt32) (k : GetCaller)
    (x : MetaResult) : Out :=
  match x.err with
  | some e => closeBegin s env (.getLedgerErr sequence e k)
  | none =>
    match x.meta with
    | none => s.crash .nilMetaDereference
    | some m =>
      if m.ledgerSequence ≠ s.core.nextLedger then
        closeBegin s env
          (.getLedgerErr sequence
            (.new s!"unexpected ledger (expected={s.core.nextLedger} actual={m.ledgerSequence})") k)
      else
        let s := { s.modify (fun c ↦ { c with nextLedger := c.nextLedger + 1 }) with
          accepted := s.accepted ++ [m] }
        if m.ledgerSequence = sequence then
          let s := s.modify fun c ↦ { c with cachedMeta := some m }
          if s.core.lastLedger = some m.ledgerSequence then
            closeBegin s env (.getLedgerLast sequence k)
          else getLedgerReturn s k sequence true m none
        else s.await (.getLedger sequence k)

/-- One pass of `GetLedger`'s loop; `none` while the receive blocks. A non-blocking call
returns `(false, _, nil)` on an empty buffer; a receive from a closed empty channel yields
the zero `metaResult`. -/
def getLedgerLoop (s : Sys) (env : Env) (sequence : UInt32) (k : GetCaller) : Option Out :=
  if !s.core.blocking && s.core.bufLen == 0 then
    some (getLedgerReturn s k sequence false default none)
  else
    match s.core.metaC with
    | none => none
    | some ch =>
      match ch.buf with
      | x :: rest =>
        some (getLedgerReceive (s.modify fun c ↦ { c with metaC := some { ch with buf := rest } })
          env sequence k x)
      | [] => if ch.closed then some (getLedgerReceive s env sequence k ⟨none, none⟩) else none

/-- `PrepareRange` up to its first blocking point. -/
def prepareRange (s : Sys) (env : Env) (r : Range) : Out :=
  if isPrepared s.core r then s.finish (.prepareRange r none)
  else if r.bounded then closeBegin s env (.openOffline r)
  else if s.core.lastLedger.isNone && s.core.nextLedger != 0 && s.core.nextLedger ≤ r.«from» then
    prepareRangeAwait s r
  else closeBegin s env (.openOnline r)

/-- A public call, run up to its first blocking point. -/
def call (s : Sys) (env : Env) : Op → Out
  | .prepareRange r => prepareRange s env r
  | .getLedger sequence => getLedgerBegin s .user sequence
  | .isPrepared r => s.finish (.isPrepared r (isPrepared s.core r))
  | .getLatestLedgerSequence =>
    s.finish (.getLatestLedgerSequence (getLatestLedgerSequence s.core).1
      (getLatestLedgerSequence s.core).2)
  | .close => closeBegin s env .user

/-- The blocked call goes on, if it can. -/
def resume (s : Sys) (env : Env) : Option Out :=
  match s.pc with
  | .idle => none
  | .getLedger sequence k => getLedgerLoop s env sequence k
  | .closeWait k => if s.readerRunning then none else some (closeEnd s env k)
  | .prepareWait r => prepareRangeWait s r

end AuroraIngest.Captive.Backend
