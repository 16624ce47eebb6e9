import AuroraIngest.Captive.Ledger

/-!
# The state of a captive backend and its goroutines

`CaptiveHcnetCore` is driven by one consumer (the caller of its methods) and feeds from one
reader goroutine, `sendLedgerMeta`, through the buffered channel `metaC`. The consumer's
methods block at three places: the receive in `GetLedger`'s loop, `c.wait.Wait()` in `Close`,
and the polling loop at the end of `PrepareRange`. A state of the system is therefore the
backend's fields, the reader's position in its loop, and where the consumer's current call
stands, with what it will do once it is resumed (`Pc`). The subprocess is seen through the
`hcnetCoreRunnerInterface`: its metadata pipe, whether the child still runs, and the exit
result its reaper offers. Everything the world outside decides (the archive's answers, the
runner's successes and failures, what the child writes) reaches the model as the `Env` of a
step, so that a theorem over all steps is a theorem over all environments.

A Go panic is recorded in `Sys.fault`; a crashed system takes no further step.
-/

namespace AuroraIngest.Captive.State

open AuroraIngest.Captive.Ledger

/-- `readAheadBufferSize`: the capacity of `metaC`. -/
def readAheadBufferSize : Nat := 2

/-- A Go channel: its buffered values, oldest first, and whether it has been closed.
`shutdown` is a `Chan Unit` that never holds a value. -/
structure Chan (α : Type) where
  buf : List α
  closed : Bool
  deriving DecidableEq, Repr

def Chan.empty {α : Type} : Chan α := ⟨[], false⟩

/-- `metaResult`: one item of the read-ahead buffer. The zero value, which a receive from a
closed empty channel yields, is `⟨none, none⟩`. -/
structure MetaResult where
  meta : Option LedgerCloseMeta
  err : Option Err
  deriving DecidableEq, Repr

/-- What one read of the metadata pipe meets: a framed record that decodes, `io.EOF`,
another decoding error of `xdr.UnmarshalFramed`, or nothing at all because the child writes
no more while it lives (the read then blocks until the child is gone and gets `io.EOF`). -/
inductive PipeItem where
  | frame (m : LedgerCloseMeta)
  | eof
  | corrupt (e : Err)
  | silent
  deriving DecidableEq, Repr

/-- The child's output: the item that the `n`-th read meets. -/
abbrev Pipe := Nat → PipeItem

/-- The command a runner started: `catchup TO/COUNT` or `run --start-at-ledger`. -/
inductive Command where
  | catchup («from» «to» : UInt32)
  | runFrom («from» : UInt32) (hash : String)
  deriving DecidableEq, Repr

/-- A `hcnetCoreRunner` as the backend observes it through `hcnetCoreRunnerInterface`: the
command it started (none before `catchup` or `runFrom` succeeded), `getMetaPipe()`, whether the
child has neither exited nor been killed, and the exit result its reaper goroutine is offering
on `getProcessExitChan()`. -/
structure Runner where
  command : Option Command
  metaPipe : Option Pipe
  alive : Bool
  exitOffer : Option (Option Err)

def Runner.new : Runner := ⟨none, none, false, none⟩

/-- The interface value in `c.hcnetCoreRunner` when it is not `nil`. `NewCaptive`'s factory
returns `newHcnetCoreRunner`'s result as an interface, so on an error it hands back a nil
`*hcnetCoreRunner` inside a non-nil interface; every method call on it dereferences nil. -/
inductive RunnerRef where
  | nilPointer
  | live (r : Runner)

/-- The fields of `CaptiveHcnetCore` that its methods read or write. -/
structure Core where
  configPath : String
  shutdown : Option (Chan Unit)
  metaC : Option (Chan MetaResult)
  hcnetCoreRunner : Option RunnerRef
  cachedMeta : Option LedgerCloseMeta
  blocking : Bool
  nextLedger : UInt32
  lastLedger : Option UInt32
  processExit : Bool
  processErr : Option Err

/-- `len(c.metaC)`; the length of a nil channel is 0. -/
def Core.bufLen (c : Core) : Nat :=
  match c.metaC with
  | some ch => ch.buf.length
  | none => 0

def Core.shutdownClosed (c : Core) : Bool :=
  match c.shutdown with
  | some sh => sh.closed
  | none => false

/-- Where `sendLedgerMeta` stands: at the `select` heading its loop, inside
`readLedgerMetaFromPipe`, blocked sending an item (and returning after it when `last`), or
returned. -/
inductive ReaderPhase where
  | top
  | reading
  | sending (r : MetaResult) (last : Bool)
  | done
  deriving DecidableEq, Repr

/-- The goroutine `go c.sendLedgerMeta(untilSequence)`; `pos` counts the reads it made. -/
structure Reader where
  untilSequence : UInt32
  pos : Nat
  phase : ReaderPhase
  deriving DecidableEq, Repr

/-- Who called `GetLedger`: the user, or `openOnlineReplaySubprocess` fast-forwarding
inside `PrepareRange`. -/
inductive GetCaller where
  | user
  | fastForward (r : Range)
  deriving DecidableEq, Repr

/-- Who called `Close`, and what the caller does with its result: the user; the two
`open…ReplaySubprocess` functions inside `PrepareRange`; `GetLedger` closing on an error, or
after the last ledger of a bounded session. -/
inductive CloseCaller where
  | user
  | openOffline (r : Range)
  | openOnline (r : Range)
  | getLedgerErr (sequence : UInt32) (e : Err) (k : GetCaller)
  | getLedgerLast (sequence : UInt32) (k : GetCaller)
  deriving DecidableEq, Repr

/-- Where the consumer's current call is blocked, with what it does once resumed. -/
inductive Pc where
  | idle
  | getLedger (sequence : UInt32) (k : GetCaller)
  | closeWait (k : CloseCaller)
  | prepareWait (r : Range)
  deriving DecidableEq, Repr

inductive Fault where
  | closeOfClosedChannel
  | closeOfNilChannel
  | sendOnClosedChannel
  | nilMetaDereference
  | nilRunnerCall
  | secondReader
  deriving DecidableEq, Repr

/-- The backend, its reader goroutine and its consumer, with a panic, and two fields of ghost
state: the ledgers `GetLedger` accepted from `metaC` in the current session, in order, and the
`nextLedger` the session was opened with. -/
structure Sys where
  core : Core
  reader : Option Reader
  pc : Pc
  fault : Option Fault
  accepted : List LedgerCloseMeta
  sessionStart : UInt32

/-- `NewCaptive`'s value: no session, no runner, nothing cached. -/
def Sys.fresh (configPath : String) : Sys where
  core :=
    { configPath := configPath, shutdown := none, metaC := none, hcnetCoreRunner := none,
      cachedMeta := none, blocking := false, nextLedger := 0, lastLedger := none,
      processExit := false, processErr := none }
  reader := none
  pc := .idle
  fault := none
  accepted := []
  sessionStart := 0

/-- The reader goroutine has been started and has not returned (`c.wait` is not zero). -/
def Sys.readerRunning (s : Sys) : Bool :=
  match s.reader with
  | some rd => rd.phase != .done
  | none => false

/-- What the world answers during one stretch of the consumer's code: the archive's
`GetRootHAS()` and `GetLedgerHeader(seq)`, the error of `hcnetCoreRunnerFactory`, the runner's
`catchup` or `runFrom` (its error, or what the started child writes), and the error of
`hcnetCoreRunner.close()`. -/
structure Env where
  rootHAS : Except Err UInt32
  ledgerHeader : UInt32 → Except Err LedgerHeader
  newRunnerErr : Option Err
  start : Except Err Pipe
  closeErr : Option Err

inductive Op where
  | prepareRange (r : Range)
  | getLedger (sequence : UInt32)
  | isPrepared (r : Range)
  | getLatestLedgerSequence
  | close

inductive Ret where
  | prepareRange (r : Range) (err : Option Err)
  | getLedger (sequence : UInt32) (found : Bool) (meta : LedgerCloseMeta) (err : Option Err)
  | isPrepared (r : Range) (prepared : Bool)
  | getLatestLedgerSequence (sequence : UInt32) (err : Option Err)
  | close (err : Option Err)
  deriving DecidableEq, Repr

/-- One step of the system: the consumer starts a call or resumes the blocked one, the
reader goroutine moves, or the child exits on its own. The two `select` cases the reader
can take when `shutdown` is closed are two actions. -/
inductive Action where
  | call (op : Op) (env : Env)
  | resume (env : Env)
  | readerEnter
  | readerShutdown
  | readerRead
  | readerSend
  | readerAbort
  | childExit (e : Option Err)

/-- The consumer after a stretch of code: the new state and, when a public call returned,
what it returned. -/
abbrev Out := Sys × Option Ret

def Sys.modify (s : Sys) (f : Core → Core) : Sys := { s with core := f s.core }

/-- A panic ends the program. -/
def Sys.crash (s : Sys) (f : Fault) : Out := ({ s with fault := some f }, none)

def Sys.await (s : Sys) (pc : Pc) : Out := ({ s with pc := pc }, none)

def Sys.finish (s : Sys) (r : Ret) : Out := ({ s with pc := .idle }, some r)

@[simp] theorem Sys.modify_core (s : Sys) (f : Core → Core) : (s.modify f).core = f s.core := rfl
@[simp] theorem Sys.modify_reader (s : Sys) (f : Core → Core) : (s.modify f).reader = s.reader := rfl
@[simp] theorem Sys.modify_pc (s : Sys) (f : Core → Core) : (s.modify f).pc = s.pc := rfl
@[simp] theorem Sys.modify_fault (s : Sys) (f : Core → Core) : (s.modify f).fault = s.fault := rfl
@[simp] theorem Sys.modify_accepted (s : Sys) (f : Core → Core) :
    (s.modify f).accepted = s.accepted := rfl
@[simp] theorem Sys.modify_sessionStart (s : Sys) (f : Core → Core) :
    (s.modify f).sessionStart = s.sessionStart := rfl

end AuroraIngest.Captive.State
