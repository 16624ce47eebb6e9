import AuroraIngest.Captive.Config
import AuroraIngest.Captive.Backend

/-!
# The hcnet-core runner

`hcnetCoreRunner` runs the hcnet-core child of the captive backend. A start makes an anonymous
pipe, starts the child and spawns a reaper goroutine, whose `select` evaluates `c.cmd.Wait()`
and then offers the result on `processExit` or takes the closed `shutdown`. `close` kills and
reaps a live child, sets `r.cmd` to nil, removes the temporary directory, closes `shutdown`,
waits for the reaper in `r.wg.Wait()` and closes `processExit`.

The state is the runner's fields, the commands it made (`r.cmd` is a position among them), the
reapers, a `close` blocked in `r.wg.Wait()`, and a panic. A step is a method call, the blocked
`close` resuming, the child exiting, a move of a reaper, or the backend's reader receiving the
exit result. The posix `start` and `processIsAlive` are modelled. `close` up to
`r.wg.Wait()` is one step, so no reaper moves between its `processIsAlive`, `Kill` and `Wait`;
the error of `Kill`, which only arises when the child is reaped in between, is not modelled,
nor are the child's log writers.
-/

namespace AuroraIngest.Captive.CoreRunner

open AuroraIngest.Go
open AuroraIngest.Captive.Ledger (Err)
open AuroraIngest.Captive.State (Pipe PipeItem Runner Command)
open AuroraIngest.Captive.Config (generateConfig)
open AuroraIngest.Captive.Backend (startRunner)

/-- The child as `os.Process` sees it: running, exited and not yet reaped, with the result
`Wait` will report (nil for a zero exit status), or reaped by a `Wait`. -/
inductive Proc where
  | running
  | exited (result : Option Err)
  | reaped
  deriving DecidableEq, Repr

/-- `Process.Signal(syscall.Signal(0)) == nil`: the child has not been reaped; a zombie still
takes the signal. -/
def Proc.signalZero : Proc → Bool
  | .reaped => false
  | _ => true

/-- `Process.Kill()` on a child that has not been reaped: a running child dies of the signal,
which its `Wait` then reports. -/
def Proc.kill : Proc → Proc
  | .running => .exited (some (.new "signal: killed"))
  | p => p

/-- `*exec.Cmd` as `exec.Command(name, arg...)` makes it with `cmd.Dir` set: the arguments
after the program name, the process once `Start` made it, and the flag the first `Wait`
sets. -/
structure Cmd where
  path : String
  args : List String
  dir : String
  process : Option Proc
  finished : Bool
  deriving DecidableEq, Repr

/-- The fields of `hcnetCoreRunner`. `shutdown` and `processExit` are the channels
`newHcnetCoreRunner` makes, given by whether they are closed; `wg` is the counter of the
`WaitGroup`; `cmd` is the address of `r.cmd` among the commands the runner made. -/
structure HcnetCoreRunner where
  executablePath : String
  configPath : String
  networkPassphrase : String
  historyURLs : List String
  started : Bool
  wg : Nat
  shutdownClosed : Bool
  cmd : Option Nat
  processExitClosed : Bool
  metaPipe : Option Pipe
  tempDir : String

/-- The goroutine `start` spawns: before its `select`, inside the `c.cmd.Wait()` the `select`
evaluates first, offering `Wait`'s result on `processExit`, or returned. -/
inductive Reaper where
  | spawned
  | waiting (cmd : Nat)
  | offering (result : Option Err)
  | done
  deriving DecidableEq, Repr

inductive Fault where
  | closeOfClosedChannel
  | sendOnClosedChannel
  | nilDereference
  deriving DecidableEq, Repr

/-- A runner with the commands it made, the goroutines `start` spawned, a `close` blocked in
`r.wg.Wait()` with the error it will return, and a panic. -/
structure Sys where
  runner : HcnetCoreRunner
  cmds : List Cmd
  reapers : List Reaper
  closing : Option (Option Err)
  fault : Option Fault

def Sys.init (r : HcnetCoreRunner) : Sys := ⟨r, [], [], none, none⟩

def Sys.crash (s : Sys) (f : Fault) : Sys := { s with fault := some f }

def Sys.modifyCmd (s : Sys) (j : Nat) (f : Cmd → Cmd) : Sys :=
  match s.cmds[j]? with
  | some c => { s with cmds := s.cmds.set j (f c) }
  | none => s

def Sys.current (s : Sys) : Option Cmd := s.runner.cmd.bind fun j ↦ s.cmds[j]?

/-- Modelled on Go's `fmt.Sprintf("%x", n)`: lowercase hexadecimal digits. -/
def formatHex (n : Nat) : String := ⟨Nat.toDigits 16 n⟩

/-- What `newHcnetCoreRunner` meets: `os.TempDir()`, the `random.Uint64()` its directory is
named after, and the errors of `os.MkdirAll` and of the configuration's `ioutil.WriteFile`. -/
structure NewEnv where
  tempDirRoot : String
  random : Nat
  mkdirErr : Option Err
  writeErr : Option Err

def getConfFileName (r : HcnetCoreRunner) : String :=
  if r.configPath ≠ "" then r.configPath else filepathJoin [r.tempDir, "hcnet-core.conf"]

/-- `writeConf`: the file `ioutil.WriteFile` writes and its text. -/
def writeConf (r : HcnetCoreRunner) : String × String :=
  (getConfFileName r, generateConfig r.networkPassphrase r.tempDir r.historyURLs)

def newHcnetCoreRunner (executablePath configPath networkPassphrase : String)
    (historyURLs : List String) (env : NewEnv) : Except Err HcnetCoreRunner :=
  let tempDir := filepathJoin [env.tempDirRoot, "captive-hcnet-core-" ++ formatHex env.random]
  match env.mkdirErr with
  | some e => .error (.wrap e "error creating subprocess tmpdir")
  | none =>
    let runner : HcnetCoreRunner :=
      ⟨executablePath, configPath, networkPassphrase, historyURLs, false, 0, false, none, false,
        none, tempDir⟩
    if configPath = "" then
      match env.writeErr with
      | some e => .error (.wrap e "error writing configuration")
      | none => .ok runner
    else .ok runner

def getPipeName : String := "fd:3"

/-- `createCmd(params...)`: `--conf` and the configuration file, then the parameters, run in
the temporary directory. Its log writers are not modelled here. -/
def createCmd (r : HcnetCoreRunner) (params : List String) : Cmd :=
  ⟨r.executablePath, ["--conf", getConfFileName r] ++ params, r.tempDir, none, false⟩

/-- Go's `%v` of a `[]string`. -/
def goStrings (params : List String) : String := "[" ++ " ".intercalate params ++ "]"

/-- `runCmd(params...)`, which runs a command to its end, given the errors of its `Start` and
its `Wait`. -/
def runCmd (params : List String) (startErr waitErr : Option Err) : Option Err :=
  match startErr with
  | some e => some (.wrap e ("could not start `hcnet-core " ++ goStrings params ++ "` cmd"))
  | none =>
    waitErr.map fun e ↦
      .wrap e ("error waiting for `hcnet-core " ++ goStrings params ++ "` subprocess")

/-- What `start` meets: the errors of `os.Pipe` and `cmd.Start`, and what the started child
writes. -/
structure StartEnv where
  pipeErr : Option Err
  startErr : Option Err
  pipe : Pipe

/-- The read end of a pipe whose write end is closed and that no child holds. -/
def closedPipe : Pipe := fun _ ↦ .eof

/-- The posix `start` on `r.cmd`: make the pipe, start the child and spawn its reaper. It
returns the read end, `nil` when `os.Pipe` failed, and its error. -/
def start (s : Sys) (env : StartEnv) : Sys × Option Pipe × Option Err :=
  match env.pipeErr with
  | some e => (s, none, some (.wrap e "error making a pipe"))
  | none =>
    match env.startErr with
    | some e => (s, some closedPipe, some (.wrap e "error starting hcnet-core"))
    | none =>
      let s := match s.runner.cmd with
        | some j => s.modifyCmd j fun c ↦ { c with process := some .running }
        | none => s
      ({ s with
          reapers := s.reapers ++ [.spawned]
          runner := { s.runner with wg := s.runner.wg + 1 } }, some env.pipe, none)

def Sys.setCmd (s : Sys) (cmd : Cmd) : Sys :=
  { s with cmds := s.cmds ++ [cmd], runner := { s.runner with cmd := some s.cmds.length } }

/-- The tail `catchup` and `runFrom` share: `start`, then `started` on success. -/
def startCmd (s : Sys) (cmd : Cmd) (env : StartEnv) (msg : String) : Sys × Option Err :=
  let (s, metaPipe, err) := start (s.setCmd cmd) env
  let s := { s with runner := { s.runner with metaPipe := metaPipe } }
  match err with
  | some e => (s, some (.wrap e msg))
  | none => ({ s with runner := { s.runner with started := true } }, none)

/-- What `catchup` meets: the errors of `new-db`'s `Start` and `Wait`, and what `start`
meets. -/
structure CatchupEnv where
  newDbStartErr : Option Err
  newDbWaitErr : Option Err
  start : StartEnv

def catchup (s : Sys) («from» «to» : UInt32) (env : CatchupEnv) : Sys × Option Err :=
  if s.runner.started then (s, some (.new "runner already started"))
  else
    match runCmd ["new-db"] env.newDbStartErr env.newDbWaitErr with
    | some e => (s, some (.wrap e "error waiting for `hcnet-core new-db` subprocess"))
    | none =>
      let rangeArg := formatUint «to».toNat ++ "/" ++ formatUint («to» - «from» + 1).toNat
      startCmd s (createCmd s.runner
          ["catchup", rangeArg, "--metadata-output-stream", getPipeName, "--replay-in-memory"])
        env.start "error starting `hcnet-core catchup` subprocess"

def runFrom (s : Sys) («from» : UInt32) (hash : String) (env : StartEnv) : Sys × Option Err :=
  if s.runner.started then (s, some (.new "runner already started"))
  else
    startCmd s (createCmd s.runner
        ["run", "--in-memory", "--start-at-ledger", formatUint «from».toNat,
          "--start-at-hash", hash, "--metadata-output-stream", getPipeName])
      env "error starting `hcnet-core run` subprocess"

/-- `processIsAlive()`: `r.cmd` and its process exist and the process takes signal 0. -/
def processIsAlive (s : Sys) : Bool :=
  match s.current with
  | some c => c.process.any Proc.signalZero
  | none => false

/-- `os.RemoveAll(path)`, given the error it meets; the empty path is a no-op. -/
def removeAll (path : String) (err : Option Err) : Option Err := if path = "" then none else err

/-- `r.cmd.Process.Kill()` then `r.cmd.Wait()` on the live child, then `r.cmd = nil`. The
`Wait` returns at once when the reaper called it first; otherwise it reaps the child it just
killed. `Kill` of a child not yet reaped does not fail. -/
def killChild (s : Sys) : Sys :=
  match s.runner.cmd with
  | some j =>
    let s := s.modifyCmd j fun c ↦
      let c := { c with process := c.process.map Proc.kill }
      if c.finished then c else { c with finished := true, process := some .reaped }
    { s with runner := { s.runner with cmd := none } }
  | none => s

/-- `close()` up to `r.wg.Wait()`. It returns at once for a runner that is not started, and
otherwise closes `shutdown` and blocks with the error it will return. -/
def close (s : Sys) (removeErr : Option Err) : Sys × Option (Option Err) :=
  let s := if processIsAlive s then killChild s else s
  let err2 := removeAll s.runner.tempDir removeErr
  let s := { s with runner := { s.runner with tempDir := "" } }
  let ret := err2.map fun e ↦ .wrap e "error removing subprocess tmpdir"
  if s.runner.started then
    if s.runner.shutdownClosed then (s.crash .closeOfClosedChannel, none)
    else ({ s with closing := some ret, runner := { s.runner with shutdownClosed := true } }, none)
  else ({ s with runner := { s.runner with started := false } }, some ret)

/-- `close()` after `r.wg.Wait()` returned: close `processExit`. -/
def closeResume (s : Sys) (ret : Option Err) : Sys × Option (Option Err) :=
  if s.runner.processExitClosed then (s.crash .closeOfClosedChannel, none)
  else
    ({ s with
        closing := none
        runner := { s.runner with processExitClosed := true, started := false } }, some ret)

/-! ## The reaper -/

/-- The reaper enters its `select`, whose send evaluates `c.cmd.Wait()`: a nil `r.cmd` is
dereferenced, a `Wait` already called returns its error, and otherwise the reaper waits for
the child. -/
def reaperEnter (s : Sys) (i : Nat) : Option Sys :=
  if s.reapers[i]? = some .spawned then
    match s.runner.cmd with
    | none => some (s.crash .nilDereference)
    | some j =>
      match s.cmds[j]? with
      | none => none
      | some c =>
        if c.process.isNone then
          some { s with reapers := s.reapers.set i (.offering (some (.new "exec: not started"))) }
        else if c.finished then
          some { s with
            reapers := s.reapers.set i (.offering (some (.new "exec: Wait was already called"))) }
        else
          some { s.modifyCmd j fun c ↦ { c with finished := true } with
            reapers := s.reapers.set i (.waiting j) }
  else none

/-- The child the reaper waits for has exited: the reaper reaps it and offers the result. -/
def reaperReap (s : Sys) (i : Nat) : Option Sys :=
  match s.reapers[i]? with
  | some (.waiting j) =>
    match s.cmds[j]? with
    | some ⟨_, _, _, some (.exited result), _⟩ =>
      some { s.modifyCmd j fun c ↦ { c with process := some .reaped } with
        reapers := s.reapers.set i (.offering result) }
    | _ => none
  | _ => none

/-- The reaper's `select` takes `<-c.shutdown`, then `c.wg.Done()`. -/
def reaperShutdown (s : Sys) (i : Nat) : Option Sys :=
  match s.reapers[i]? with
  | some (.offering _) =>
    if s.runner.shutdownClosed then
      some { s with
        reapers := s.reapers.set i .done
        runner := { s.runner with wg := s.runner.wg - 1 } }
    else none
  | _ => none

/-- The reaper's `select` takes the send on a closed `processExit`. -/
def reaperSendClosed (s : Sys) (i : Nat) : Option Sys :=
  match s.reapers[i]? with
  | some (.offering _) =>
    if s.runner.processExitClosed then some (s.crash .sendOnClosedChannel) else none
  | _ => none

/-- The backend's reader receives from `getProcessExitChan()` while reaper `i` offers. -/
def receive (s : Sys) (i : Nat) : Option (Sys × Option Err) :=
  match s.reapers[i]? with
  | some (.offering result) =>
    if s.runner.processExitClosed then none
    else
      some ({ s with
        reapers := s.reapers.set i .done
        runner := { s.runner with wg := s.runner.wg - 1 } }, result)
  | _ => none

def childExit (s : Sys) (j : Nat) (result : Option Err) : Option Sys :=
  match s.cmds[j]? with
  | some c => if c.process = some .running then
      some (s.modifyCmd j fun c ↦ { c with process := some (.exited result) }) else none
  | none => none

/-- A step: the consumer calls a method (one at a time, so not while `close` blocks) or
resumes the blocked `close`; the child exits; a reaper moves; or the backend's reader
receives the exit result, from a reaper or from the closed channel. -/
inductive Action where
  | catchup («from» «to» : UInt32) (env : CatchupEnv)
  | runFrom («from» : UInt32) (hash : String) (env : StartEnv)
  | close (removeErr : Option Err)
  | closeResume
  | childExit (cmd : Nat) (result : Option Err)
  | reaperEnter (i : Nat)
  | reaperReap (i : Nat)
  | reaperShutdown (i : Nat)
  | reaperSendClosed (i : Nat)
  | receive (i : Nat)
  | receiveClosed

inductive Ret where
  | catchup (err : Option Err)
  | runFrom (err : Option Err)
  | close (err : Option Err)
  | exit (result : Option Err)
  deriving DecidableEq, Repr

def step (s : Sys) (a : Action) : Option (Sys × Option Ret) :=
  if s.fault.isSome then none
  else
    match a with
    | .catchup f t env =>
      if s.closing.isNone then some ((catchup s f t env).1, some (.catchup (catchup s f t env).2))
      else none
    | .runFrom f hash env =>
      if s.closing.isNone then
        some ((runFrom s f hash env).1, some (.runFrom (runFrom s f hash env).2))
      else none
    | .close removeErr =>
      if s.closing.isNone then
        some ((close s removeErr).1, (close s removeErr).2.map .close)
      else none
    | .closeResume =>
      match s.closing with
      | some ret => if s.runner.wg = 0 then
          some ((closeResume s ret).1, (closeResume s ret).2.map .close) else none
      | none => none
    | .childExit j result => (childExit s j result).map (·, none)
    | .reaperEnter i => (reaperEnter s i).map (·, none)
    | .reaperReap i => (reaperReap s i).map (·, none)
    | .reaperShutdown i => (reaperShutdown s i).map (·, none)
    | .reaperSendClosed i => (reaperSendClosed s i).map (·, none)
    | .receive i => (receive s i).map fun p ↦ (p.1, some (.exit p.2))
    | .receiveClosed => if s.runner.processExitClosed then some (s, some (.exit none)) else none

def run (s : Sys) : List Action → Option (Sys × List Ret)
  | [] => some (s, [])
  | a :: as =>
    match step s a with
    | none => none
    | some (s', r) => (run s' as).map fun p ↦ (p.1, r.toList ++ p.2)

/-- The states of a runner that `newHcnetCoreRunner` made. -/
inductive Reachable : Sys → Prop
  | new {executablePath configPath networkPassphrase : String} {historyURLs : List String}
      {env : NewEnv} {r : HcnetCoreRunner} :
      newHcnetCoreRunner executablePath configPath networkPassphrase historyURLs env = .ok r →
      Reachable (Sys.init r)
  | next {s s' : Sys} {a : Action} {r : Option Ret} :
      Reachable s → step s a = some (s', r) → Reachable s'

/-- The state a run ends in; the start when an action of the run is not enabled. -/
def after (s : Sys) (as : List Action) : Sys := ((run s as).map Prod.fst).getD s

@[simp] theorem Sys.modifyCmd_runner (s : Sys) (j : Nat) (f : Cmd → Cmd) :
    (s.modifyCmd j f).runner = s.runner := by
  unfold Sys.modifyCmd; split <;> rfl

@[simp] theorem Sys.modifyCmd_reapers (s : Sys) (j : Nat) (f : Cmd → Cmd) :
    (s.modifyCmd j f).reapers = s.reapers := by
  unfold Sys.modifyCmd; split <;> rfl

@[simp] theorem Sys.modifyCmd_closing (s : Sys) (j : Nat) (f : Cmd → Cmd) :
    (s.modifyCmd j f).closing = s.closing := by
  unfold Sys.modifyCmd; split <;> rfl

@[simp] theorem Sys.modifyCmd_fault (s : Sys) (j : Nat) (f : Cmd → Cmd) :
    (s.modifyCmd j f).fault = s.fault := by
  unfold Sys.modifyCmd; split <;> rfl

@[simp] theorem Sys.modifyCmd_length (s : Sys) (j : Nat) (f : Cmd → Cmd) :
    (s.modifyCmd j f).cmds.length = s.cmds.length := by
  unfold Sys.modifyCmd; split <;> simp

theorem Sys.getElem?_modifyCmd (s : Sys) (j k : Nat) (f : Cmd → Cmd) :
    (s.modifyCmd j f).cmds[k]? = if j = k then s.cmds[j]?.map f else s.cmds[k]? := by
  unfold Sys.modifyCmd
  split
  · next c hc =>
    simp only [List.getElem?_set]
    split
    · next h => subst h; simp [hc, (List.getElem?_eq_some_iff.mp hc).1]
    · rfl
  · next hc =>
    split
    · next h => subst h; simp [hc]
    · rfl

theorem Sys.modifyCmd_args (s : Sys) (j : Nat) {f : Cmd → Cmd} (hf : ∀ c, (f c).args = c.args) :
    (s.modifyCmd j f).cmds.map Cmd.args = s.cmds.map Cmd.args := by
  refine List.ext_getElem? fun k ↦ ?_
  simp only [List.getElem?_map, Sys.getElem?_modifyCmd]
  split
  · next h => subst h; cases s.cmds[j]? <;> simp [hf]
  · rfl

/-- `List.countP_set` with the old element named: the count moves from it to the new one. -/
theorem countP_set_of_getElem? {α : Type} (p : α → Bool) {l : List α} {i : Nat} {x y : α}
    (h : l[i]? = some y) :
    (l.set i x).countP p + (if p y then 1 else 0) = l.countP p + (if p x then 1 else 0) := by
  obtain ⟨hlt, rfl⟩ := List.getElem?_eq_some_iff.mp h
  have := List.boole_getElem_le_countP p l i hlt
  rw [List.countP_set p l i x hlt]
  omega

def Reaper.live : Reaper → Bool
  | .done => false
  | _ => true

/-- Two reapers that have not returned, when at most one has not, are the same. -/
theorem countP_live_unique {rs : List Reaper} (h : rs.countP Reaper.live ≤ 1) {i k : Nat}
    {x y : Reaper} (hi : rs[i]? = some x) (hk : rs[k]? = some y) (hx : x.live = true)
    (hy : y.live = true) : i = k := by
  induction rs generalizing i k with
  | nil => simp at hi
  | cons z rs ih =>
    cases i <;> cases k
    · rfl
    · next k =>
      simp only [List.getElem?_cons_zero, Option.some.injEq, List.getElem?_cons_succ] at hi hk
      subst hi
      have := List.countP_pos_iff.mpr ⟨y, List.mem_iff_getElem?.mpr ⟨_, hk⟩, hy⟩
      simp only [List.countP_cons, hx, ↓reduceIte] at h
      omega
    · next i =>
      simp only [List.getElem?_cons_zero, Option.some.injEq, List.getElem?_cons_succ] at hi hk
      subst hk
      have := List.countP_pos_iff.mpr ⟨x, List.mem_iff_getElem?.mpr ⟨_, hi⟩, hx⟩
      simp only [List.countP_cons, hy, ↓reduceIte] at h
      omega
    · next i k =>
      simp only [List.getElem?_cons_succ] at hi hk
      simp only [List.countP_cons] at h
      exact congrArg (· + 1) (ih (by split at h <;> omega) hi hk)

theorem countP_live_pos {rs : List Reaper} {i : Nat} {x : Reaper} (hi : rs[i]? = some x)
    (hx : x.live = true) : 0 < rs.countP Reaper.live :=
  List.countP_pos_iff.mpr ⟨x, List.mem_iff_getElem?.mpr ⟨_, hi⟩, hx⟩

theorem newHcnetCoreRunner_fresh {executablePath configPath networkPassphrase : String}
    {historyURLs : List String} {env : NewEnv} {r : HcnetCoreRunner}
    (h : newHcnetCoreRunner executablePath configPath networkPassphrase historyURLs env = .ok r) :
    r.started = false ∧ r.wg = 0 ∧ r.shutdownClosed = false ∧ r.processExitClosed = false ∧
      r.cmd = none := by
  unfold newHcnetCoreRunner at h
  split at h
  · cases h
  · split at h
    · split at h
      · cases h
      · cases h; exact ⟨rfl, rfl, rfl, rfl, rfl⟩
    · cases h; exact ⟨rfl, rfl, rfl, rfl, rfl⟩

theorem getElem?_append_singleton {α : Type} {l : List α} {x y : α} {i : Nat}
    (h : (l ++ [x])[i]? = some y) : l[i]? = some y ∨ (i = l.length ∧ y = x) := by
  rcases Nat.lt_or_ge i l.length with hi | hi
  · rw [List.getElem?_append_left hi] at h
    exact .inl h
  · rw [List.getElem?_append_right hi] at h
    rcases Nat.lt_or_ge (i - l.length) 1 with h1 | h1
    · have : i = l.length := by omega
      subst this
      simp only [Nat.sub_self, List.getElem?_cons_zero, Option.some.injEq] at h
      exact .inr ⟨rfl, h.symm⟩
    · simp [List.getElem?_eq_none (show [x].length ≤ i - l.length by simpa using h1)] at h

theorem getElem?_set_of_some {α : Type} {l : List α} {i k : Nat} {x y : α}
    (h : l[i]? = some y) : (l.set i x)[k]? = if i = k then some x else l[k]? := by
  rw [List.getElem?_set]
  split
  · simp [(List.getElem?_eq_some_iff.mp h).1]
  · rfl

/-- `startCmd` when `os.Pipe` or `cmd.Start` fails: the command is recorded, nothing started. -/
theorem startCmd_of_err (s : Sys) (cmd : Cmd) (msg : String) {env : StartEnv}
    (h : env.pipeErr.isSome ∨ env.startErr.isSome) :
    ∃ mp e, startCmd s cmd env msg =
      ({ s.setCmd cmd with runner := { (s.setCmd cmd).runner with metaPipe := mp } }, some e) := by
  unfold startCmd start
  rcases hp : env.pipeErr with _ | e
  · rcases hs : env.startErr with _ | e
    · simp [hp, hs] at h
    · exact ⟨_, _, rfl⟩
  · exact ⟨_, _, rfl⟩

/-- `startCmd` when the child starts: it runs, its reaper is spawned and the runner is
started with the child's pipe. -/
theorem startCmd_of_ok {s : Sys} {cmd : Cmd} {env : StartEnv} {msg : String}
    (hp : env.pipeErr = none) (hs : env.startErr = none) :
    startCmd s cmd env msg =
      ({ (s.setCmd cmd).modifyCmd s.cmds.length (fun c ↦ { c with process := some .running }) with
        reapers := s.reapers ++ [.spawned]
        runner := { s.runner with
          cmd := some s.cmds.length, wg := s.runner.wg + 1, metaPipe := some env.pipe,
          started := true } }, none) := by
  simp [startCmd, start, hp, hs, Sys.setCmd]

theorem start_args (s : Sys) (env : StartEnv) :
    (start s env).1.cmds.map Cmd.args = s.cmds.map Cmd.args := by
  unfold start
  split
  · rfl
  · split
    · rfl
    · split
      · exact Sys.modifyCmd_args _ _ fun _ ↦ rfl
      · rfl

/-- `catchup` and `runFrom` add their command to the runner's commands. -/
theorem startCmd_args (s : Sys) (cmd : Cmd) (env : StartEnv) (msg : String) :
    (startCmd s cmd env msg).1.cmds.map Cmd.args = s.cmds.map Cmd.args ++ [cmd.args] := by
  have h := start_args (s.setCmd cmd) env
  unfold startCmd
  split
  · next hs =>
    rw [hs] at h
    split <;> simpa [Sys.setCmd] using h

/-- `catchup` of a runner that is not started, when `new-db` succeeds, adds the command
`catchup TO/COUNT`, with the count `to - from + 1` over `uint32`. -/
theorem catchup_args (s : Sys) («from» «to» : UInt32) (env : CatchupEnv)
    (hst : s.runner.started = false) (hstart : env.newDbStartErr = none)
    (hwait : env.newDbWaitErr = none) :
    (catchup s «from» «to» env).1.cmds.map Cmd.args = s.cmds.map Cmd.args ++
      [["--conf", getConfFileName s.runner, "catchup",
        formatUint «to».toNat ++ "/" ++ formatUint («to» - «from» + 1).toNat,
        "--metadata-output-stream", getPipeName, "--replay-in-memory"]] := by
  simp [catchup, hst, runCmd, hstart, hwait, startCmd_args, createCmd]

theorem Proc.kill_of_signalZero {p : Proc} (h : p.signalZero = true) : ∃ e, p.kill = .exited e := by
  cases p with
  | running => exact ⟨_, rfl⟩
  | exited e => exact ⟨e, rfl⟩
  | reaped => cases h

theorem processIsAlive_of {s : Sys} {j : Nat} {c : Cmd} {p : Proc} (hcmd : s.runner.cmd = some j)
    (hc : s.cmds[j]? = some c) (hp : c.process = some p) (hz : p.signalZero = true) :
    processIsAlive s = true := by
  simp [processIsAlive, Sys.current, hcmd, hc, hp, hz]

@[simp] theorem killChild_runner (s : Sys) :
    (killChild s).runner = { s.runner with cmd := none } := by
  unfold killChild
  split
  · simp
  · next h => rw [← h]

theorem killChild_cmd (s : Sys) : (killChild s).runner.cmd = none := by
  simp

@[simp] theorem killChild_reapers (s : Sys) : (killChild s).reapers = s.reapers := by
  unfold killChild; split <;> simp

@[simp] theorem killChild_closing (s : Sys) : (killChild s).closing = s.closing := by
  unfold killChild; split <;> simp

@[simp] theorem killChild_fault (s : Sys) : (killChild s).fault = s.fault := by
  unfold killChild; split <;> simp

theorem killChild_of_none {s : Sys} (h : s.runner.cmd = none) : killChild s = s := by
  simp [killChild, h]

/-- The command `close` kills, when its `Wait` was already called. -/
theorem killChild_cmds {s : Sys} {j : Nat} {c : Cmd} (hcmd : s.runner.cmd = some j)
    (hc : s.cmds[j]? = some c) (hf : c.finished = true) :
    (killChild s).cmds[j]? = some { c with process := c.process.map Proc.kill } := by
  simp [killChild, hcmd, Sys.getElem?_modifyCmd, hc, hf]

/-- `close` of a started runner whose `shutdown` is open: it kills and drops a live child,
closes `shutdown` and blocks with its error. -/
theorem close_of_started {s : Sys} (hst : s.runner.started = true)
    (hsh : s.runner.shutdownClosed = false) (removeErr : Option Err) :
    close s removeErr =
      ({ (if processIsAlive s then killChild s else s) with
        closing := some ((removeAll s.runner.tempDir removeErr).map
          fun e ↦ .wrap e "error removing subprocess tmpdir")
        runner := { (if processIsAlive s then killChild s else s).runner with
          tempDir := "", shutdownClosed := true } }, none) := by
  unfold close
  split <;> simp [hst, hsh]

/-- `close` of a started runner whose `shutdown` is closed panics. -/
theorem close_of_shutdown {s : Sys} (hst : s.runner.started = true)
    (hsh : s.runner.shutdownClosed = true) (removeErr : Option Err) :
    (close s removeErr).1.fault = some .closeOfClosedChannel ∧ (close s removeErr).2 = none := by
  unfold close
  split <;> simp [hst, hsh, Sys.crash]

/-- `close` of a runner that is not started returns at once. -/
theorem close_of_not_started {s : Sys} (hst : s.runner.started = false)
    (removeErr : Option Err) :
    close s removeErr =
      ({ (if processIsAlive s then killChild s else s) with
        runner := { (if processIsAlive s then killChild s else s).runner with
          tempDir := "", started := false } },
       some ((removeAll s.runner.tempDir removeErr).map
          fun e ↦ .wrap e "error removing subprocess tmpdir")) := by
  unfold close
  split <;> simp [hst]

/-- A panic ends the program: no step follows it. -/
theorem fault_none_of_step {s s' : Sys} {a : Action} {r : Option Ret}
    (h : step s a = some (s', r)) : s.fault = none := by
  cases hf : s.fault
  · rfl
  · simp [step, hf] at h

/-- The state a run ends in is reachable from where it starts. -/
theorem Reachable.of_run {s t : Sys} {as : List Action} {rs : List Ret} (h : Reachable s)
    (hr : run s as = some (t, rs)) : Reachable t := by
  induction as generalizing s rs with
  | nil =>
    simp only [run, Option.some.injEq, Prod.mk.injEq] at hr
    exact hr.1 ▸ h
  | cons a as ih =>
    simp only [run] at hr
    split at hr
    · cases hr
    · next s' r hs =>
      obtain ⟨⟨t', rs'⟩, hp, ⟨⟩⟩ := Option.map_eq_some'.mp hr
      exact ih (.next h hs) hp

theorem run_cons {s s' : Sys} {a : Action} {r : Option Ret} (h : step s a = some (s', r))
    (as : List Action) : run s (a :: as) = (run s' as).map fun p ↦ (p.1, r.toList ++ p.2) := by
  simp [run, h]

/-- After a panic a run takes no step. -/
theorem run_of_fault {s t : Sys} {as : List Action} {rs : List Ret} (hf : s.fault.isSome)
    (h : run s as = some (t, rs)) : t = s ∧ rs = [] := by
  cases as with
  | nil => simp [run] at h; exact ⟨h.1.symm, h.2⟩
  | cons a as => simp [run, step, hf] at h

end AuroraIngest.Captive.CoreRunner
