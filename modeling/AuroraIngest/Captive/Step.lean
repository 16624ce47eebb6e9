import AuroraIngest.Captive.Backend

/-!
# The reader goroutine and the steps of the system

`sendLedgerMeta` loops: a `select` on `shutdown` (with a ticker case and a default case that
both go on), a read of one framed record from the pipe, and a `select` that sends the result
on `metaC` or gives up when `shutdown` is closed. A read error is sent as an error item after
a non-blocking look at the runner's exit channel; a bounded session's reader returns after
sending a ledger at or past `untilSequence`. Each of these is one action of the reader.

`step` is the whole system: the consumer starts a call when idle or resumes its blocked
call, the reader moves, or the child exits on its own. Where Go picks among ready `select`
cases at random, both actions are enabled.
-/

namespace AuroraIngest.Captive.Step

open AuroraIngest.Captive.Ledger AuroraIngest.Captive.State AuroraIngest.Captive.Backend

/-- `readLedgerMetaFromPipe` at the runner's `pos`-th read; `none` while the read blocks. -/
def readLedgerMetaFromPipe (rn : Runner) (pos : Nat) : Option (Except Err LedgerCloseMeta) :=
  match rn.metaPipe with
  | none => some (.error (.new "missing metadata pipe"))
  | some pipe =>
    match pipe pos with
    | .frame m => some (.ok m)
    | .eof => some (.error (.wrap (.new "EOF") "got EOF from subprocess"))
    | .corrupt e => some (.error (.wrap e "unmarshalling framed LedgerCloseMeta"))
    | .silent =>
      if rn.alive then none else some (.error (.wrap (.new "EOF") "got EOF from subprocess"))

/-- A read that gives a ledger took the frame at the reader's position of the pipe. -/
theorem readLedgerMetaFromPipe_ok {rn : Runner} {pos : Nat} {m : LedgerCloseMeta}
    (h : readLedgerMetaFromPipe rn pos = some (.ok m)) :
    ∃ p, rn.metaPipe = some p ∧ p pos = .frame m := by
  unfold readLedgerMetaFromPipe at h
  split at h
  · cases h
  · next p hp =>
    split at h
    · next hframe =>
      cases h
      exact ⟨p, hp, hframe⟩
    · cases h
    · cases h
    · split at h <;> cases h

/-- A read that fails met no frame. -/
theorem readLedgerMetaFromPipe_error {rn : Runner} {pos : Nat} {e : Err} {p : Pipe}
    (h : readLedgerMetaFromPipe rn pos = some (.error e)) (hp : rn.metaPipe = some p) :
    ∀ m, p pos ≠ .frame m := by
  intro m hm
  simp [readLedgerMetaFromPipe, hp, hm] at h

/-- The reader's error path before it sends: if the reaper offers the process's exit, the
item carries the exit instead of the read error and `processExit` records it. -/
def readerError (c : Core) (rn : Runner) (err : Err) : Core × MetaResult :=
  match rn.exitOffer with
  | some processErr =>
    ({ c with
        processExit := true, processErr := processErr,
        hcnetCoreRunner := some (.live { rn with exitOffer := none }) },
      ⟨none, some (match processErr with
        | some e => .wrap e "hcnet-core process exited with an error"
        | none => .new "hcnet-core process exited without an error unexpectedly")⟩)
  | none => (c, ⟨none, some err⟩)

/-- The `select` at the head of the loop takes its ticker or default case. -/
def readerEnter (s : Sys) : Option Sys :=
  match s.reader with
  | some ⟨u, pos, .top⟩ => some { s with reader := some ⟨u, pos, .reading⟩ }
  | _ => none

/-- The `select` at the head of the loop takes `<-c.shutdown` and returns. -/
def readerShutdown (s : Sys) : Option Sys :=
  match s.reader with
  | some ⟨u, pos, .top⟩ =>
    if s.core.shutdownClosed then some { s with reader := some ⟨u, pos, .done⟩ } else none
  | _ => none

/-- The read returns; the reader goes on to send a frame, or the error item after which it
returns. -/
def readerRead (s : Sys) : Option Out :=
  match s.reader with
  | some ⟨u, pos, .reading⟩ =>
    match s.core.hcnetCoreRunner with
    | some (.live rn) =>
      match readLedgerMetaFromPipe rn pos with
      | none => none
      | some (.ok m) =>
        some ({ s with
          reader := some ⟨u, pos + 1, .sending ⟨some m, none⟩ (u != 0 && m.ledgerSequence ≥ u)⟩ },
          none)
      | some (.error e) =>
        let (c, x) := readerError s.core rn e
        some ({ s with core := c, reader := some ⟨u, pos + 1, .sending x true⟩ }, none)
    | _ => some (s.crash .nilRunnerCall)
  | _ => none

/-- The send case of the `select` proceeds: it needs room in `metaC`, and panics on a closed
channel. -/
def readerSend (s : Sys) : Option Out :=
  match s.reader with
  | some ⟨u, pos, .sending x last⟩ =>
    match s.core.metaC with
    | some ch =>
      if ch.closed then some (s.crash .sendOnClosedChannel)
      else if ch.buf.length < readAheadBufferSize then
        some ({ s with
          core := { s.core with metaC := some { ch with buf := ch.buf ++ [x] } },
          reader := some ⟨u, pos, if last then .done else .top⟩ }, none)
      else none
    | none => none
  | _ => none

/-- The send `select` takes `<-c.shutdown` and returns. -/
def readerAbort (s : Sys) : Option Sys :=
  match s.reader with
  | some ⟨u, pos, .sending _ _⟩ =>
    if s.core.shutdownClosed then some { s with reader := some ⟨u, pos, .done⟩ } else none
  | _ => none

/-- The child exits by itself; its reaper then offers the exit result. -/
def childExit (s : Sys) (e : Option Err) : Option Sys :=
  match s.core.hcnetCoreRunner with
  | some (.live rn) =>
    if rn.alive then
      some (s.modify fun c ↦
        { c with hcnetCoreRunner := some (.live { rn with alive := false, exitOffer := some e }) })
    else none
  | _ => none

/-- One step of the system, `none` when the action is not enabled. -/
def step (s : Sys) (a : Action) : Option Out :=
  if s.fault.isSome then none
  else
    match a with
    | .call op env => if s.pc = .idle then some (call s env op) else none
    | .resume env => resume s env
    | .readerEnter => (readerEnter s).map (·, none)
    | .readerShutdown => (readerShutdown s).map (·, none)
    | .readerRead => readerRead s
    | .readerSend => readerSend s
    | .readerAbort => (readerAbort s).map (·, none)
    | .childExit e => (childExit s e).map (·, none)

/-- A run: the final state and the returns of the public calls, in order. -/
def run (s : Sys) : List Action → Option (Sys × List Ret)
  | [] => some (s, [])
  | a :: as =>
    match step s a with
    | none => none
    | some (s', r) => (run s' as).map fun p ↦ (p.1, r.toList ++ p.2)

/-- A run of one more action: its step, then the rest of the run. -/
theorem run_cons_eq_some {s s' : Sys} {a : Action} {as : List Action} {rs : List Ret} :
    run s (a :: as) = some (s', rs) ↔
      ∃ s₁ r rs₂, step s a = some (s₁, r) ∧ run s₁ as = some (s', rs₂) ∧ rs = r.toList ++ rs₂ := by
  simp only [run]
  split
  · simp_all
  · next s₁ r hstep =>
    simp only [Option.map_eq_some', Prod.exists, Prod.mk.injEq, hstep, Option.some.injEq]
    constructor
    · rintro ⟨s₂, rs₂, h₂, rfl, rfl⟩
      exact ⟨s₁, r, rs₂, ⟨rfl, rfl⟩, h₂, rfl⟩
    · rintro ⟨_, _, rs₂, ⟨rfl, rfl⟩, h₂, rfl⟩
      exact ⟨s', rs₂, h₂, rfl, rfl⟩

/-- The state a run ends in; the start when an action of the run is not enabled. -/
def after (s : Sys) (as : List Action) : Sys := ((run s as).map Prod.fst).getD s

/-- The states a fresh backend can reach. -/
inductive Reachable : Sys → Prop
  | fresh (configPath : String) : Reachable (Sys.fresh configPath)
  | next {s s' : Sys} {a : Action} {r : Option Ret} :
      Reachable s → step s a = some (s', r) → Reachable s'

/-- The state a run ends in is reachable from where it starts. -/
theorem Reachable.of_run (as : List Action) {s s' : Sys} {rs : List Ret} (h : Reachable s)
    (hrun : run s as = some (s', rs)) : Reachable s' := by
  induction as generalizing s rs with
  | nil =>
    simp only [run, Option.some.injEq, Prod.mk.injEq] at hrun
    exact hrun.1 ▸ h
  | cons a as ih =>
    obtain ⟨s₁, r, rs₂, hstep, h₂, -⟩ := run_cons_eq_some.mp hrun
    exact ih (.next h hstep) h₂

theorem Reachable.after (as : List Action) {s : Sys} (h : Reachable s)
    (hrun : (run s as).isSome) : Reachable (after s as) := by
  obtain ⟨⟨s', rs⟩, hr⟩ := Option.isSome_iff_exists.mp hrun
  simpa [Step.after, hr] using h.of_run as hr

end AuroraIngest.Captive.Step
