import AuroraIngest.Captive.Prepare
import AuroraIngest.Captive.Stream

/-!
# Waits that never end

Three places where the consumer blocks wait on a goroutine that may never move again.

`GetLedger`'s loop receives from `metaC` in a blocking session. Once the reader has returned
and the buffer is empty, no goroutine will ever send again and the loop never ends, whatever
the child does. A bounded session's reader returns after it sends the session's last ledger,
and the loop checks for that ledger only when it is the one requested: `GetLedger(s)` past the
end of the session consumes the last ledger and then waits forever.

`Close` closes `shutdown` and waits for the reader before it kills the child. A reader blocked
in a read of a child that is alive and writes nothing sees neither, so only the child's own
exit can end the wait. `GetLedger` makes that `Close` itself when the stream breaks its
sequence, so a gap in the pipe of such a child leaves `GetLedger` waiting instead of returning
the error.
-/

namespace AuroraIngest.Captive.Deadlock

open AuroraIngest.Captive.Ledger AuroraIngest.Captive.State AuroraIngest.Captive.Backend
open AuroraIngest.Captive.Step AuroraIngest.Captive.Invariant AuroraIngest.Captive.Prepare
open AuroraIngest.Captive.Stream

/-- `GetLedger`'s blocking loop waits on an empty, open `metaC` whose reader has returned. -/
def Starved (s : Sys) : Prop :=
  s.fault = none ∧ (∃ sequence k, s.pc = .getLedger sequence k) ∧ s.core.blocking = true ∧
    s.core.metaC = some ⟨[], false⟩ ∧ s.readerRunning = false

theorem reader_of_not_running {s : Sys} (h : s.readerRunning = false) :
    s.reader = none ∨ ∃ u pos, s.reader = some ⟨u, pos, .done⟩ := by
  unfold Sys.readerRunning at h
  split at h
  · next rd hrd =>
    obtain ⟨u, pos, ph⟩ := rd
    simp only [bne_eq_false_iff_eq] at h
    exact .inr ⟨u, pos, h ▸ hrd⟩
  · exact .inl ‹_›

/-- A starved state only lets the child exit, which changes nothing the loop reads. -/
theorem starved_step {s s' : Sys} {a : Action} {r : Option Ret} (h : Starved s)
    (hstep : step s a = some (s', r)) : r = none ∧ s'.pc = s.pc ∧ Starved s' := by
  obtain ⟨hf, ⟨sequence, k, hpc⟩, hbl, hm, hrun⟩ := h
  cases a <;> simp only [step, hf, Option.isSome_none, Bool.false_eq_true, ↓reduceIte] at hstep
  case call => simp [hpc] at hstep
  case resume => simp [resume, hpc, getLedgerLoop, hbl, hm] at hstep
  case childExit e =>
    obtain ⟨s'', h1, h2⟩ := Option.map_eq_some'.mp hstep
    cases h2
    unfold childExit at h1
    split at h1
    · split at h1
      · cases h1
        exact ⟨rfl, rfl, hf, ⟨sequence, k, hpc⟩, hbl, hm, hrun⟩
      · cases h1
    · cases h1
  all_goals
    rcases reader_of_not_running hrun with hrd | ⟨u, pos, hrd⟩ <;>
      simp [readerEnter, readerShutdown, readerRead, readerSend, readerAbort, hrd] at hstep

/-- A starved `GetLedger` never returns: every run from a starved state returns nothing and
leaves the consumer in the same call, starved. -/
theorem starved_run {s : Sys} (h : Starved s) (as : List Action) {s' : Sys} {rs : List Ret}
    (hrun : run s as = some (s', rs)) : rs = [] ∧ s'.pc = s.pc ∧ Starved s' := by
  induction as generalizing s rs with
  | nil =>
    simp only [run, Option.some.injEq, Prod.mk.injEq] at hrun
    obtain ⟨rfl, rfl⟩ := hrun
    exact ⟨rfl, rfl, h⟩
  | cons a as ih =>
    obtain ⟨s₁, r, rs₂, hstep, h₂, rfl⟩ := run_cons_eq_some.mp hrun
    obtain ⟨rfl, hpc, h₁⟩ := starved_step h hstep
    obtain ⟨rfl, hpc', h₂'⟩ := ih h₁ h₂
    exact ⟨rfl, hpc'.trans hpc, h₂'⟩

/-- In the bounded session `[65, 66]`, `GetLedger(67)` consumes 64, 65 and 66 while the
reader sends them and returns after 66. -/
def pastEndBlockRun : List Action :=
  offlineRun ++ [.call (.getLedger 67) (archiveEnv 100 (ledgerStream 64 0)),
    .resume (archiveEnv 100 (ledgerStream 64 0))] ++ readOne ++
    [.resume (archiveEnv 100 (ledgerStream 64 0))] ++ readOne ++
    [.resume (archiveEnv 100 (ledgerStream 64 0))]

/-- A `GetLedger` that waits on an empty buffer whose reader has returned waits forever; and
`GetLedger(67)` in the bounded session `[65, 66]`, called while `nextLedger` is 64, consumes
ledger 66 and gets there, with the session still open. -/
theorem getLedger_past_end_blocks :
    (∀ s as s' rs, Starved s → run s as = some (s', rs) → rs = [] ∧ s'.pc = s.pc) ∧
    ∃ s, run (Sys.fresh "") pastEndBlockRun = some (s, [.prepareRange (boundedRange 65 66) none]) ∧
      Starved s ∧ s.pc = .getLedger 67 .user ∧ s.core.lastLedger = some 66 ∧
      s.accepted = [⟨64, 0⟩, ⟨65, 0⟩, ⟨66, 0⟩] :=
  ⟨fun _ as _ _ h hrun ↦ (starved_run h as hrun).imp_right And.left,
    _, rfl, ⟨rfl, ⟨_, _, rfl⟩, rfl, rfl, rfl⟩, rfl, rfl, rfl⟩

/-- `Close` waits for the reader: while the reader runs, every step keeps the consumer in the
wait and returns nothing. -/
theorem closeWait_step {s s' : Sys} {a : Action} {r : Option Ret} {k : CloseCaller}
    (hpc : s.pc = .closeWait k) (hrun : s.readerRunning = true)
    (hstep : step s a = some (s', r)) : r = none ∧ s'.pc = .closeWait k := by
  have hf : s.fault = none := by
    cases hfault : s.fault
    · rfl
    · simp [step, hfault] at hstep
  cases a <;> simp only [step, hf, Option.isSome_none, Bool.false_eq_true, ↓reduceIte] at hstep
  case call => simp [hpc] at hstep
  case resume => simp [resume, hpc, hrun] at hstep
  case readerRead | readerSend =>
    simp only [readerRead, readerSend] at hstep
    repeat' split at hstep
    all_goals first | (cases hstep; exact ⟨rfl, hpc⟩) | cases hstep
  all_goals
    obtain ⟨s'', h1, h2⟩ := Option.map_eq_some'.mp hstep
    cases h2
    simp only [readerEnter, readerShutdown, readerAbort, childExit] at h1
    repeat' split at h1
    all_goals first | (cases h1; exact ⟨rfl, hpc⟩) | cases h1

/-- A child that writes ledger 64 and then nothing while it lives. -/
def silentPipe : Pipe := fun i ↦ if i = 0 then .frame ⟨64, 0⟩ else .silent

/-- The bounded session `[65, 66]` with that child opens; the reader starts its second read;
the user calls `Close`. -/
def silentCloseRun : List Action :=
  .call (.prepareRange (boundedRange 65 66)) (archiveEnv 100 silentPipe) :: readOne ++
    [.resume (archiveEnv 100 silentPipe), .readerEnter, .call .close (archiveEnv 100 silentPipe)]

/-- `Close` waits for the reader before it kills the child, and nothing it does moves while
it waits; with a live child that writes nothing and a reader blocked reading its pipe, the
only step left is the child's own exit. -/
theorem close_waits_on_silent_child :
    (∀ s a s' r k, s.pc = .closeWait k → s.readerRunning = true → step s a = some (s', r) →
      r = none ∧ s'.pc = .closeWait k) ∧
    ∃ s, run (Sys.fresh "") silentCloseRun = some (s, [.prepareRange (boundedRange 65 66) none]) ∧
      s.pc = .closeWait .user ∧ s.reader = some ⟨66, 1, .reading⟩ ∧
      (∃ rn, s.core.hcnetCoreRunner = some (.live rn) ∧ rn.alive = true) ∧
      ∀ a, step s a = none ∨ ∃ e, a = .childExit e :=
  ⟨fun _ _ _ _ _ hpc hrun hstep ↦ closeWait_step hpc hrun hstep, _, rfl, rfl, rfl,
    ⟨_, rfl, rfl⟩, fun a ↦ by
      cases a with
      | childExit e => exact .inr ⟨e, rfl⟩
      | _ => exact .inl rfl⟩

/-- The reader is blocked in a read of a child that is alive and writes nothing. -/
def ReaderStalled (s : Sys) : Prop :=
  s.fault = none ∧ ∃ u pos rn p, s.reader = some ⟨u, pos, .reading⟩ ∧
    s.core.hcnetCoreRunner = some (.live rn) ∧ rn.alive = true ∧ rn.metaPipe = some p ∧
    p pos = .silent

/-- While `Close` waits on a stalled reader, only the child's own exit is enabled. -/
theorem stalled_step {s : Sys} {k : CloseCaller} (hpc : s.pc = .closeWait k)
    (h : ReaderStalled s) {a : Action} {o : Out} (hstep : step s a = some o) :
    ∃ e, a = .childExit e := by
  obtain ⟨hf, u, pos, rn, p, hrd, hrn, halive, hp, hsil⟩ := h
  cases a with
  | childExit e => exact ⟨e, rfl⟩
  | _ =>
    simp [step, hf, hpc, resume, Sys.readerRunning, readerEnter, readerShutdown, readerRead,
      readerSend, readerAbort, hrd, hrn, readLedgerMetaFromPipe, hp, hsil, halive] at hstep

/-- Every run from there that takes a step starts with the child's exit. -/
theorem stalled_run {s : Sys} {k : CloseCaller} (hpc : s.pc = .closeWait k)
    (h : ReaderStalled s) {as : List Action} {s' : Sys} {rs : List Ret}
    (hrun : run s as = some (s', rs)) :
    (s' = s ∧ rs = []) ∨ ∃ e as', as = .childExit e :: as' := by
  cases as with
  | nil =>
    simp only [run, Option.some.injEq, Prod.mk.injEq] at hrun
    exact .inl ⟨hrun.1.symm, hrun.2.symm⟩
  | cons a as =>
    obtain ⟨s₁, r, rs₂, hstep, -, -⟩ := run_cons_eq_some.mp hrun
    obtain ⟨e, rfl⟩ := stalled_step hpc h hstep
    exact .inr ⟨e, as, rfl⟩

/-- A child that writes ledger 64, then ledger 66, skipping 65, and then nothing while it
lives. -/
def gapPipe : Pipe := fun n ↦
  if n = 0 then .frame ⟨64, 0⟩ else if n = 1 then .frame ⟨66, 0⟩ else .silent

/-- An archive at checkpoint 100 whose runner starts `gapPipe`. -/
def gapEnv : Env := archiveEnv 100 gapPipe

/-- `PrepareRange(BoundedRange(65, 70))` over `gapPipe`, `GetLedger(64)`, and the reader moving
ledger 66 into the buffer. -/
def gapOpenRun : List Action :=
  .call (.prepareRange (boundedRange 65 70)) gapEnv :: readOne ++
    [.resume gapEnv, .call (.getLedger 64) gapEnv, .resume gapEnv] ++ readOne

/-- Then `GetLedger(65)`, with the reader stopping at the closed `shutdown`. -/
def gapRun : List Action :=
  gapOpenRun ++ [.call (.getLedger 65) gapEnv, .resume gapEnv, .readerShutdown]

/-- Then `GetLedger(65)`, with the reader already in its next read of the pipe. -/
def gapStallRun : List Action :=
  gapOpenRun ++ [.readerEnter, .call (.getLedger 65) gapEnv, .resume gapEnv]

/-- For every pipe and every interleaving: (a) a ledger `GetLedger(sequence)` returns has
that sequence and is the cached ledger afterwards; (b) while a session's channels are open,
the ledgers the consumer accepted are the frames of the pipe's first reads, in order, with
the sequences `sessionStart, sessionStart + 1, …, nextLedger - 1`, and the buffered items and
the item being sent are the pipe's next reads; (c) an error item or a frame out of sequence
at the head of the buffer makes `GetLedger` close the session without accepting it, and a
return from that `Close` is the error. But the `Close` waits for the reader: from a state
where the reader is blocked in a read of a live, silent child, every run that takes a step
starts with the child's own exit, and after the gap `64, 66` of such a child `GetLedger(65)`
gets there when the reader has entered its next read. -/
theorem getLedger_gap_waits_on_silent_child :
    (∀ s a s' sequence meta, Reachable s →
      step s a = some (s', some (.getLedger sequence true meta none)) →
      meta.ledgerSequence = sequence ∧ s'.core.cachedMeta = some meta) ∧
    (∀ s, Reachable s → s.fault = none → s.core.shutdown = some .empty →
      ∃ rn p, s.core.hcnetCoreRunner = some (.live rn) ∧ rn.metaPipe = some p ∧
        (∀ i (hi : i < s.accepted.length), p i = .frame s.accepted[i] ∧
          s.accepted[i].ledgerSequence = s.sessionStart + UInt32.ofNat i) ∧
        s.core.nextLedger = s.sessionStart + UInt32.ofNat s.accepted.length ∧
        ReadsFrom p s.accepted.length (bufferOf s.core ++ heldOf s.reader)) ∧
    (∀ s env sequence k x rest, Reachable s → s.fault = none →
      s.pc = .getLedger sequence k → s.core.metaC = some ⟨x :: rest, false⟩ →
      (∀ m, x = ⟨some m, none⟩ → m.ledgerSequence ≠ s.core.nextLedger) →
      ∃ e s', step s (.resume env) = some (s', none) ∧
        s'.pc = .closeWait (.getLedgerErr sequence e k) ∧ s'.core.nextLedger = 0 ∧
        s'.accepted = s.accepted) ∧
    (∀ s a s' r sequence e, s.pc = .closeWait (.getLedgerErr sequence e .user) →
      step s a = some (s', some r) → r = .getLedger sequence false default (some e)) ∧
    (∀ s k as s' rs, s.pc = .closeWait k → ReaderStalled s → run s as = some (s', rs) →
      (s' = s ∧ rs = []) ∨ ∃ e as', as = .childExit e :: as') ∧
    ∃ s, run (Sys.fresh "") gapStallRun =
        some (s, [.prepareRange (boundedRange 65 70) none, .getLedger 64 true ⟨64, 0⟩ none]) ∧
      s.pc = .closeWait
        (.getLedgerErr 65 (.new "unexpected ledger (expected=65 actual=66)") .user) ∧
      ReaderStalled s :=
  ⟨getLedger_stream.1, getLedger_stream.2.1, getLedger_stream.2.2.1, getLedger_stream.2.2.2,
    fun _ _ _ _ _ hpc h hrun ↦ stalled_run hpc h hrun, _, rfl, rfl, rfl, _, _, _, _, rfl, rfl,
    rfl, rfl, rfl⟩

theorem getLedger_gap_returns_when_reader_stops :
    (∃ s s', Reachable s ∧
      step s (.resume gapEnv) = some (s', some (.getLedger 64 true ⟨64, 0⟩ none)) ∧
      s'.core.cachedMeta = some ⟨64, 0⟩) ∧
    (∃ s, Reachable s ∧ s.fault = none ∧ s.core.shutdown = some .empty ∧
      s.accepted = [⟨64, 0⟩] ∧ s.core.nextLedger = s.sessionStart + 1) ∧
    (∃ s s' e, Reachable s ∧ s.fault = none ∧ s.pc = .getLedger 65 .user ∧
      s.core.metaC = some ⟨[⟨some ⟨66, 0⟩, none⟩], false⟩ ∧
      step s (.resume gapEnv) = some (s', none) ∧
      s'.pc = .closeWait (.getLedgerErr 65 e .user) ∧ s'.core.nextLedger = 0) ∧
    (∃ s s' e r, Reachable s ∧ s.pc = .closeWait (.getLedgerErr 65 e .user) ∧
      step s (.resume gapEnv) = some (s', some r) ∧ r = .getLedger 65 false default (some e)) ∧
    ∃ s, Reachable s ∧ s.pc = .closeWait
        (.getLedgerErr 65 (.new "unexpected ledger (expected=65 actual=66)") .user) ∧
      ReaderStalled s ∧ ∀ as s' rs, run s as = some (s', rs) →
        (s' = s ∧ rs = []) ∨ ∃ e as', as = .childExit e :: as' := by
  have hst := getLedger_gap_waits_on_silent_child
  have h₁ := Reachable.of_run (.call (.prepareRange (boundedRange 65 70)) gapEnv :: readOne ++
    [.resume gapEnv, Action.call (.getLedger 64) gapEnv]) (.fresh "") rfl
  have h₂ := Reachable.of_run [.resume gapEnv] h₁ rfl
  have h₃ := Reachable.of_run (readOne ++ [Action.call (.getLedger 65) gapEnv]) h₂ rfl
  obtain ⟨s₄, hrun₄, hpc₄, hst₄⟩ := hst.2.2.2.2.2
  refine ⟨⟨_, _, h₁, rfl, (hst.1 _ (.resume gapEnv) _ _ _ h₁ rfl).2⟩,
    ⟨_, h₂, rfl, rfl, rfl, (hst.2.1 _ h₂ rfl rfl).choose_spec.choose_spec.2.2.2.1⟩, ?_,
    ⟨after (Sys.fresh "") gapRun, _, _, _, .after gapRun (.fresh "") rfl, rfl, rfl,
      hst.2.2.2.1 (after (Sys.fresh "") gapRun) (.resume gapEnv) _ _ _ _ rfl rfl⟩,
    s₄, .of_run gapStallRun (.fresh "") hrun₄, hpc₄, hst₄,
    fun as _ _ hrun ↦ hst.2.2.2.2.1 s₄ _ as _ _ hpc₄ hst₄ hrun⟩
  obtain ⟨e, s', h1, h2, h3, -⟩ := hst.2.2.1 _ gapEnv 65 .user ⟨some ⟨66, 0⟩, none⟩ [] h₃ rfl
    rfl rfl fun m hm ↦ by cases hm; decide
  exact ⟨_, s', e, h₃, rfl, rfl, rfl, h1, h2, h3⟩

end AuroraIngest.Captive.Deadlock
