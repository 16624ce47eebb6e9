import AuroraIngest.Captive.Representation

/-!
# The read-ahead buffer delivers the pipe in order

`GetLedger` reads the session's stream through `metaC`. Whatever the child writes and however
the reader and the consumer interleave, the ledgers the consumer accepts in a session are the
pipe's first frames, in order, with the sequences `n0, n0 + 1, …` from the `nextLedger` the
session was opened with, and the items still buffered are the pipe's next ones. An item that
is an error or breaks the sequence closes the session, and the `Close` that `GetLedger` makes
then returns the error, if it returns at all: it first waits for the reader (see `Deadlock`).
-/

namespace AuroraIngest.Captive.Stream

open AuroraIngest.Captive.Ledger AuroraIngest.Captive.State AuroraIngest.Captive.Backend
open AuroraIngest.Captive.Step AuroraIngest.Captive.Invariant AuroraIngest.Captive.Consumer
open AuroraIngest.Captive.Representation

theorem readerRead_ret {s : Sys} {o : Out} (h : readerRead s = some o) : o.2 = none := by
  unfold readerRead at h
  split at h
  · split at h
    · split at h
      · cases h
      · cases h
        rfl
      · cases h
        rfl
    · cases h
      rfl
  · cases h

theorem readerSend_ret {s : Sys} {o : Out} (h : readerSend s = some o) : o.2 = none := by
  unfold readerSend at h
  split at h
  · split at h
    · split at h
      · cases h
        rfl
      · split at h
        · cases h
          rfl
        · cases h
    · cases h
  · cases h

/-- Only the consumer's actions return a value. -/
theorem step_ret {s s' : Sys} {a : Action} {r : Ret} (h : step s a = some (s', some r)) :
    (∃ op env, a = .call op env) ∨ ∃ env, a = .resume env := by
  unfold step at h
  split at h
  · cases h
  · cases a with
    | call op env => exact .inl ⟨op, env, rfl⟩
    | resume env => exact .inr ⟨env, rfl⟩
    | readerRead => exact absurd (readerRead_ret h) (by simp)
    | readerSend => exact absurd (readerSend_ret h) (by simp)
    | readerEnter | readerShutdown | readerAbort | childExit =>
      obtain ⟨_, -, h⟩ := Option.map_eq_some'.mp h
      cases h

/-- `Close` on an open session blocks in `wait.Wait()` with the session forgotten. -/
theorem closeBegin_open (s : Sys) (hsh : s.core.shutdown = some .empty) (env : Env)
    (k : CloseCaller) :
    (closeBegin s env k).2 = none ∧ (closeBegin s env k).1.pc = .closeWait k ∧
      (closeBegin s env k).1.core.nextLedger = 0 ∧
      (closeBegin s env k).1.accepted = s.accepted := by
  simp [closeBegin, hsh, Chan.empty, Sys.await, Sys.modify]

/-- The end of a `Close` that `GetLedger` made on an error returns that error. -/
theorem closeRunner_getLedgerErr {s : Sys} {env : Env} {sequence : UInt32} {e : Err} {r : Ret}
    (h : (closeRunner s env (.getLedgerErr sequence e .user)).2 = some r) :
    r = .getLedger sequence false default (some e) := by
  unfold closeRunner at h
  split at h
  · simpa [closeReturn, getLedgerReturn, Sys.finish] using h.symm
  · cases h
  · simpa [closeReturn, getLedgerReturn, Sys.finish] using h.symm

theorem closeEnd_getLedgerErr {s : Sys} {env : Env} {sequence : UInt32} {e : Err} {r : Ret}
    (h : (closeEnd s env (.getLedgerErr sequence e .user)).2 = some r) :
    r = .getLedger sequence false default (some e) := by
  unfold closeEnd at h
  split at h
  · cases h
  · split at h
    · cases h
    · exact closeRunner_getLedgerErr h

/-- `GetLedger`'s loop takes an item that is an error or a frame out of sequence: the session
is closed and the call waits for the reader with the error to return. -/
theorem getLedgerReceive_bad (s : Sys) (env : Env) (sequence : UInt32) (k : GetCaller)
    {x : MetaResult} (hx : ItemOk False x)
    (hbad : ∀ m, x = ⟨some m, none⟩ → m.ledgerSequence ≠ s.core.nextLedger) :
    ∃ e, getLedgerReceive s env sequence k x = closeBegin s env (.getLedgerErr sequence e k) := by
  rcases hx with ⟨m, rfl, -⟩ | ⟨e, rfl⟩
  · exact ⟨_, by simp [getLedgerReceive, hbad m rfl]; rfl⟩
  · exact ⟨e, rfl⟩

/-- For every pipe and every interleaving: (a) a ledger `GetLedger(sequence)` returns has
that sequence and is the cached ledger afterwards; (b) while a session's channels are open,
the ledgers the consumer accepted are the frames of the pipe's first reads, in order, with
the sequences `sessionStart, sessionStart + 1, …, nextLedger - 1`, and the buffered items and
the item being sent are the pipe's next reads; (c) an error item or a frame out of sequence
at the head of the buffer makes `GetLedger` close the session without accepting it, and a
return from that `Close` returns the error to `GetLedger`'s caller. -/
theorem getLedger_stream :
    (∀ s a s' sequence meta, Reachable s →
      step s a = some (s', some (.getLedger sequence true meta none)) →
      meta.ledgerSequence = sequence ∧ s'.core.cachedMeta = some meta) ∧
    (∀ s, Reachable s → s.fault = none → s.core.shutdown = some .empty →
      ∃ rn p, s.core.hcnetCoreRunner = some (.live rn) ∧ rn.metaPipe = some p ∧
        (∀ i (hi : i < s.accepted.length), p i = .frame s.accepted[i] ∧
          s.accepted[i].ledgerSequence = s.sessionStart + UInt32.ofNat i) ∧
        s.core.nextLedger = s.sessionStart + UInt32.ofNat s.accepted.length ∧
        ReadsFrom p s.accepted.length (bufferOf s.core ++ heldOf s.reader)) ∧
    (∀ s env sequence k x rest, Reachable s → s.fault = none → s.pc = .getLedger sequence k →
      s.core.metaC = some ⟨x :: rest, false⟩ →
      (∀ m, x = ⟨some m, none⟩ → m.ledgerSequence ≠ s.core.nextLedger) →
      ∃ e s', step s (.resume env) = some (s', none) ∧
        s'.pc = .closeWait (.getLedgerErr sequence e k) ∧ s'.core.nextLedger = 0 ∧
        s'.accepted = s.accepted) ∧
    (∀ s a s' r sequence e, s.pc = .closeWait (.getLedgerErr sequence e .user) →
      step s a = some (s', some r) → r = .getLedger sequence false default (some e)) := by
  refine ⟨fun s a s' sequence meta h hstep ↦ ?_, fun s h hf hsh ↦ ?_,
    fun s env sequence k x rest h hf hpc hm hbad ↦ ?_, fun s a s' r sequence e hpc hstep ↦ ?_⟩
  · obtain ⟨-, hr⟩ := ok_step (inv_of_reachable h) (actionOk_false a) hstep
    exact (hr _ rfl).2.2 rfl rfl
  · obtain ⟨-, -, -, hs⟩ := (inv_of_reachable h).resolve_left (by simp [hf])
    obtain ⟨rn, p, rd, h1, h2, -, hst⟩ := hs hsh
    have hreads := hst.reads
    simp only [takenWith, List.append_nil, List.append_assoc] at hreads
    refine ⟨rn, p, h1, h2, fun i hi ↦ ⟨?_, (consecutive_getElem hst.consecutive).1 i hi⟩,
      (consecutive_getElem hst.consecutive).2, ?_⟩
    · simpa using readsFrom_accepted hreads i hi
    · simpa using (readsFrom_append.mp hreads).2
  · obtain ⟨-, hb, hpcok, -⟩ := (inv_of_reachable h).resolve_left (by simp [hf])
    rw [hpc] at hpcok
    have hsh : s.core.shutdown = some .empty := hpcok.opened.2.1
    obtain ⟨e, he⟩ := getLedgerReceive_bad (s.modify fun c ↦ { c with metaC := some ⟨rest, false⟩ })
      env sequence k (hb.buffered _ _ x hm (by simp)) hbad
    obtain ⟨h1, h2, h3, h4⟩ := closeBegin_open
      (s.modify fun c ↦ { c with metaC := some ⟨rest, false⟩ }) hsh env (.getLedgerErr sequence e k)
    refine ⟨e, _, ?_, h2, h3, h4⟩
    simp only [step, hf, Option.isSome_none, Bool.false_eq_true, ↓reduceIte, resume, hpc,
      getLedgerLoop, Core.bufLen, hm]
    simp [he, ← h1]
  · rcases step_ret hstep with ⟨op, env, rfl⟩ | ⟨env, rfl⟩
    · simp only [step, hpc] at hstep
      split at hstep <;> simp at hstep
    · simp only [step, resume, hpc] at hstep
      split at hstep
      · cases hstep
      · split at hstep
        · cases hstep
        · exact closeEnd_getLedgerErr (by rw [Option.some.inj hstep])

end AuroraIngest.Captive.Stream
