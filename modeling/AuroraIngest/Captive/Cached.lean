import AuroraIngest.Captive.Prepare

/-!
# A ledger `GetLedger` found is found again

`GetLedger(sequence)` looks at `cachedMeta` before anything else, and every call that returns
a ledger has cached it. So once `GetLedger(s)` has returned `(true, m, nil)`, each call
`GetLedger(s)` that follows, before any other call, returns `(true, m, nil)` and leaves the
whole backend as it found it, however the reader goroutine and the child move in between:
neither of them writes `cachedMeta` or the consumer's program counter, and neither panics in
a reachable state. The call that closed a bounded session at its last ledger is no exception,
since `Close` keeps `cachedMeta`.
-/

namespace AuroraIngest.Captive.Cached

open AuroraIngest.Captive.Ledger AuroraIngest.Captive.State AuroraIngest.Captive.Backend
open AuroraIngest.Captive.Step AuroraIngest.Captive.Invariant AuroraIngest.Captive.Prepare

/-- The actions of the reader goroutine and of the child, which run between the consumer's
calls. -/
def background : Action → Bool
  | .call _ _ | .resume _ => false
  | _ => true

/-- A step of the reader or the child returns nothing, does not panic, and leaves the
consumer's program counter and `cachedMeta` alone. -/
theorem background_step {s s' : Sys} {a : Action} {r : Option Ret} (hb : Base False s)
    (hf : s.fault = none) (ha : background a = true) (h : step s a = some (s', r)) :
    r = none ∧ s'.fault = none ∧ s'.pc = s.pc ∧ s'.core.cachedMeta = s.core.cachedMeta := by
  cases a <;> simp only [background, Bool.false_eq_true] at ha <;>
    simp only [step, hf, Option.isSome_none, Bool.false_eq_true, ↓reduceIte] at h
  case readerEnter | readerShutdown | readerAbort | childExit =>
    simp only [readerEnter, readerShutdown, readerAbort, childExit, Option.map_eq_some'] at h
    repeat' split at h
    all_goals simp at h
    all_goals obtain ⟨rfl, rfl⟩ := h; exact ⟨rfl, hf, rfl, rfl⟩
  case readerRead =>
    unfold readerRead at h
    split at h
    · next hrd =>
      obtain ⟨rn, hrn⟩ := hb.runner_of_reader (by simp [Sys.readerRunning, hrd])
      simp only [hrn] at h
      split at h
      · cases h
      · cases h
        exact ⟨rfl, hf, rfl, rfl⟩
      · cases h
        unfold readerError
        split <;> exact ⟨rfl, hf, rfl, rfl⟩
    · cases h
  case readerSend =>
    unfold readerSend at h
    split at h
    · next hrd =>
      obtain ⟨buf, hm⟩ := hb.metaC_of_shutdown
        (hb.shutdown_of_running (by simp [Sys.readerRunning, hrd]))
      simp only [hm, Bool.false_eq_true, ↓reduceIte] at h
      split at h
      · cases h
        exact ⟨rfl, hf, rfl, rfl⟩
      · cases h
    · cases h

/-- The error path of a read changes only the process's exit and the runner's offer. -/
theorem readerError_fields (c : Core) (rn : Runner) (err : Err) :
    (readerError c rn err).1.nextLedger = c.nextLedger ∧
      (readerError c rn err).1.lastLedger = c.lastLedger ∧
      (readerError c rn err).1.blocking = c.blocking ∧
      (readerError c rn err).1.shutdown = c.shutdown ∧
      (readerError c rn err).1.metaC = c.metaC := by
  unfold readerError
  split <;> exact ⟨rfl, rfl, rfl, rfl, rfl⟩

/-- What a step of the reader or the child changes: the reader, an append to an open `metaC`
and the runner's exit state, and, on the error path of a read, the process's exit.
Everything else the consumer reads stays. -/
theorem background_frame {s s' : Sys} {a : Action} {r : Option Ret} (hf : s.fault = none)
    (ha : background a = true) (h : step s a = some (s', r)) :
    s'.core.nextLedger = s.core.nextLedger ∧ s'.core.lastLedger = s.core.lastLedger ∧
      s'.core.blocking = s.core.blocking ∧ s'.core.shutdown = s.core.shutdown ∧
      s'.accepted = s.accepted ∧ s'.sessionStart = s.sessionStart ∧
      (∀ buf, s.core.metaC = some ⟨buf, false⟩ → ∃ xs, s'.core.metaC = some ⟨buf ++ xs, false⟩) ∧
      ((s'.core.processExit = s.core.processExit ∧ ∀ rn, s.core.hcnetCoreRunner = some (.live rn) →
          ∃ rn', s'.core.hcnetCoreRunner = some (.live rn') ∧ rn'.metaPipe = rn.metaPipe) ∨
        ∃ u pos rn e, a = .readerRead ∧ s.reader = some ⟨u, pos, .reading⟩ ∧
          s.core.hcnetCoreRunner = some (.live rn) ∧ readLedgerMetaFromPipe rn pos = some (.error e)) := by
  have hsame : ∀ t : Sys, t.core = s.core → t.accepted = s.accepted →
      t.sessionStart = s.sessionStart →
      t.core.nextLedger = s.core.nextLedger ∧ t.core.lastLedger = s.core.lastLedger ∧
      t.core.blocking = s.core.blocking ∧ t.core.shutdown = s.core.shutdown ∧
      t.accepted = s.accepted ∧ t.sessionStart = s.sessionStart ∧
      (∀ buf, s.core.metaC = some ⟨buf, false⟩ → ∃ xs, t.core.metaC = some ⟨buf ++ xs, false⟩) ∧
      ((t.core.processExit = s.core.processExit ∧ ∀ rn, s.core.hcnetCoreRunner = some (.live rn) →
          ∃ rn', t.core.hcnetCoreRunner = some (.live rn') ∧ rn'.metaPipe = rn.metaPipe) ∨
        ∃ u pos rn e, a = .readerRead ∧ s.reader = some ⟨u, pos, .reading⟩ ∧
          s.core.hcnetCoreRunner = some (.live rn) ∧ readLedgerMetaFromPipe rn pos = some (.error e)) :=
    fun t hc ha hss ↦ by
      rw [hc, ha, hss]
      exact ⟨rfl, rfl, rfl, rfl, rfl, rfl, fun buf h ↦ ⟨[], by simpa using h⟩,
        .inl ⟨rfl, fun rn h ↦ ⟨rn, h, rfl⟩⟩⟩
  cases a <;> simp only [background, Bool.false_eq_true] at ha <;>
    simp only [step, hf, Option.isSome_none, Bool.false_eq_true, ↓reduceIte] at h
  case readerEnter | readerShutdown | readerAbort =>
    simp only [readerEnter, readerShutdown, readerAbort, Option.map_eq_some'] at h
    repeat' split at h
    all_goals simp at h
    all_goals obtain ⟨rfl, rfl⟩ := h; exact hsame _ rfl rfl rfl
  case childExit e =>
    obtain ⟨t, ht, heq⟩ := Option.map_eq_some'.mp h
    obtain ⟨rfl, rfl⟩ := Prod.mk.inj heq
    unfold childExit at ht
    split at ht
    · next rn hrn =>
      split at ht
      · cases ht
        refine ⟨rfl, rfl, rfl, rfl, rfl, rfl, fun buf h ↦ ⟨[], by simpa [Sys.modify] using h⟩,
          .inl ⟨rfl, fun rn' h' ↦ ⟨_, rfl, ?_⟩⟩⟩
        rw [hrn, Option.some.injEq, RunnerRef.live.injEq] at h'
        rw [h']
      · cases ht
    · cases ht
  case readerRead =>
    unfold readerRead at h
    split at h
    · next u pos hrd =>
      split at h
      · next rn hrn =>
        split at h
        · cases h
        · cases h
          exact hsame _ rfl rfl rfl
        · next e herr =>
          cases h
          obtain ⟨h1, h2, h3, h4, h5⟩ := readerError_fields s.core rn e
          exact ⟨h1, h2, h3, h4, rfl, rfl, fun buf h ↦ ⟨[], by rw [List.append_nil]; exact h5.trans h⟩,
            .inr ⟨u, pos, rn, e, rfl, hrd, hrn, herr⟩⟩
      · cases h
        exact hsame _ rfl rfl rfl
    · cases h
  case readerSend =>
    unfold readerSend at h
    split at h
    · split at h
      · next ch hch =>
        split at h
        · cases h
          exact hsame _ rfl rfl rfl
        · split at h
          · cases h
            refine ⟨rfl, rfl, rfl, rfl, rfl, rfl, fun buf hm ↦ ?_, .inl ⟨rfl, fun rn h ↦ ⟨rn, h, rfl⟩⟩⟩
            rw [hch, Option.some.injEq] at hm
            subst hm
            exact ⟨_, rfl⟩
          · cases h
      · cases h
    · cases h

/-- An idle consumer with `m` cached answers `GetLedger` of `m`'s sequence from the cache and
leaves the state as it is. -/
theorem getLedger_cached {s : Sys} {m : LedgerCloseMeta} (hf : s.fault = none)
    (hpc : s.pc = .idle) (hc : s.core.cachedMeta = some m) (env : Env) :
    step s (.call (.getLedger m.ledgerSequence) env) =
      some (s, some (.getLedger m.ledgerSequence true m none)) := by
  obtain ⟨core, reader, pc, fault, accepted, sessionStart⟩ := s
  simp only at hf hpc hc
  subst hf hpc
  simp [step, call, getLedgerBegin, cacheHit, hc, getLedgerReturn, Sys.finish]

/-- Between the calls that repeat `GetLedger` of `m`'s sequence: a reachable idle state that
has not panicked and has `m` cached. -/
structure Repeats (m : LedgerCloseMeta) (s : Sys) : Prop where
  reachable : Reachable s
  fault : s.fault = none
  idle : s.pc = .idle
  cached : s.core.cachedMeta = some m

/-- A call that returned a ledger leaves it cached with an idle consumer. -/
theorem repeats_of_return {s₀ s₁ : Sys} {a : Action} {sequence : UInt32} {m : LedgerCloseMeta}
    (h : Reachable s₀) (hret : step s₀ a = some (s₁, some (.getLedger sequence true m none))) :
    Repeats m s₁ ∧ m.ledgerSequence = sequence := by
  obtain ⟨-, hr⟩ := Representation.ok_step (Representation.inv_of_reachable h) (actionOk_false a) hret
  obtain ⟨hf, hidle, hok⟩ := hr _ rfl
  obtain ⟨hseq, hc⟩ := hok rfl rfl
  exact ⟨⟨.next h hret, hf, hidle, hc⟩, hseq⟩

theorem repeats_step {s s' : Sys} {m : LedgerCloseMeta} {a : Action} {r : Option Ret}
    (h : Repeats m s)
    (ha : background a = true ∨ ∃ env, a = .call (.getLedger m.ledgerSequence) env)
    (hstep : step s a = some (s', r)) :
    Repeats m s' ∧ ∀ x ∈ r, x = .getLedger m.ledgerSequence true m none := by
  rcases ha with ha | ⟨env, rfl⟩
  · obtain ⟨-, hb, -, -⟩ := (Representation.inv_of_reachable h.reachable).resolve_left
      (by simp [h.fault])
    obtain ⟨rfl, hf, hpc, hc⟩ := background_step hb h.fault ha hstep
    exact ⟨⟨.next h.reachable hstep, hf, hpc.trans h.idle, hc.trans h.cached⟩, nofun⟩
  · rw [getLedger_cached h.fault h.idle h.cached env, Option.some.injEq, Prod.mk.injEq] at hstep
    obtain ⟨rfl, rfl⟩ := hstep
    exact ⟨h, fun x hx ↦ (Option.mem_some_iff.mp hx).symm⟩

theorem repeats_run {s t : Sys} {m : LedgerCloseMeta} {as : List Action} {rs : List Ret}
    (h : Repeats m s)
    (has : ∀ a ∈ as, background a = true ∨ ∃ env, a = .call (.getLedger m.ledgerSequence) env)
    (hrun : run s as = some (t, rs)) :
    Repeats m t ∧ ∀ x ∈ rs, x = .getLedger m.ledgerSequence true m none := by
  induction as generalizing s rs with
  | nil =>
    simp only [run, Option.some.injEq, Prod.mk.injEq] at hrun
    obtain ⟨rfl, rfl⟩ := hrun
    exact ⟨h, nofun⟩
  | cons a as ih =>
    obtain ⟨s₁, r, rs₂, hstep, h₂, rfl⟩ := run_cons_eq_some.mp hrun
    obtain ⟨h₁, hr⟩ := repeats_step h (has a (.head _)) hstep
    obtain ⟨ht, hrs⟩ := ih h₁ (fun a ha ↦ has a (.tail _ ha)) h₂
    refine ⟨ht, fun x hx ↦ ?_⟩
    rcases List.mem_append.mp hx with hx | hx
    exacts [hr x (Option.mem_toList.mp hx), hrs x hx]

/-- After `GetLedger(sequence)` returned `(true, m, nil)` in a reachable state, in every run
of the reader, the child and further calls `GetLedger(sequence)`, every call returns
`(true, m, nil)`, and the next one returns it again and changes nothing. -/
theorem getLedger_repeats {s₀ s₁ : Sys} {a : Action} {sequence : UInt32}
    {m : LedgerCloseMeta} (h : Reachable s₀)
    (hret : step s₀ a = some (s₁, some (.getLedger sequence true m none)))
    {as : List Action}
    (has : ∀ b ∈ as, background b = true ∨ ∃ env, b = .call (.getLedger sequence) env)
    {t : Sys} {rs : List Ret} (hrun : run s₁ as = some (t, rs)) :
    (∀ r ∈ rs, r = .getLedger sequence true m none) ∧
      ∀ env, step t (.call (.getLedger sequence) env) =
        some (t, some (.getLedger sequence true m none)) := by
  obtain ⟨h₁, rfl⟩ := repeats_of_return h hret
  obtain ⟨ht, hrs⟩ := repeats_run h₁ has hrun
  exact ⟨hrs, getLedger_cached ht.fault ht.idle ht.cached⟩

/-- The bounded session `[65, 66]`: `GetLedger(66)` reads 64, 65 and 66 and, 66 being the
session's last ledger, closes the session before it returns. -/
def lastLedgerRun : List Action :=
  offlineRun ++ [.call (.getLedger 66) (archiveEnv 100 (ledgerStream 64 0)),
    .resume (archiveEnv 100 (ledgerStream 64 0))] ++ readOne ++
    [.resume (archiveEnv 100 (ledgerStream 64 0))] ++ readOne ++
    [.resume (archiveEnv 100 (ledgerStream 64 0))]

theorem getLedger_repeats_after_close :
    ∃ s₀ s₁ t rs, Reachable s₀ ∧
      step s₀ (.resume (archiveEnv 100 (ledgerStream 64 0))) =
        some (s₁, some (.getLedger 66 true ⟨66, 0⟩ none)) ∧
      isClosed s₁.core = true ∧
      run s₁ [.call (.getLedger 66) (archiveEnv 100 (ledgerStream 64 0)),
        .call (.getLedger 66) (archiveEnv 100 (ledgerStream 64 0))] = some (t, rs) ∧
      (∀ r ∈ rs, r = .getLedger 66 true ⟨66, 0⟩ none) ∧
      ∀ env, step t (.call (.getLedger 66) env) = some (t, some (.getLedger 66 true ⟨66, 0⟩ none)) :=
  have h₀ := Reachable.after lastLedgerRun (.fresh "") rfl
  have h₁ : step (after (Sys.fresh "") lastLedgerRun) (.resume (archiveEnv 100 (ledgerStream 64 0))) =
      some (after (Sys.fresh "") (lastLedgerRun ++ [.resume (archiveEnv 100 (ledgerStream 64 0))]),
        some (.getLedger 66 true ⟨66, 0⟩ none)) := rfl
  have h₂ : run (after (Sys.fresh "") (lastLedgerRun ++ [.resume (archiveEnv 100 (ledgerStream 64 0))]))
      [.call (.getLedger 66) (archiveEnv 100 (ledgerStream 64 0)),
        .call (.getLedger 66) (archiveEnv 100 (ledgerStream 64 0))] =
      some (after (Sys.fresh "") (lastLedgerRun ++ [.resume (archiveEnv 100 (ledgerStream 64 0))]),
        [.getLedger 66 true ⟨66, 0⟩ none, .getLedger 66 true ⟨66, 0⟩ none]) := rfl
  ⟨_, _, _, _, h₀, h₁, rfl, h₂,
    getLedger_repeats h₀ h₁ (fun _ hb ↦ .inr ⟨_, by simpa using hb⟩) h₂⟩

end AuroraIngest.Captive.Cached
