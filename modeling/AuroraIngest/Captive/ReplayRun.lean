import AuroraIngest.Captive.Replay

/-!
# Every run of a bounded replay

Once `GetLedger` takes ledger `to`, `Close` waits for the reader, which has already
returned, kills the child and returns the cached ledger: the session is over and the
backend closed. Every step a replay allows (the reader's, the child's exit, `GetLedger`
requests from the last one on and not past `to`, and resumes whose kill of the child
succeeds) keeps the replay, returns only nil from `PrepareRange` and the requested ledger
from `GetLedger`, and while a call is pending lowers `replayWork`; some such step is always
enabled. So in every interleaving each call returns, with the right ledger.

Two conditions are needed besides the range and the child: the closed backend must not
hold ledger `to` in `cachedMeta`, which would answer `GetLedger(to)` with the session left
open, and the kill of the child must succeed, or `GetLedger(to)` returns an error. A runner
the backend still holds from a failed start is closed by `PrepareRange`'s own `Close` and
replaced.
-/

namespace AuroraIngest.Captive.Replay

open AuroraIngest.Captive.Ledger AuroraIngest.Captive.State AuroraIngest.Captive.Backend
open AuroraIngest.Captive.Step AuroraIngest.Captive.Invariant AuroraIngest.Captive.Representation
open AuroraIngest.Captive.Prepare

section Closing

variable {n0 «to» : UInt32} {s : Sys}

/-- `Close` has forgotten the session and closed `shutdown`; ledger `to` is cached. -/
theorem ReplayClosing.core (h : ReplayClosing n0 «to» s) :
    Closing s.core ∧ ∃ m, s.core.cachedMeta = some m ∧ m.ledgerSequence = «to» := by
  rcases h.inv with hf | ⟨-, -, hpc, -⟩
  · simp [h.fault] at hf
  rw [h.pc] at hpc
  exact hpc

theorem ReplayClosing.readerRunning (h : ReplayClosing n0 «to» s) : s.readerRunning = false := by
  simp [Sys.readerRunning, h.reader]

/-- Once the reader has returned, `Close` kills the child and `GetLedger(to)` returns the
cached ledger. -/
theorem replayClosing_resume (h : ReplayClosing n0 «to» s) {env : Env} (henv : env.closeErr = none)
    {s' : Sys} {r : Option Ret} (hstep : step s (.resume env) = some (s', r)) :
    (∃ m, r = some (.getLedger «to» true m none) ∧ m.ledgerSequence = «to») ∧
      ReplayDone n0 «to» s' := by
  obtain ⟨⟨hn, hl, hsh⟩, m, hm, hseq⟩ := h.core
  rcases h.inv with hf | ⟨-, hb, -, -⟩
  · simp [h.fault] at hf
  obtain ⟨buf, hmc⟩ := hb.metaC_of_shutdown (by simp [hsh])
  obtain ⟨rn, hrn⟩ := h.runner
  simp only [step, h.fault, Option.isSome_none, Bool.false_eq_true, ↓reduceIte, resume, h.pc,
    h.readerRunning, closeEnd, hmc, Sys.modify_core, closeRunner, hrn, henv, Option.map_none',
    closeReturn, getLedgerReturn, hm, Option.getD_some, Sys.finish, Option.some.injEq,
    Prod.mk.injEq] at hstep
  obtain ⟨rfl, rfl⟩ := hstep
  exact ⟨⟨m, rfl, hseq⟩, h.fault, rfl, ⟨hn, hl, rfl⟩, rfl, h.reader, m, by simp [hm], hseq⟩

/-- While `Close` waits, only the child's exit moves, with one step of work fewer. -/
theorem replayClosing_childExit (h : ReplayClosing n0 «to» s) {e : Option Err} {s' : Sys}
    {r : Option Ret} (hstep : step s (.childExit e) = some (s', r)) :
    r = none ∧ ReplayClosing n0 «to» s' ∧
      replayWork (rangeReads n0 «to») s' < replayWork (rangeReads n0 «to») s := by
  have hinv := (ok_step h.inv (actionOk_false _) hstep).1
  obtain ⟨rn, hrn⟩ := h.runner
  simp only [step, h.fault, Option.isSome_none, Bool.false_eq_true, ↓reduceIte, childExit,
    hrn] at hstep
  split at hstep
  · next halive =>
    simp only [Option.map_some', Option.some.injEq, Prod.mk.injEq] at hstep
    obtain ⟨rfl, rfl⟩ := hstep
    refine ⟨rfl, ⟨hinv, h.fault, h.pc, h.reader, _, rfl⟩, ?_⟩
    simp [replayWork, hrn, halive]
  · simp at hstep

/-- While `Close` waits, neither the consumer nor the returned reader moves. -/
theorem replayClosing_disabled (h : ReplayClosing n0 «to» s) {a : Action}
    (ha : ∀ env, a ≠ .resume env) (hc : ∀ e, a ≠ .childExit e) : step s a = none := by
  cases a <;> simp_all [step, h.fault, h.pc, h.reader, readerEnter, readerShutdown, readerRead,
    readerSend, readerAbort]

end Closing

section Done

variable {n0 «to» : UInt32} {s : Sys}

/-- After the session only `GetLedger(to)` moves, answered from the cache. -/
theorem replayDone_step (h : ReplayDone n0 «to» s) {a : Action} (ha : ReplayAction «to» «to» a)
    {s' : Sys} {r : Option Ret} (hstep : step s a = some (s', r)) :
    (∃ m, r = some (.getLedger «to» true m none) ∧ m.ledgerSequence = «to») ∧
      ReplayDone n0 «to» s' := by
  obtain ⟨m, hm, hseq⟩ := h.cache
  cases a <;> simp only [step, h.fault, Option.isSome_none, Bool.false_eq_true, ↓reduceIte]
    at hstep
  case call op env =>
    cases op <;> simp only [ReplayAction] at ha
    next sequence =>
    obtain rfl : sequence = «to» := by
      simp only [u32_le_iff] at ha
      exact (u32_eq_iff _ _).mpr (by omega)
    simp only [h.pc, ↓reduceIte, call, getLedgerBegin, cacheHit, hm, hseq, getLedgerReturn,
      Sys.finish, Option.some.injEq, Prod.mk.injEq] at hstep
    obtain ⟨rfl, rfl⟩ := hstep
    exact ⟨⟨m, rfl, hseq⟩, h.fault, rfl, h.closed, h.runner, h.reader, m, hm, hseq⟩
  all_goals simp [resume, h.pc, readerEnter, readerShutdown, readerRead, readerSend, readerAbort,
    childExit, h.reader, h.runner] at hstep

end Done

/-- What a replay returns: `PrepareRange` nil, and each `GetLedger(sequence)` the ledger
`sequence`. -/
def ReplayRet («from» «to» : UInt32) : Ret → Prop
  | .prepareRange r err => r = boundedRange «from» «to» ∧ err = none
  | .getLedger sequence found m err => found = true ∧ m.ledgerSequence = sequence ∧ err = none
  | _ => False

/-- One step of a replay keeps it, returns only what a replay returns, closes the session
once `GetLedger(to)` returns, and while a call is pending returns nothing only with work
left fewer. -/
def StepOk (p : Pipe) (n0 «from» «to» lo : UInt32) (s s' : Sys) (r : Option Ret) : Prop :=
  Replaying p n0 «from» «to» lo s' ∧ (∀ x, r = some x → ReplayRet «from» «to» x) ∧
    ((ReplayDone n0 «to» s ∨ ∃ found m err, r = some (.getLedger «to» found m err)) →
      ReplayDone n0 «to» s') ∧
    (s.pc ≠ .idle → r = none →
      s'.pc ≠ .idle ∧ replayWork (rangeReads n0 «to») s' < replayWork (rangeReads n0 «to») s)

/-- Once `to` is requested, it stays the last request. -/
theorem lastRequest_of_last {«to» : UInt32} {a : Action} (ha : ReplayAction «to» «to» a) :
    lastRequest «to» a = «to» := by
  cases a <;> try rfl
  next op env =>
  cases op <;> simp only [ReplayAction] at ha
  simp only [lastRequest, u32_le_iff] at ha ⊢
  exact (u32_eq_iff _ _).mpr (by omega)

section Step

variable {p : Pipe} {n0 «from» «to» lo : UInt32} {s s' : Sys}

theorem ReplayOpen.not_done (h : ReplayOpen p n0 «from» «to» lo s) : ¬ ReplayDone n0 «to» s :=
  fun hd ↦ by simpa [h.shutdown] using hd.closed.2.2

/-- A step of the open session that returns nothing and keeps the consumer where it is. -/
theorem StepOk.of_silent (h : ReplayOpen p n0 «from» «to» lo s)
    (h' : ReplayOpen p n0 «from» «to» lo s') (hpc : s'.pc = s.pc)
    (hw : replayWork (rangeReads n0 «to») s' < replayWork (rangeReads n0 «to») s) :
    StepOk p n0 «from» «to» lo s s' none :=
  ⟨.inl h', by simp, by simp [h.not_done], fun hne _ ↦ ⟨hpc ▸ hne, hw⟩⟩

/-- A step that returns the ledger `sequence`. -/
theorem StepOk.of_getLedger {sequence : UInt32} {m : LedgerCloseMeta}
    (h' : Replaying p n0 «from» «to» lo s') (hseq : m.ledgerSequence = sequence)
    (hdone : (ReplayDone n0 «to» s ∨ sequence = «to») → ReplayDone n0 «to» s') :
    StepOk p n0 «from» «to» lo s s' (some (.getLedger sequence true m none)) := by
  refine ⟨h', ?_, ?_, by simp⟩
  · rintro x ⟨⟩
    exact ⟨rfl, hseq, rfl⟩
  · rintro (hd | ⟨_, _, _, ⟨⟩⟩)
    exacts [hdone (.inl hd), hdone (.inr rfl)]

theorem replayOpen_step (h : ReplayOpen p n0 «from» «to» lo s) {a : Action}
    (ha : ReplayAction «to» lo a) {r : Option Ret} (hstep : step s a = some (s', r)) :
    StepOk p n0 «from» «to» (lastRequest lo a) s s' r := by
  cases a with
  | call op env =>
    cases op <;> simp only [ReplayAction] at ha
    next sequence =>
    have hpc : s.pc = .idle := by
      by_contra hpc
      simp [step, h.fault, hpc] at hstep
    rcases replayOpen_call h hpc ha.1 ha.2 hstep with ⟨rfl, h', -⟩ | ⟨m, rfl, hseq, hne, h'⟩
    · exact ⟨.inl h', by simp, by simp [h.not_done], by simp [hpc]⟩
    · exact .of_getLedger (.inl h') hseq fun hd ↦ (hd.resolve_left h.not_done |> hne).elim
  | resume env =>
    have hc := h.consumer
    unfold ConsumerOk at hc
    split at hc
    · next r' hpc =>
      obtain ⟨rfl, rfl, -⟩ := hc
      obtain ⟨rfl, h'⟩ := replayOpen_prepareWait h hpc hstep
      refine ⟨.inl h', ?_, ?_, by simp⟩
      · rintro x ⟨⟩
        exact ⟨rfl, rfl⟩
      · simp [h.not_done]
    · next hpc => simp [step, h.fault, resume, hpc] at hstep
    · next sequence k hpc =>
      obtain ⟨rfl, rfl, -⟩ := hc
      rcases replayOpen_getLedger h hpc hstep with ⟨rfl, h', hpc', hw⟩ | ⟨m, rfl, hseq, hne, h'⟩ |
        ⟨rfl, rfl, hc', hw⟩
      · exact ⟨.inl h', by simp, by simp [h.not_done], fun _ _ ↦ ⟨by simp [hpc'], hw⟩⟩
      · exact .of_getLedger (.inl h') hseq fun hd ↦ (hd.resolve_left h.not_done |> hne).elim
      · exact ⟨.inr ⟨rfl, .inl hc'⟩, by simp, by simp [h.not_done],
          fun _ _ ↦ ⟨by simp [hc'.pc], hw⟩⟩
    · exact hc.elim
  | readerEnter =>
    obtain ⟨rfl, hpc, h', hw⟩ := replayOpen_readerEnter h hstep
    exact .of_silent h h' hpc hw
  | readerShutdown => simp [(replayOpen_readerShutdown h).1] at hstep
  | readerRead =>
    obtain ⟨rfl, hpc, h', hw⟩ := replayOpen_readerRead h hstep
    exact .of_silent h h' hpc hw
  | readerSend =>
    obtain ⟨rfl, hpc, h', hw⟩ := replayOpen_readerSend h hstep
    exact .of_silent h h' hpc hw
  | readerAbort => simp [(replayOpen_readerShutdown h).2] at hstep
  | childExit e =>
    obtain ⟨rfl, hpc, h', hw⟩ := replayOpen_childExit h hstep
    exact .of_silent h h' hpc hw

/-- Every step a replay allows keeps the replay, from the last request after it. -/
theorem replaying_step (h : Replaying p n0 «from» «to» lo s) {a : Action}
    (ha : ReplayAction «to» lo a) {r : Option Ret} (hstep : step s a = some (s', r)) :
    StepOk p n0 «from» «to» (lastRequest lo a) s s' r := by
  rcases h with h | ⟨rfl, h | h⟩
  · exact replayOpen_step h ha hstep
  · cases a with
    | resume env =>
      obtain ⟨⟨m, rfl, hseq⟩, h'⟩ := replayClosing_resume h ha hstep
      exact .of_getLedger (.inr ⟨rfl, .inr h'⟩) hseq fun _ ↦ h'
    | childExit e =>
      obtain ⟨rfl, h', hw⟩ := replayClosing_childExit h hstep
      refine ⟨.inr ⟨rfl, .inl h'⟩, by simp, ?_, fun _ _ ↦ ⟨by simp [h'.pc], hw⟩⟩
      rintro (hd | ⟨_, _, _, ⟨⟩⟩)
      cases hd.pc.symm.trans h.pc
    | _ => simp [replayClosing_disabled h] at hstep
  · obtain ⟨⟨m, rfl, hseq⟩, h'⟩ := replayDone_step h ha hstep
    rw [lastRequest_of_last ha]
    exact .of_getLedger (.inr ⟨rfl, .inr h'⟩) hseq fun _ ↦ h'

/-- The reader reads only the range's frames and returns after sending `to`. -/
theorem Replaying.readerOk (h : Replaying p n0 «from» «to» lo s) :
    ∀ rd, s.reader = some rd → ReaderOk (rangeReads n0 «to») rd := by
  rintro rd hrd
  rcases h with h | ⟨-, h | h⟩
  · obtain ⟨rd', hrd', -, hok, -⟩ := h.reader
    rw [hrd, Option.some.injEq] at hrd'
    exact hrd' ▸ hok
  all_goals
    rw [h.reader, Option.some.injEq] at hrd
    subst hrd
    rfl

/-- After the session, the backend is closed and has no latest sequence. -/
theorem ReplayDone.backend_closed {n0 «to» : UInt32} (h : ReplayDone n0 «to» s) :
    isClosed s.core = true ∧ (getLatestLedgerSequence s.core).2.isSome := by
  have hc : isClosed s.core = true := by simp [isClosed, h.closed.1]
  simp [getLatestLedgerSequence, hc]

/-- While a call is pending, some step a replay allows is enabled. -/
theorem replaying_progress (h : Replaying p n0 «from» «to» lo s) (hpc : s.pc ≠ .idle) :
    ∃ a, ReplayAction «to» lo a ∧ (step s a).isSome := by
  rcases h with h | ⟨-, h | h⟩
  · rcases h.inv with hf | ⟨-, hb, -, -⟩
    · simp [h.fault] at hf
    obtain ⟨buf, hm⟩ := hb.metaC_of_shutdown (by simp [h.shutdown])
    cases buf with
    | cons x rest =>
      -- the consumer takes the buffer's head
      have hsh : s.core.shutdownClosed = false := by
        simp [Core.shutdownClosed, h.shutdown, Chan.empty]
      refine ⟨.resume (archiveEnv «to» p), rfl, ?_⟩
      have hc := h.consumer
      unfold ConsumerOk at hc
      split at hc
      · next hpc' => simp [step, h.fault, resume, hpc', prepareRangeWait, hsh, Core.bufLen, hm]
      · exact absurd ‹_› hpc
      · next hpc' => simp [step, h.fault, resume, hpc', getLedgerLoop, h.blocking, hm]
      · exact hc.elim
    | nil =>
      -- the reader moves
      obtain ⟨⟨u, pos, ph⟩, hrd, hu, hok, hlen⟩ := h.reader
      cases ph with
      | top => exact ⟨.readerEnter, trivial, by simp [step, h.fault, readerEnter, hrd]⟩
      | reading =>
        obtain ⟨rn, hrn, hp⟩ := h.pipe
        obtain ⟨payload, hframe⟩ := h.streams pos (by
          have := h.range
          simp only [ReaderOk, rangeReads, u32_le_iff] at hok this
          omega)
        exact ⟨.readerRead, trivial, by
          simp [step, h.fault, readerRead, hrd, hrn, readLedgerMetaFromPipe, hp, hframe]⟩
      | sending x last =>
        exact ⟨.readerSend, trivial, by
          simp [step, h.fault, readerSend, hrd, hm, readAheadBufferSize]⟩
      | done =>
        have hcons := h.consumed
        simp only [ReaderOk] at hok
        simp only [takenWith_length, bufferOf, hm, heldOf, hrd, List.length_nil] at hlen
        omega
  · refine ⟨.resume (archiveEnv «to» p), rfl, ?_⟩
    simp [step, h.fault, resume, h.pc, h.readerRunning]
  · exact absurd h.pc hpc

end Step

/-- The last request after a run. -/
def lastRequests (lo : UInt32) (as : List Action) : UInt32 := as.foldl lastRequest lo

section Run

variable {p : Pipe} {n0 «from» «to» : UInt32}

/-- Every run a replay allows keeps the replay and returns only what a replay returns; once
`GetLedger(to)` has returned, the session is over. -/
theorem replaying_run {as : List Action} {lo : UInt32} {s s' : Sys} {rs : List Ret}
    (h : Replaying p n0 «from» «to» lo s) (has : Allowed «to» lo as)
    (hrun : run s as = some (s', rs)) :
    Replaying p n0 «from» «to» (lastRequests lo as) s' ∧ (∀ x ∈ rs, ReplayRet «from» «to» x) ∧
      ((ReplayDone n0 «to» s ∨ ∃ found m err, .getLedger «to» found m err ∈ rs) →
        ReplayDone n0 «to» s') := by
  induction as generalizing lo s rs with
  | nil =>
    simp only [run, Option.some.injEq, Prod.mk.injEq] at hrun
    obtain ⟨rfl, rfl⟩ := hrun
    exact ⟨h, by simp, by simp⟩
  | cons a as ih =>
    obtain ⟨s₁, r, rs₂, hstep, h₂, rfl⟩ := run_cons_eq_some.mp hrun
    obtain ⟨h₁, hret, hdone, -⟩ := replaying_step h has.1 hstep
    obtain ⟨h', hret', hdone'⟩ := ih h₁ has.2 h₂
    refine ⟨h', ?_, ?_⟩
    · intro x hx
      rcases List.mem_append.mp hx with hx | hx
      · exact hret x (Option.mem_toList.mp hx)
      · exact hret' x hx
    · rintro (hd | ⟨found, m, err, hx⟩)
      · exact hdone' (.inl (hdone (.inl hd)))
      rcases List.mem_append.mp hx with hx | hx
      · exact hdone' (.inl (hdone (.inr ⟨found, m, err, Option.mem_toList.mp hx⟩)))
      · exact hdone' (.inr ⟨found, m, err, hx⟩)

/-- A pending call returns within the work left: a run a replay allows that returns nothing
is no longer than the work. -/
theorem replaying_run_silent {as : List Action} {lo : UInt32} {s s' : Sys}
    (h : Replaying p n0 «from» «to» lo s) (hpc : s.pc ≠ .idle) (has : Allowed «to» lo as)
    (hrun : run s as = some (s', [])) : as.length ≤ replayWork (rangeReads n0 «to») s := by
  induction as generalizing lo s with
  | nil => exact Nat.zero_le _
  | cons a as ih =>
    obtain ⟨s₁, r, rs₂, hstep, h₂, hrs⟩ := run_cons_eq_some.mp hrun
    obtain ⟨rfl, rfl⟩ : r = none ∧ rs₂ = [] := by
      cases r
      · exact ⟨rfl, by simpa using hrs.symm⟩
      · simp at hrs
    obtain ⟨h₁, -, -, hwork⟩ := replaying_step h has.1 hstep
    obtain ⟨hpc₁, hw⟩ := hwork hpc rfl
    have := ih h₁ hpc₁ has.2 h₂
    simp only [List.length_cons]
    omega

end Run

/-- `PrepareRange(BoundedRange(from, to))` on a closed backend opens the session for the
ledgers `roundDown(from), …, to` and waits for its first ledger, when the runner the backend
may still hold (one whose start failed) closes without error. -/
theorem replay_opens {s₀ : Sys} {env : Env} {«from» «to» latest : UInt32} {p : Pipe}
    (hs₀ : Reachable s₀) (hf : s₀.fault = none) (hpc : s₀.pc = .idle) (hc : Closed s₀.core)
    (hrn : ∀ rr, s₀.core.hcnetCoreRunner = some rr → (∃ rn, rr = .live rn) ∧ env.closeErr = none)
    (hcache : ∀ m, s₀.core.cachedMeta = some m → m.ledgerSequence ≠ «to»)
    (hhas : env.rootHAS = .ok latest) (hnew : env.newRunnerErr = none) (hstart : env.start = .ok p)
    (h2 : 2 ≤ «from») (hft : «from» ≤ «to») (hlatest : «to» ≤ latest)
    (hp : Streams p (roundDownToFirstReplayAfterCheckpointStart «from») «to») :
    ∃ s₁, step s₀ (.call (.prepareRange (boundedRange «from» «to»)) env) = some (s₁, none) ∧
      ReplayOpen p (roundDownToFirstReplayAfterCheckpointStart «from») «from» «to» «from» s₁ := by
  obtain ⟨hn, hl, hsh⟩ := hc
  have hinv := inv_of_reachable hs₀
  have hrun : s₀.readerRunning = false := by
    rcases hinv with hf' | ⟨-, hb, -, -⟩
    · simp [hf] at hf'
    exact hb.reader_of_shutdown hsh
  have hprep : isPrepared s₀.core ⟨«from», «to», true⟩ = false := by
    simp [isPrepared, hn]
  have hclose : closeRunner (s₀.modify fun c ↦ { c with nextLedger := 0, lastLedger := none }) env
      (.openOffline ⟨«from», «to», true⟩) = openOfflineReplaySubprocess
        (s₀.modify fun c ↦ { c with nextLedger := 0, lastLedger := none, hcnetCoreRunner := none })
        env ⟨«from», «to», true⟩ := by
    cases hr : s₀.core.hcnetCoreRunner with
    | none =>
      obtain ⟨core, reader, pc, fault, accepted, sessionStart⟩ := s₀
      simp_all [closeRunner, closeReturn, Sys.modify]
    | some rr =>
      obtain ⟨⟨rn, rfl⟩, hcl⟩ := hrn _ hr
      simp [closeRunner, closeReturn, hr, hcl, Sys.modify]
  simp only [Sys.readerRunning] at hrun
  obtain ⟨hn02, hn0le⟩ := roundDown_bounds «from» h2
  simp only [u32_le_iff] at h2 hft hlatest hn02 hn0le
  have hfl : ¬ «from» > latest := by simp only [gt_iff_lt, u32_lt_iff]; omega
  have htl : ¬ «to» > latest := by simp only [gt_iff_lt, u32_lt_iff]; omega
  rcases hst : step s₀ (.call (.prepareRange (boundedRange «from» «to»)) env) with _ | ⟨s₁, r⟩ <;>
    have hst' := hst <;>
    simp [step, hf, hpc, call, prepareRange, hprep, boundedRange, closeBegin, hsh, hclose,
      openOfflineReplaySubprocess, hhas, hfl, htl, ensureRunner, hnew, startRunner, Runner.new,
      hstart, startSession, Sys.readerRunning, hrun, prepareRangeAwait, Sys.await] at hst
  obtain ⟨rfl, rfl⟩ := hst
  simp only [u32_toNat_lit, Nat.reducePow, Nat.reduceMod] at hn02
  refine ⟨_, rfl, (ok_step hinv (actionOk_false _) hst').1, rfl, ⟨hn02, hn0le, hft⟩, rfl, rfl,
    rfl, rfl, rfl, ⟨_, rfl, rfl⟩, ⟨_, rfl, rfl, ?_, ?_⟩, ?_, hcache, ⟨rfl, rfl, rfl⟩, hp⟩
  · show 0 < rangeReads _ _
    simp only [rangeReads]
    omega
  · simp [takenWith, bufferOf, heldOf, Chan.empty]
  · simp only [List.length_nil, rangeReads]
    omega

/-! ## The bounded replay -/

/-- What the session that `PrepareRange(BoundedRange(from, to))` opened in `s₁` does in every
interleaving of the reader, the child's exit and non-decreasing `GetLedger` requests inside
the range, with every close of the child succeeding: `PrepareRange` returns nil and each
`GetLedger(sequence)` the ledger `sequence`; the reader reads only the range's frames and
returns after sending `to`; once `GetLedger(to)` has returned, the backend is closed; and a
pending call can always move and returns within a bounded number of steps. -/
def ReplaysRange («from» «to» : UInt32) (s₁ : Sys) : Prop :=
  ∀ as s' rs, Allowed «to» «from» as → run s₁ as = some (s', rs) →
    (∀ x ∈ rs, ReplayRet «from» «to» x) ∧
    (∀ rd, s'.reader = some rd →
      ReaderOk (rangeReads (roundDownToFirstReplayAfterCheckpointStart «from») «to») rd) ∧
    ((∃ found m err, .getLedger «to» found m err ∈ rs) →
      isClosed s'.core = true ∧ (getLatestLedgerSequence s'.core).2.isSome) ∧
    (s'.pc ≠ .idle →
      (∃ a, ReplayAction «to» (lastRequests «from» as) a ∧ (step s' a).isSome) ∧
      ∃ bound, ∀ bs s'', Allowed «to» (lastRequests «from» as) bs →
        run s' bs = some (s'', []) → bs.length ≤ bound)

/-- `PrepareRange(BoundedRange(from, to))`, called on a closed backend with no cached ledger
`to`, whose runner, if it still holds one, closes without error, for a range inside the
archive and a child that writes the ledgers `roundDown(from), …, to`, opens a session that
replays the range. -/
theorem replay_bounded_range (s₀ : Sys) (env : Env) («from» «to» latest : UInt32) (p : Pipe)
    (hs₀ : Reachable s₀) (hf : s₀.fault = none) (hpc : s₀.pc = .idle) (hc : Closed s₀.core)
    (hrn : ∀ rr, s₀.core.hcnetCoreRunner = some rr → (∃ rn, rr = .live rn) ∧ env.closeErr = none)
    (hcache : ∀ m, s₀.core.cachedMeta = some m → m.ledgerSequence ≠ «to»)
    (hhas : env.rootHAS = .ok latest) (hnew : env.newRunnerErr = none) (hstart : env.start = .ok p)
    (h2 : 2 ≤ «from») (hft : «from» ≤ «to») (hlatest : «to» ≤ latest)
    (hp : Streams p (roundDownToFirstReplayAfterCheckpointStart «from») «to») :
    ∃ s₁, step s₀ (.call (.prepareRange (boundedRange «from» «to»)) env) = some (s₁, none) ∧
      ReplaysRange «from» «to» s₁ := by
  obtain ⟨s₁, hstep, h₁⟩ := replay_opens hs₀ hf hpc hc hrn hcache hhas hnew hstart h2 hft hlatest hp
  refine ⟨s₁, hstep, fun as s' rs has hrun ↦ ?_⟩
  obtain ⟨h', hret, hdone⟩ := replaying_run (.inl h₁) has hrun
  exact ⟨hret, h'.readerOk, fun hto ↦ (hdone (.inr hto)).backend_closed, fun hpc' ↦
    ⟨replaying_progress h' hpc', _, fun _ _ hbs hrun' ↦ replaying_run_silent h' hpc' hbs hrun'⟩⟩

/-- A child whose kill fails. -/
def killFailEnv : Env :=
  ⟨.ok 100, fun _ ↦ .ok ⟨""⟩, none, .ok (ledgerStream 64 0), some (.new "signal: killed")⟩

/-- The bounded session `[65, 66]` again, after the one that cached ledger 66: the same
request is answered from the cache. -/
def staleReplayRun : List Action :=
  .call (.prepareRange (boundedRange 65 66)) (archiveEnv 100 (ledgerStream 64 1)) :: readOne ++
    [.resume (archiveEnv 100 (ledgerStream 64 1)),
      .call (.getLedger 66) (archiveEnv 100 (ledgerStream 64 1))]

/-- `GetLedger(66)` in the bounded session `[65, 66]`, where killing the child fails. -/
def killFailRun : List Action :=
  offlineRun ++ readOne ++ [.call (.getLedger 66) (archiveEnv 100 (ledgerStream 64 0)),
    .resume (archiveEnv 100 (ledgerStream 64 0)), .resume (archiveEnv 100 (ledgerStream 64 0))] ++
    readOne ++ [.resume (archiveEnv 100 (ledgerStream 64 0)), .resume killFailEnv]

/-- A bounded replay closes the backend after `GetLedger(to)` only when the cache does not
hold ledger `to`. For every closed backend with no cached ledger `to` whose runner, if it
still holds one, closes without error, every range inside the archive and every child that
writes the range's ledgers, the session replays the range. But neither `Close` nor
`PrepareRange` clears `cachedMeta`: after a session `[65, 66]` that cached ledger 66, the next
session's `GetLedger(66)` is answered from the cache and the backend stays open, with a
latest sequence. And when killing the child fails, `GetLedger(66)` returns an error. -/
theorem replay_stale_cache_keeps_session :
    (∀ s₀ env «from» «to» latest p, Reachable s₀ → s₀.fault = none → s₀.pc = .idle →
      Closed s₀.core →
      (∀ rr, s₀.core.hcnetCoreRunner = some rr → (∃ rn, rr = .live rn) ∧ env.closeErr = none) →
      (∀ m, s₀.core.cachedMeta = some m → m.ledgerSequence ≠ «to») →
      env.rootHAS = .ok latest → env.newRunnerErr = none → env.start = .ok p →
      2 ≤ «from» → «from» ≤ «to» → «to» ≤ latest →
      Streams p (roundDownToFirstReplayAfterCheckpointStart «from») «to» →
      ∃ s₁, step s₀ (.call (.prepareRange (boundedRange «from» «to»)) env) = some (s₁, none) ∧
        ReplaysRange «from» «to» s₁) ∧
    (∃ s₁ s₂, run (Sys.fresh "") cachedSessionRun =
        some (s₁, [.prepareRange (boundedRange 65 66) none, .getLedger 66 true ⟨66, 0⟩ none]) ∧
      Closed s₁.core ∧ s₁.core.hcnetCoreRunner = none ∧ s₁.core.cachedMeta = some ⟨66, 0⟩ ∧
      run s₁ staleReplayRun = some (s₂, [.prepareRange (boundedRange 65 66) none,
        .getLedger 66 true ⟨66, 0⟩ none]) ∧
      isClosed s₂.core = false ∧ getLatestLedgerSequence s₂.core = (66, none)) ∧
    ∃ s, run (Sys.fresh "") killFailRun = some (s, [.prepareRange (boundedRange 65 66) none,
      .getLedger 66 false default (some (.wrap (.wrap (.new "signal: killed")
        "error closing hcnet-core subprocess") "error closing session"))]) :=
  ⟨replay_bounded_range, ⟨_, _, rfl, ⟨rfl, rfl, rfl⟩, rfl, rfl, rfl, rfl, rfl⟩, _, rfl⟩

/-- `PrepareRange([65, 66])` with an archive at checkpoint 100 and a runner that fails to
start. -/
def startFailRun : List Action :=
  [.call (.prepareRange (boundedRange 65 66))
    ⟨.ok 100, fun _ ↦ .ok ⟨""⟩, none, .error (.new "exec: \"hcnet-core\": not found"), none⟩]

/-- After a `PrepareRange` whose runner failed to start, the backend is closed and still holds
that runner; the next `PrepareRange([65, 66])` replays the range. -/
theorem replay_bounded_range_after_failed_start :
    (after (Sys.fresh "") startFailRun).core.hcnetCoreRunner = some (.live Runner.new) ∧
    ∃ s₁, step (after (Sys.fresh "") startFailRun)
        (.call (.prepareRange (boundedRange 65 66)) (archiveEnv 100 (ledgerStream 64 0))) =
        some (s₁, none) ∧ ReplaysRange 65 66 s₁ :=
  ⟨rfl, replay_stale_cache_keeps_session.1 _ (archiveEnv 100 (ledgerStream 64 0)) 65 66 100
    (ledgerStream 64 0) (.after _ (.fresh "") rfl) rfl rfl ⟨rfl, rfl, rfl⟩
    (fun _ h ↦ ⟨⟨_, (Option.some.inj h).symm⟩, rfl⟩) (fun _ h ↦ nomatch h) rfl rfl rfl
    (by decide) (by decide) (by decide) fun _ _ ↦ ⟨0, rfl⟩⟩

end AuroraIngest.Captive.Replay
