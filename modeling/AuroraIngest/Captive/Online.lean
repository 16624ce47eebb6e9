import AuroraIngest.Captive.Cached
import AuroraIngest.Captive.Replay

/-!
# The online fast-forward

`PrepareRange(UnboundedRange(from))` on a closed backend starts the subprocess with the
checkpoint arithmetic of `runFromParams`: it runs from the ledger before the largest
checkpoint at or below `from` and streams from 63 ledgers before that checkpoint, not below 2,
so the session starts at most 127 ledgers behind `from`. Behind `from`, `PrepareRange` makes
the blocking `GetLedger(from)`, which consumes the ledgers up to `from` and caches `from`;
then it waits for the first buffered item and returns with `blocking` false.

In every interleaving of the reader and the child with this call, a nil return leaves
exactly these ledgers consumed, and every `GetLedger(from)` after it returns ledger `from`:
from the cache after a fast-forward, and from the head of the buffer when the session starts
at `from`. `GetLedger` looks at `cachedMeta` before anything else, and `Close` keeps it, so
the fast-forward's `GetLedger(from)` is answered by a ledger `from` cached in an earlier
session: nothing is consumed, and the old ledger is returned for `from`. The law needs a
closed backend that does not hold ledger `from`.
-/

namespace AuroraIngest.Captive.Online

open AuroraIngest.Captive.Ledger AuroraIngest.Captive.State AuroraIngest.Captive.Backend
open AuroraIngest.Captive.Step AuroraIngest.Captive.Invariant AuroraIngest.Captive.Consumer
open AuroraIngest.Captive.Representation AuroraIngest.Captive.Cached AuroraIngest.Captive.Prepare
open AuroraIngest.Captive.Replay

/-- A child that writes the ledgers `n0, n0 + 1, …` of `ledgers`, without end. -/
def onlinePipe (ledgers : UInt32 → LedgerCloseMeta) (n0 : UInt32) : Pipe :=
  fun n ↦ .frame (ledgers (n0 + UInt32.ofNat n))

/-- The ledgers `n0, …, n0 + k - 1` of `ledgers`. -/
def ledgersFrom (ledgers : UInt32 → LedgerCloseMeta) (n0 : UInt32) (k : Nat) :
    List LedgerCloseMeta :=
  (List.range k).map fun i ↦ ledgers (n0 + UInt32.ofNat i)

/-- An online session that reads the child writing `ledgers` from `n0` on. -/
structure OnlineSession (ledgers : UInt32 → LedgerCloseMeta) (n0 : UInt32) (s : Sys) : Prop where
  inv : Inv False s
  fault : s.fault = none
  lastLedger : s.core.lastLedger = none
  shutdown : s.core.shutdown = some .empty
  processExit : s.core.processExit = false
  start : s.sessionStart = n0
  pipe : ∃ rn, s.core.hcnetCoreRunner = some (.live rn) ∧ rn.metaPipe = some (onlinePipe ledgers n0)

section Session

variable {ledgers : UInt32 → LedgerCloseMeta} {n0 : UInt32} {s : Sys}

theorem OnlineSession.stream (h : OnlineSession ledgers n0 s) :
    ReadsFrom (onlinePipe ledgers n0) 0 (takenWith s []) ∧
      Consecutive n0 s.accepted s.core.nextLedger := by
  obtain ⟨rn, hrn, hp⟩ := h.pipe
  rcases h.inv with hf | ⟨-, -, -, hs⟩
  · simp [h.fault] at hf
  obtain ⟨rn', p', rd, h1, h2, -, hst⟩ := hs h.shutdown
  rw [hrn, Option.some.injEq, RunnerRef.live.injEq] at h1
  subst h1
  rw [hp, Option.some.injEq] at h2
  subst h2
  exact ⟨hst.reads, h.start ▸ hst.consecutive⟩

theorem OnlineSession.metaC (h : OnlineSession ledgers n0 s) :
    ∃ buf, s.core.metaC = some ⟨buf, false⟩ := by
  rcases h.inv with hf | ⟨-, hb, -, -⟩
  · simp [h.fault] at hf
  exact hb.metaC_of_shutdown (by simp [h.shutdown])

/-- The accepted ledgers are the child's first ones. -/
theorem OnlineSession.accepted_eq (h : OnlineSession ledgers n0 s) :
    s.accepted = ledgersFrom ledgers n0 s.accepted.length := by
  refine List.ext_get (by simp [ledgersFrom]) fun j hj _ ↦ ?_
  have hr : ReadsFrom (onlinePipe ledgers n0) 0
      (s.accepted.map (fun m ↦ ⟨some m, none⟩) ++ (bufferOf s.core ++ heldOf s.reader)) := by
    simpa [takenWith] using h.stream.1
  have hp := readsFrom_accepted hr j hj
  simp only [onlinePipe, Nat.zero_add, PipeItem.frame.injEq] at hp
  simp [ledgersFrom, hp]

theorem OnlineSession.nextLedger_eq (h : OnlineSession ledgers n0 s) :
    s.core.nextLedger = n0 + UInt32.ofNat s.accepted.length :=
  (consecutive_getElem h.stream.2).2

/-- The head of the buffer is the child's next ledger. -/
theorem OnlineSession.head (h : OnlineSession ledgers n0 s) {x : MetaResult}
    {rest : List MetaResult} (hm : s.core.metaC = some ⟨x :: rest, false⟩) :
    x = ⟨some (ledgers (n0 + UInt32.ofNat s.accepted.length)), none⟩ := by
  have hsplit : takenWith s [] =
      s.accepted.map (fun m ↦ ⟨some m, none⟩) ++ x :: (rest ++ heldOf s.reader) := by
    simp [takenWith, bufferOf, hm]
  have hreads := h.stream.1
  rw [hsplit, readsFrom_append, List.length_map, Nat.zero_add] at hreads
  rcases hreads.2.1 with ⟨m, hpm, rfl⟩ | ⟨hnf, -⟩
  · simp only [onlinePipe, PipeItem.frame.injEq] at hpm
    rw [hpm]
  · exact absurd rfl (hnf _)

/-- The session's fields other than the consumer's stay when the rest of the state moves. -/
theorem OnlineSession.of_eq (h : OnlineSession ledgers n0 s) {t : Sys} (hinv : Inv False t)
    (hf : t.fault = none) (hl : t.core.lastLedger = s.core.lastLedger)
    (hsh : t.core.shutdown = s.core.shutdown) (hpe : t.core.processExit = s.core.processExit)
    (hss : t.sessionStart = s.sessionStart)
    (hrn : t.core.hcnetCoreRunner = s.core.hcnetCoreRunner) : OnlineSession ledgers n0 t :=
  ⟨hinv, hf, hl ▸ h.lastLedger, hsh ▸ h.shutdown, hpe ▸ h.processExit, hss ▸ h.start,
    hrn ▸ h.pipe⟩

/-- A step of the reader or the child keeps the session and the consumer's fields, and only
appends to the buffer: every read meets a frame, so no read fails. -/
theorem OnlineSession.background (h : OnlineSession ledgers n0 s) {a : Action} {s' : Sys}
    {r : Option Ret} (ha : background a = true) (hstep : step s a = some (s', r)) :
    OnlineSession ledgers n0 s' ∧ r = none ∧ s'.pc = s.pc ∧
      s'.core.cachedMeta = s.core.cachedMeta ∧ s'.core.blocking = s.core.blocking ∧
      s'.accepted = s.accepted ∧ s.core.bufLen ≤ s'.core.bufLen := by
  have hinv := (ok_step h.inv (actionOk_false a) hstep).1
  obtain ⟨-, hb, -, -⟩ := h.inv.resolve_left (by simp [h.fault])
  obtain ⟨rfl, hf, hpc, hcm⟩ := background_step hb h.fault ha hstep
  obtain ⟨-, hl, hbl, hsh, hacc, hss, hbuf, hrest⟩ := background_frame h.fault ha hstep
  obtain ⟨rn, hrn, hp⟩ := h.pipe
  obtain ⟨buf, hm⟩ := h.metaC
  obtain ⟨xs, hm'⟩ := hbuf buf hm
  rcases hrest with ⟨hpe, hrn'⟩ | ⟨u, pos, rn', e, -, -, hrn'', herr⟩
  · obtain ⟨rn', hrn', hp'⟩ := hrn' rn hrn
    refine ⟨⟨hinv, hf, hl ▸ h.lastLedger, hsh ▸ h.shutdown, hpe ▸ h.processExit, hss ▸ h.start,
      rn', hrn', hp' ▸ hp⟩, rfl, hpc, hcm, hbl, hacc, ?_⟩
    simp [Core.bufLen, hm, hm']
  · rw [hrn, Option.some.injEq, RunnerRef.live.injEq] at hrn''
    subst hrn''
    exact absurd rfl (readLedgerMetaFromPipe_error herr hp _)

end Session

/-- Ledger `from` is consumed: the fast-forward took it and cached it, or the session starts
at `from`, nothing is consumed, and the cache does not hold ledger `from`. -/
def Forwarded (ledgers : UInt32 → LedgerCloseMeta) (n0 «from» : UInt32) (s : Sys) : Prop :=
  (n0 < «from» ∧ n0.toNat + s.accepted.length = «from».toNat + 1 ∧
    s.core.cachedMeta = some (ledgers «from»)) ∨
  (n0 = «from» ∧ s.accepted = [] ∧ ∀ m, s.core.cachedMeta = some m → m.ledgerSequence ≠ «from»)

/-- Where `PrepareRange(UnboundedRange(from))` stands in the session from `n0`: in the
fast-forward's blocking `GetLedger(from)`, behind `from`; waiting for the first buffered item;
or returned, with an item buffered when there was no fast-forward. -/
def Forwarding (ledgers : UInt32 → LedgerCloseMeta) (n0 «from» : UInt32) (s : Sys) : Prop :=
  match s.pc with
  | .getLedger sequence k => sequence = «from» ∧ k = .fastForward (unboundedRange «from») ∧
      s.core.blocking = true ∧ n0 < «from» ∧ n0.toNat + s.accepted.length ≤ «from».toNat
  | .prepareWait r => r = unboundedRange «from» ∧ s.core.blocking = false ∧
      Forwarded ledgers n0 «from» s
  | .idle => s.core.blocking = false ∧ Forwarded ledgers n0 «from» s ∧
      (n0 = «from» → 0 < s.core.bufLen)
  | .closeWait _ => False

section Forward

variable {ledgers : UInt32 → LedgerCloseMeta} {n0 «from» : UInt32} {s : Sys}

theorem Forwarding.of_background (hw : Forwarding ledgers n0 «from» s) {t : Sys}
    (hpc : t.pc = s.pc) (hcm : t.core.cachedMeta = s.core.cachedMeta)
    (hbl : t.core.blocking = s.core.blocking) (hacc : t.accepted = s.accepted)
    (hlen : s.core.bufLen ≤ t.core.bufLen) : Forwarding ledgers n0 «from» t := by
  unfold Forwarding Forwarded at hw ⊢
  rw [hpc, hcm, hbl, hacc]
  cases hp : s.pc <;> simp only [hp] at hw ⊢
  · exact ⟨hw.1, hw.2.1, fun h ↦ Nat.lt_of_lt_of_le (hw.2.2 h) hlen⟩
  all_goals exact hw

/-- Every step of the reader, the child or the consumer's `PrepareRange` keeps the session
and the phase; `PrepareRange` returns nil only, and only from its wait, to an idle consumer. -/
theorem forwarding_step (h : OnlineSession ledgers n0 s) (hw : Forwarding ledgers n0 «from» s)
    (hseq : ∀ i, (ledgers i).ledgerSequence = i) {a : Action}
    (ha : background a = true ∨ ∃ e, a = .resume e) {s' : Sys} {r : Option Ret}
    (hstep : step s a = some (s', r)) :
    OnlineSession ledgers n0 s' ∧ Forwarding ledgers n0 «from» s' ∧
      (∀ x ∈ r, x = .prepareRange (unboundedRange «from») none) ∧
      (r.isSome ∨ s.pc = .idle → s'.pc = .idle) := by
  rcases ha with ha | ⟨env, rfl⟩
  · obtain ⟨h', rfl, hpc, hcm, hbl, hacc, hlen⟩ := h.background ha hstep
    refine ⟨h', hw.of_background hpc hcm hbl hacc hlen, nofun, fun hi ↦ ?_⟩
    simp only [Option.isSome_none, Bool.false_eq_true, false_or] at hi
    rw [hpc, hi]
  have hinv := (ok_step h.inv (actionOk_false _) hstep).1
  unfold Forwarding at hw
  split at hw
  · next sequence k hpc =>
    -- the fast-forward takes the head of the buffer
    obtain ⟨rfl, rfl, hbl, hlt, hle⟩ := hw
    obtain ⟨buf, hm⟩ := h.metaC
    simp only [step, h.fault, Option.isSome_none, Bool.false_eq_true, ↓reduceIte, resume, hpc,
      getLedgerLoop, hbl, hm, Bool.not_true, Bool.false_and] at hstep
    cases buf with
    | nil => simp at hstep
    | cons x rest =>
    rw [h.head hm] at hstep
    have hn := h.nextLedger_eq
    simp only [Option.some.injEq, getLedgerReceive, Sys.modify_core, hseq, ← hn, ne_eq,
      not_true_eq_false, ↓reduceIte, h.lastLedger, reduceCtorEq] at hstep
    obtain ⟨rn, hrn, hp⟩ := h.pipe
    have hlen : n0.toNat + s.accepted.length < 2 ^ 32 := by
      have := u32_toNat_lt sequence
      omega
    have hnat : s.core.nextLedger.toNat = n0.toNat + s.accepted.length := by
      rw [hn, u32_toNat_add, u32_toNat_ofNat]
      have := u32_toNat_lt n0
      omega
    split at hstep
    · next heq =>
      -- the ledger `from`: cached, and `PrepareRange` goes on to wait
      simp only [getLedgerReturn, prepareRangeAwait, Sys.modify_core, hrn, hp, Sys.await,
        Prod.mk.injEq] at hstep
      obtain ⟨rfl, rfl⟩ := hstep
      refine ⟨h.of_eq hinv h.fault h.lastLedger.symm rfl rfl rfl hrn.symm,
        ⟨rfl, rfl, .inl ⟨hlt, ?_, by rw [heq]⟩⟩,
        nofun, by simp [hpc]⟩
      rw [u32_eq_iff, hnat] at heq
      simp only [Sys.modify_accepted, List.length_append, List.length_singleton]
      omega
    · next hne =>
      -- an earlier ledger: the fast-forward goes on
      simp only [Sys.await, Prod.mk.injEq] at hstep
      obtain ⟨rfl, rfl⟩ := hstep
      refine ⟨h.of_eq hinv h.fault h.lastLedger.symm rfl rfl rfl rfl,
        ⟨rfl, rfl, hbl, hlt, ?_⟩, nofun, by simp [hpc]⟩
      rw [u32_eq_iff, hnat] at hne
      simp only [Sys.modify_accepted, List.length_append, List.length_singleton]
      omega
  · next r' hpc =>
    -- the wait returns nil once an item is buffered
    obtain ⟨rfl, hbl, hfw⟩ := hw
    have hsh : s.core.shutdownClosed = false := by
      simp [Core.shutdownClosed, h.shutdown, Chan.empty]
    simp only [step, h.fault, Option.isSome_none, Bool.false_eq_true, ↓reduceIte, resume, hpc,
      prepareRangeWait, hsh, h.processExit] at hstep
    split at hstep
    · next hbuf =>
      simp only [Option.some.injEq, Sys.finish, Prod.mk.injEq] at hstep
      obtain ⟨rfl, rfl⟩ := hstep
      exact ⟨h.of_eq hinv h.fault rfl rfl rfl rfl rfl, ⟨hbl, hfw, fun _ ↦ hbuf⟩,
        fun x hx ↦ (Option.mem_some_iff.mp hx).symm, fun _ ↦ rfl⟩
    · cases hstep
  · next hpc =>
    simp [step, h.fault, resume, hpc] at hstep
  · exact hw.elim

/-- Every run of the reader, the child and `PrepareRange` keeps the session and the phase and
returns nil at most; once `PrepareRange` returned, the consumer stays idle. -/
theorem forwarding_run (h : OnlineSession ledgers n0 s) (hw : Forwarding ledgers n0 «from» s)
    (hseq : ∀ i, (ledgers i).ledgerSequence = i) {as : List Action}
    (has : ∀ a ∈ as, background a = true ∨ ∃ e, a = .resume e) {t : Sys} {rs : List Ret}
    (hrun : run s as = some (t, rs)) :
    OnlineSession ledgers n0 t ∧ Forwarding ledgers n0 «from» t ∧
      (∀ x ∈ rs, x = .prepareRange (unboundedRange «from») none) ∧
      (rs ≠ [] ∨ s.pc = .idle → t.pc = .idle) := by
  induction as generalizing s rs with
  | nil =>
    simp only [run, Option.some.injEq, Prod.mk.injEq] at hrun
    obtain ⟨rfl, rfl⟩ := hrun
    exact ⟨h, hw, nofun, fun hi ↦ by simpa using hi⟩
  | cons a as ih =>
    obtain ⟨s₁, r, rs₂, hstep, h₂, rfl⟩ := run_cons_eq_some.mp hrun
    obtain ⟨h₁, hw₁, hr, hidle⟩ := forwarding_step h hw hseq (has a (.head _)) hstep
    obtain ⟨ht, hwt, hrs, hidle'⟩ := ih h₁ hw₁ (fun a ha ↦ has a (.tail _ ha)) h₂
    refine ⟨ht, hwt, fun x hx ↦ ?_, fun hi ↦ ?_⟩
    · rcases List.mem_append.mp hx with hx | hx
      exacts [hr x (Option.mem_toList.mp hx), hrs x hx]
    · by_cases hrs₂ : rs₂ = []
      · subst hrs₂
        refine hidle' (.inr (hidle (hi.imp_left fun hne ↦ ?_)))
        cases r
        exacts [absurd rfl hne, rfl]
      · exact hidle' (.inl hrs₂)

end Forward

/-- What a stretch of `PrepareRange(UnboundedRange(from))` on a closed backend leads to: an
error, a panic, or the session from `n0` in its first phase, the invariant given. -/
def OpenOutcome (ledgers : UInt32 → LedgerCloseMeta) (n0 «from» : UInt32) (o : Out) : Prop :=
  (∃ e, o.2 = some (.prepareRange (unboundedRange «from») (some e))) ∨
    (o.2 = none ∧ o.1.fault.isSome) ∨
    (o.2 = none ∧ (Inv False o.1 → OnlineSession ledgers n0 o.1) ∧ Forwarding ledgers n0 «from» o.1)

section Open

variable {ledgers : UInt32 → LedgerCloseMeta} {«from» runFrom nextLedger : UInt32} {hash : String}

theorem cacheHit_eq_none {c : Core} {sequence : UInt32}
    (h : ∀ m, c.cachedMeta = some m → m.ledgerSequence ≠ sequence) : cacheHit c sequence = none := by
  cases hc : cacheHit c sequence with
  | none => rfl
  | some m =>
    obtain ⟨hm, hs⟩ := cacheHit_eq_some.mp hc
    exact absurd hs (h m hm)

theorem openOutcome_fail {s : Sys} {e : Err} {n0 : UInt32} :
    OpenOutcome ledgers n0 «from» (prepareRangeFail s (unboundedRange «from») e) :=
  .inl ⟨_, rfl⟩

theorem openOutcome_crash {s : Sys} {f : Fault} {n0 : UInt32} :
    OpenOutcome ledgers n0 «from» (s.crash f) :=
  .inr (.inl ⟨rfl, rfl⟩)

/-- With no runner and no reader, `openOnlineAfterClose` starts the child from `runFromParams`;
behind `from`, the new session starts the fast-forward, and otherwise it waits. -/
theorem openOnline_outcome {t : Sys} {env : Env} (hf : t.fault = none)
    (hrn : t.core.hcnetCoreRunner = none) (hrun : t.readerRunning = false)
    (hcache : ∀ m, t.core.cachedMeta = some m → m.ledgerSequence ≠ «from»)
    (hparams : runFromParams env.ledgerHeader «from» = .ok (runFrom, hash, nextLedger))
    (hstart : env.start = .ok (onlinePipe ledgers nextLedger)) (h2 : 2 ≤ «from») :
    OpenOutcome ledgers nextLedger «from» (openOnlineAfterClose t env (unboundedRange «from»)) := by
  obtain ⟨hn2, hle, -⟩ := runFromParams_window hparams h2
  unfold openOnlineAfterClose
  split
  · exact openOutcome_fail
  · dsimp only
    split
    · exact openOutcome_fail
    · split
      · exact openOutcome_fail
      · simp only [ensureRunner, hrn]
        cases env.newRunnerErr with
        | some e => exact openOutcome_fail
        | none =>
          dsimp only
          rw [show (unboundedRange «from»).«from» = «from» from rfl, hparams]
          dsimp only
          simp only [Sys.readerRunning] at hrun
          simp only [startRunner, Runner.new, Option.isSome_none, Bool.false_eq_true, ↓reduceIte,
            hstart, startSession, Sys.readerRunning, hrun]
          have hhit : cacheHit t.core «from» = none := cacheHit_eq_none hcache
          simp only [cacheHit] at hhit
          split
          · next hlt =>
            -- behind `from`: the fast-forward's `GetLedger(from)` waits for the stream
            have hopen : ¬ nextLedger = 0 := by
              simp only [u32_eq_iff, u32_le_iff, u32_toNat_lit] at hn2 ⊢
              omega
            have hge : ¬ «from» < nextLedger := by simpa only [u32_lt_iff, not_lt] using hle
            simp only [getLedgerBegin, Sys.modify_core, cacheHit, hhit, isClosed, beq_iff_eq, hopen,
              ↓reduceIte, hge, Sys.await]
            exact .inr (.inr ⟨rfl, fun hinv ↦ ⟨hinv, hf, rfl, rfl, rfl, rfl, ⟨_, rfl, rfl⟩⟩,
              rfl, rfl, rfl, hlt, by simpa using hle⟩)
          · next hge =>
            -- at `from`: `PrepareRange` waits for the first item
            have heq : nextLedger = «from» := by
              simp only [u32_lt_iff, not_lt, u32_le_iff] at hge hle
              exact (u32_eq_iff _ _).mpr (by omega)
            simp only [prepareRangeAwait, Sys.await]
            exact .inr (.inr ⟨rfl, fun hinv ↦ ⟨hinv, hf, rfl, rfl, rfl, rfl, ⟨_, rfl, rfl⟩⟩,
              rfl, rfl, .inr ⟨heq, rfl, hcache⟩⟩)
      
/-- `PrepareRange(UnboundedRange(from))` on a closed backend: it is not prepared, so it closes
the backend, which kills a runner left by a failed start, and opens the online session. -/
theorem online_call {s₀ : Sys} {env : Env} (hs₀ : Reachable s₀) (hf : s₀.fault = none)
    (hpc : s₀.pc = .idle) (hc : Closed s₀.core)
    (hcache : ∀ m, s₀.core.cachedMeta = some m → m.ledgerSequence ≠ «from»)
    (hparams : runFromParams env.ledgerHeader «from» = .ok (runFrom, hash, nextLedger))
    (hstart : env.start = .ok (onlinePipe ledgers nextLedger)) (h2 : 2 ≤ «from») {o : Out}
    (hstep : step s₀ (.call (.prepareRange (unboundedRange «from»)) env) = some o) :
    OpenOutcome ledgers nextLedger «from» o := by
  obtain ⟨hn, -, hsh⟩ := hc
  have hrun : s₀.readerRunning = false := by
    rcases inv_of_reachable hs₀ with hf' | ⟨-, hb, -, -⟩
    · simp [hf] at hf'
    exact hb.reader_of_shutdown hsh
  have hprep : isPrepared s₀.core ⟨«from», 0, false⟩ = false := by simp [isPrepared, hn]
  simp only [step, hf, hpc, Option.isSome_none, Bool.false_eq_true, ↓reduceIte, call,
    prepareRange, hprep, unboundedRange, closeBegin, Sys.modify_core, hsh, hn, bne_self_eq_false,
    Bool.and_false, Bool.false_and, Option.some.injEq] at hstep
  subst hstep
  unfold closeRunner
  split
  · next hrn => exact openOnline_outcome hf hrn hrun hcache hparams hstart h2
  · exact openOutcome_crash
  · simp only [closeReturn]
    split
    · exact openOutcome_fail
    · exact openOnline_outcome hf rfl hrun hcache hparams hstart h2

end Open

/-- The session starts at `from` and has consumed nothing; the cache does not hold ledger
`from`, and an item is buffered. -/
def Ready (n0 «from» : UInt32) (s : Sys) : Prop :=
  n0 = «from» ∧ s.accepted = [] ∧
    (∀ m, s.core.cachedMeta = some m → m.ledgerSequence ≠ «from») ∧ 0 < s.core.bufLen

/-- Between the calls `GetLedger(from)` that follow `PrepareRange`: ledger `from` is cached, or
the session is ready at `from`, also for a call waiting in `GetLedger`'s loop. -/
def Serving (ledgers : UInt32 → LedgerCloseMeta) (n0 «from» : UInt32) (s : Sys) : Prop :=
  match s.pc with
  | .idle => s.core.cachedMeta = some (ledgers «from») ∨ Ready n0 «from» s
  | .getLedger sequence k => sequence = «from» ∧ k = .user ∧ Ready n0 «from» s
  | _ => False

section Serve

variable {ledgers : UInt32 → LedgerCloseMeta} {n0 «from» : UInt32} {s : Sys}

theorem Serving.of_background (hw : Serving ledgers n0 «from» s) {t : Sys}
    (hpc : t.pc = s.pc) (hcm : t.core.cachedMeta = s.core.cachedMeta)
    (hacc : t.accepted = s.accepted) (hlen : s.core.bufLen ≤ t.core.bufLen) :
    Serving ledgers n0 «from» t := by
  have hready : Ready n0 «from» s → Ready n0 «from» t := fun ⟨h1, h2, h3, h4⟩ ↦
    ⟨h1, hacc ▸ h2, hcm ▸ h3, Nat.lt_of_lt_of_le h4 hlen⟩
  unfold Serving at hw ⊢
  rw [hpc, hcm]
  cases hp : s.pc <;> simp only [hp] at hw ⊢
  · exact hw.imp_right hready
  · exact ⟨hw.1, hw.2.1, hready hw.2.2⟩

/-- A call waiting in a ready session takes the buffer's head, ledger `from`, and returns it. -/
theorem serving_resume (h : OnlineSession ledgers n0 s) (hseq : ∀ i, (ledgers i).ledgerSequence = i)
    (hpc : s.pc = .getLedger «from» .user) (hr : Ready n0 «from» s) (env : Env) :
    ∃ s', step s (.resume env) = some (s', some (.getLedger «from» true (ledgers «from») none)) ∧
      OnlineSession ledgers n0 s' ∧ s'.pc = .idle ∧ s'.core.cachedMeta = some (ledgers «from») := by
  obtain ⟨rfl, hacc, -, hbuf⟩ := hr
  obtain ⟨buf, hm⟩ := h.metaC
  have h0 : n0 + UInt32.ofNat 0 = n0 := add_zero n0
  have hn := h.nextLedger_eq
  rw [hacc, List.length_nil, h0] at hn
  cases buf with
  | nil => simp [Core.bufLen, hm] at hbuf
  | cons x rest =>
  have hx := h.head hm
  rw [hacc, List.length_nil, h0] at hx
  subst hx
  have hne : (rest.length + 1 == 0) = false := by simp
  cases hst : step s (.resume env) with
  | none =>
    simp [step, h.fault, resume, hpc, getLedgerLoop, Core.bufLen, hm, hne] at hst
  | some o =>
    have hinv := (ok_step h.inv (actionOk_false _) hst).1
    simp only [step, h.fault, Option.isSome_none, Bool.false_eq_true, ↓reduceIte, resume, hpc,
      getLedgerLoop, Core.bufLen, hm, List.length_cons, hne, Bool.and_false, getLedgerReceive,
      Sys.modify_core, hseq, hn, ne_eq, not_true_eq_false, h.lastLedger, reduceCtorEq,
      getLedgerReturn, Sys.finish, Option.some.injEq] at hst
    subst hst
    exact ⟨_, rfl, h.of_eq hinv h.fault h.lastLedger.symm rfl rfl rfl rfl, rfl, rfl⟩

/-- Every step of the reader, the child, a call `GetLedger(from)` or a resume keeps the session
and `Serving`, and whatever returns is ledger `from`. -/
theorem serving_step (h : OnlineSession ledgers n0 s) (hw : Serving ledgers n0 «from» s)
    (hseq : ∀ i, (ledgers i).ledgerSequence = i) (h2 : 2 ≤ n0) {a : Action}
    (ha : background a = true ∨ (∃ e, a = .resume e) ∨ ∃ e, a = .call (.getLedger «from») e)
    {s' : Sys} {r : Option Ret} (hstep : step s a = some (s', r)) :
    OnlineSession ledgers n0 s' ∧ Serving ledgers n0 «from» s' ∧
      ∀ x ∈ r, x = .getLedger «from» true (ledgers «from») none := by
  rcases ha with ha | ⟨env, rfl⟩ | ⟨env, rfl⟩
  · obtain ⟨h', rfl, hpc, hcm, -, hacc, hlen⟩ := h.background ha hstep
    exact ⟨h', hw.of_background hpc hcm hacc hlen, nofun⟩
  · unfold Serving at hw
    split at hw
    · next hpc => simp [step, h.fault, resume, hpc] at hstep
    · next sequence k hpc =>
      -- the waiting call returns
      obtain ⟨rfl, rfl, hr⟩ := hw
      obtain ⟨t, ht, h', hpc', hcm⟩ := serving_resume h hseq hpc hr env
      rw [ht, Option.some.injEq, Prod.mk.injEq] at hstep
      obtain ⟨rfl, rfl⟩ := hstep
      refine ⟨h', ?_, fun x hx ↦ (Option.mem_some_iff.mp hx).symm⟩
      unfold Serving
      rw [hpc']
      exact .inl hcm
    · exact hw.elim
  · have hpc : s.pc = .idle := by
      by_contra hpc
      simp [step, h.fault, hpc] at hstep
    have hinv := (ok_step h.inv (actionOk_false _) hstep).1
    unfold Serving at hw
    rw [hpc] at hw
    rcases hw with hc | ⟨rfl, hacc, hcache, hbuf⟩
    · -- the cache answers
      have hcall := getLedger_cached h.fault hpc hc env
      rw [hseq, hstep, Option.some.injEq, Prod.mk.injEq] at hcall
      obtain ⟨rfl, rfl⟩ := hcall
      refine ⟨h, ?_, fun x hx ↦ (Option.mem_some_iff.mp hx).symm⟩
      unfold Serving
      rw [hpc]
      exact .inl hc
    · -- the call waits for the head of the buffer
      have hn := h.nextLedger_eq
      rw [hacc, List.length_nil, show n0 + UInt32.ofNat 0 = n0 from add_zero n0] at hn
      have hopen : isClosed s.core = false := by
        simp only [isClosed, hn, beq_eq_false_iff_ne, u32_ne_iff, UInt32.toNat_zero]
        simp only [u32_le_iff, u32_toNat_lit] at h2
        omega
      simp only [step, h.fault, Option.isSome_none, Bool.false_eq_true, ↓reduceIte, hpc, call,
        getLedgerBegin, cacheHit_eq_none hcache, hopen, hn, UInt32.lt_irrefl, Sys.await,
        Option.some.injEq, Prod.mk.injEq] at hstep
      obtain ⟨rfl, rfl⟩ := hstep
      exact ⟨h.of_eq hinv rfl rfl rfl rfl rfl rfl, ⟨rfl, rfl, rfl, hacc, hcache, hbuf⟩, nofun⟩

/-- Every run of the reader, the child, calls `GetLedger(from)` and their resumes keeps the
session and `Serving`, and returns ledger `from` only. -/
theorem serving_run (h : OnlineSession ledgers n0 s) (hw : Serving ledgers n0 «from» s)
    (hseq : ∀ i, (ledgers i).ledgerSequence = i) (h2 : 2 ≤ n0) {as : List Action}
    (has : ∀ a ∈ as,
      background a = true ∨ (∃ e, a = .resume e) ∨ ∃ e, a = .call (.getLedger «from») e)
    {t : Sys} {rs : List Ret} (hrun : run s as = some (t, rs)) :
    OnlineSession ledgers n0 t ∧ Serving ledgers n0 «from» t ∧
      ∀ x ∈ rs, x = .getLedger «from» true (ledgers «from») none := by
  induction as generalizing s rs with
  | nil =>
    simp only [run, Option.some.injEq, Prod.mk.injEq] at hrun
    obtain ⟨rfl, rfl⟩ := hrun
    exact ⟨h, hw, nofun⟩
  | cons a as ih =>
    obtain ⟨s₁, r, rs₂, hstep, h₂, rfl⟩ := run_cons_eq_some.mp hrun
    obtain ⟨h₁, hw₁, hr⟩ := serving_step h hw hseq h2 (has a (.head _)) hstep
    obtain ⟨ht, hwt, hrs⟩ := ih h₁ hw₁ (fun a ha ↦ has a (.tail _ ha)) h₂
    refine ⟨ht, hwt, fun x hx ↦ ?_⟩
    rcases List.mem_append.mp hx with hx | hx
    exacts [hr x (Option.mem_toList.mp hx), hrs x hx]

end Serve

/-! ## The fast-forward -/

/-- A run from a state that panicked returns nothing. -/
theorem run_of_fault {s t : Sys} {as : List Action} {rs : List Ret} (hf : s.fault.isSome)
    (hrun : run s as = some (t, rs)) : rs = [] := by
  cases as with
  | nil =>
    simp only [run, Option.some.injEq, Prod.mk.injEq] at hrun
    exact hrun.2.symm
  | cons a as => simp [run, step, hf] at hrun

theorem ledgersFrom_succ (ledgers : UInt32 → LedgerCloseMeta) (n0 : UInt32) (k : Nat) :
    ledgersFrom ledgers n0 (k + 1) = ledgersFrom ledgers n0 k ++ [ledgers (n0 + UInt32.ofNat k)] := by
  simp [ledgersFrom, List.range_succ]

/-- What a nil return of `PrepareRange(UnboundedRange(from))` leaves in `s`, when
`runFromParams(from)` gave `runFrom` and `nextLedger` and the child writes the ledgers of
`ledgers` from `nextLedger` on: `nextLedger` lies in `[from - 127, from]` from 2 on and
`runFrom + 1` is the largest checkpoint at or below `from` (3 before the first checkpoint);
behind `from`, the call consumed exactly the ledgers `nextLedger, …, from - 1` and then
`from`, which it cached; at `from` it consumed nothing; the backend is non-blocking; and every
later `GetLedger(from)`, with the reader and the child moving in between, returns
`(true, ledger from, nil)`, a waiting one at its next resume. -/
def FastForwarded (ledgers : UInt32 → LedgerCloseMeta) («from» runFrom nextLedger : UInt32)
    (s : Sys) : Prop :=
  (2 ≤ nextLedger ∧ nextLedger ≤ «from» ∧ «from».toNat - nextLedger.toNat < 128 ∧
    («from» ≤ 63 → runFrom + 1 = 3) ∧
    (63 < «from» → isCheckpoint (runFrom + 1) = true ∧ runFrom + 1 ≤ «from» ∧
      ∀ c, isCheckpoint c = true → c ≤ «from» → c ≤ runFrom + 1)) ∧
  (nextLedger < «from» →
    s.accepted = ledgersFrom ledgers nextLedger («from».toNat - nextLedger.toNat) ++
      [ledgers «from»] ∧ s.core.cachedMeta = some (ledgers «from»)) ∧
  (nextLedger = «from» → s.accepted = []) ∧
  s.core.blocking = false ∧
  ∀ bs t rs, (∀ b ∈ bs,
      background b = true ∨ (∃ e, b = .resume e) ∨ ∃ e, b = .call (.getLedger «from») e) →
    run s bs = some (t, rs) →
    (∀ x ∈ rs, x = .getLedger «from» true (ledgers «from») none) ∧
    (t.pc ≠ .idle → ∀ e, ∃ t',
      step t (.resume e) = some (t', some (.getLedger «from» true (ledgers «from») none)))

/-- `PrepareRange(UnboundedRange(from))`, for `from ≥ 2`, on a closed backend whose cache
does not hold ledger `from`, with `runFromParams` giving `(runFrom, hash, nextLedger)` and a
child that writes the ledgers of `ledgers` from `nextLedger` on: in every interleaving of the
reader and the child with the call, a nil return leaves the backend fast-forwarded. -/
theorem online_fast_forward (s₀ : Sys) (env : Env) («from» runFrom nextLedger : UInt32)
    (hash : String) (ledgers : UInt32 → LedgerCloseMeta) (as : List Action) (s : Sys)
    (hs₀ : Reachable s₀) (hf : s₀.fault = none) (hpc : s₀.pc = .idle) (hc : Closed s₀.core)
    (hcache : ∀ m, s₀.core.cachedMeta = some m → m.ledgerSequence ≠ «from»)
    (h2 : 2 ≤ «from»)
    (hparams : runFromParams env.ledgerHeader «from» = .ok (runFrom, hash, nextLedger))
    (hseq : ∀ i, (ledgers i).ledgerSequence = i)
    (hstart : env.start = .ok (onlinePipe ledgers nextLedger))
    (has : ∀ a ∈ as, background a = true ∨ ∃ e, a = .resume e)
    (hrun : run s₀ (.call (.prepareRange (unboundedRange «from»)) env :: as) =
      some (s, [.prepareRange (unboundedRange «from») none])) :
    FastForwarded ledgers «from» runFrom nextLedger s := by
  have hwin := runFromParams_window hparams h2
  obtain ⟨s₁, r, rs₂, hstep, h₂, hrs⟩ := run_cons_eq_some.mp hrun
  rcases online_call hs₀ hf hpc hc hcache hparams hstart h2 hstep with
    ⟨e, he⟩ | ⟨hr, hfault⟩ | ⟨hr, hsess, hw⟩
  · simp only at he
    simp [he] at hrs
  · simp only at hr hfault
    simp [hr, run_of_fault hfault h₂] at hrs
  simp only at hr hsess hw
  subst hr
  have hrs₂ : rs₂ = [.prepareRange (unboundedRange «from») none] := by simpa using hrs.symm
  obtain ⟨h, hwt, -, hidle⟩ := forwarding_run (hsess (ok_step (inv_of_reachable hs₀)
    (actionOk_false _) hstep).1) hw hseq has h₂
  have hpc' : s.pc = .idle := hidle (.inl (by simp [hrs₂]))
  unfold Forwarding at hwt
  rw [hpc'] at hwt
  obtain ⟨hbl, hfw, hbuf⟩ := hwt
  have hserv : Serving ledgers nextLedger «from» s := by
    unfold Serving
    rw [hpc']
    rcases hfw with ⟨-, -, hcm⟩ | ⟨heq, hacc, hcm⟩
    exacts [.inl hcm, .inr ⟨heq, hacc, hcm, hbuf heq⟩]
  unfold FastForwarded
  refine ⟨hwin, fun hlt ↦ ?_, fun heq ↦ ?_, hbl, fun bs t rs hbs hrun' ↦ ?_⟩
  · -- behind `from`: the fast-forward's ledgers
    rcases hfw with ⟨-, hlen, hcm⟩ | ⟨heq, -⟩
    · refine ⟨?_, hcm⟩
      have hto := u32_toNat_lt «from»
      simp only [u32_lt_iff] at hlt
      rw [h.accepted_eq, show s.accepted.length = «from».toNat - nextLedger.toNat + 1 by omega,
        ledgersFrom_succ]
      congr 3
      rw [u32_eq_iff, u32_toNat_add, u32_toNat_ofNat]
      omega
    · exact absurd (heq ▸ hlt) (UInt32.lt_irrefl _)
  · rcases hfw with ⟨hlt, -⟩ | ⟨-, hacc, -⟩
    exacts [absurd (heq ▸ hlt) (UInt32.lt_irrefl _), hacc]
  · -- the calls `GetLedger(from)` that follow
    obtain ⟨ht, hwt, hrs'⟩ := serving_run h hserv hseq hwin.1 hbs hrun'
    refine ⟨hrs', fun hpct e ↦ ?_⟩
    unfold Serving at hwt
    split at hwt
    · next hi => exact absurd hi hpct
    · next sequence k hpct' =>
      obtain ⟨rfl, rfl, hr⟩ := hwt
      obtain ⟨t', ht', -⟩ := serving_resume ht hseq hpct' hr e
      exact ⟨t', ht'⟩
    · exact hwt.elim

/-- The reader brings each of the three ledgers 2, 3 and 4 of the child before the consumer
takes it. -/
def fastForwardReads : List Action :=
  (List.replicate 3 (readOne ++ [.resume (archiveEnv 100 (ledgerStream 2 0))])).flatten

/-- After the bounded session `[65, 66]` cached ledger 66 and closed, `PrepareRange` of
`[66, ∞)` with a child that marks its ledgers with payload 1, then `GetLedger(66)`. -/
def staleOnlineRun : List Action :=
  .call (.prepareRange (unboundedRange 66)) (archiveEnv 100 (ledgerStream 2 1)) :: readOne ++
    [.resume (archiveEnv 100 (ledgerStream 2 1)),
      .call (.getLedger 66) (archiveEnv 100 (ledgerStream 2 1))]

/-- The fast-forward reaches `from` only when the cache does not hold it. On every closed
backend without a cached ledger `from`, a nil `PrepareRange(UnboundedRange(from))` leaves the
backend fast-forwarded. But `Close` keeps `cachedMeta`: with ledger 66 cached by an earlier
session, the fast-forward to 66 is answered by the cache, so `PrepareRange(UnboundedRange(66))`
returns nil with nothing consumed and `nextLedger` still at 2, and `GetLedger(66)` returns the
old session's ledger, not the child's. -/
theorem online_fast_forward_stale_cache :
    (∀ s₀ env «from» runFrom nextLedger hash ledgers as s, Reachable s₀ → s₀.fault = none →
      s₀.pc = .idle → Closed s₀.core →
      (∀ m, s₀.core.cachedMeta = some m → m.ledgerSequence ≠ «from») → 2 ≤ «from» →
      runFromParams env.ledgerHeader «from» = .ok (runFrom, hash, nextLedger) →
      (∀ i, (ledgers i).ledgerSequence = i) → env.start = .ok (onlinePipe ledgers nextLedger) →
      (∀ a ∈ as, background a = true ∨ ∃ e, a = .resume e) →
      run s₀ (.call (.prepareRange (unboundedRange «from»)) env :: as) =
        some (s, [.prepareRange (unboundedRange «from») none]) →
      FastForwarded ledgers «from» runFrom nextLedger s) ∧
    ∃ s₁ s₂, run (Sys.fresh "hcnet-core.cfg") cachedSessionRun =
        some (s₁, [.prepareRange (boundedRange 65 66) none, .getLedger 66 true ⟨66, 0⟩ none]) ∧
      Closed s₁.core ∧ s₁.core.cachedMeta = some ⟨66, 0⟩ ∧
      runFromParams (archiveEnv 100 (ledgerStream 2 1)).ledgerHeader 66 = .ok (62, "", 2) ∧
      run s₁ staleOnlineRun = some (s₂, [.prepareRange (unboundedRange 66) none,
        .getLedger 66 true ⟨66, 0⟩ none]) ∧
      s₂.accepted = [] ∧ s₂.core.nextLedger = 2 ∧ ledgerStream 2 1 64 = .frame ⟨66, 1⟩ :=
  ⟨online_fast_forward, _, _, rfl, ⟨rfl, rfl, rfl⟩, rfl, rfl, rfl, rfl, rfl, rfl⟩

theorem online_fast_forward_fresh :
    ∃ s, run (Sys.fresh "hcnet-core.cfg")
        (.call (.prepareRange (unboundedRange 3)) (archiveEnv 100 (ledgerStream 2 0)) ::
          fastForwardReads) = some (s, [.prepareRange (unboundedRange 3) none]) ∧
      FastForwarded (fun n ↦ ⟨n, 0⟩) 3 2 2 s :=
  ⟨_, rfl, online_fast_forward_stale_cache.1 _ (archiveEnv 100 (ledgerStream 2 0)) 3 2 2 ""
    (fun n ↦ ⟨n, 0⟩) fastForwardReads _ (.fresh "hcnet-core.cfg") rfl rfl
    ⟨rfl, rfl, rfl⟩ (fun _ h ↦ nomatch h) (by decide) rfl (fun _ ↦ rfl) rfl
    (by simp [fastForwardReads, readOne, background]) rfl⟩

end AuroraIngest.Captive.Online
