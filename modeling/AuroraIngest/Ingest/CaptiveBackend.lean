import AuroraIngest.Ingest.Runner
import AuroraIngest.Captive.Cached

/-!
# The processor runner on the captive backend

The runner asks its ledger backend for ledger `c` twice while it checks a checkpoint: once for
the protocol version, once for the bucket list hash. Over an arbitrary backend the two answers
may differ. On the captive backend they cannot: `GetLedger` caches the ledger it returns and
answers the next request for it from `cachedMeta` before anything else.

`captiveEnv` is the runner's world with the captive system as its ledger backend. A call
`GetLedger(c)` is made on the captive system, which then moves as a schedule says (the reader,
the child and the call's resumes) until the call returns; the archive and the database keep a
state of their own. Over every schedule, archive, database and reachable captive state, a run
of `RunHistoryArchiveIngestion(c)` that writes read the same ledger both times.
-/

namespace AuroraIngest.Ingest.CaptiveBackend

open AuroraIngest.Captive.Ledger (Err)
open AuroraIngest.Captive.State (Sys Action Ret)
open AuroraIngest.Captive.Step (step Reachable run)
open AuroraIngest.Ingest.Runner

/-- A public call of the captive backend, from its start to its return: the state it returns
in, with what it returns; `none` when the schedule ends, or blocks, before the call returns. -/
def serve (s : Sys) : List Action → Option (Ret × Sys)
  | [] => none
  | a :: as =>
    match step s a with
    | some (t, some r) => some (r, t)
    | some (t, none) => serve t as
    | none => none

/-- The return of a served call is a step from a state reachable from where the call began. -/
theorem serve_returns {s : Sys} (hs : Reachable s) {as : List Action} {r : Ret} {t : Sys}
    (h : serve s as = some (r, t)) : ∃ s₀ a, Reachable s₀ ∧ step s₀ a = some (t, some r) := by
  induction as generalizing s with
  | nil => cases h
  | cons a as ih =>
    simp only [serve] at h
    split at h
    · cases h
      exact ⟨s, a, hs, ‹_›⟩
    · exact ih (.next hs ‹_›) h
    · cases h

/-- The answer the runner gets when a call does not return under the schedule. -/
def notServed : Err := .new "GetLedger did not return"

variable {α : Type}

/-- The runner's world with the captive system as its ledger backend. `GetLedger(c)` makes the
call with the environment `cenv` and lets the captive system move as `sched` says for its
state; the runner reads each ledger through `decode`. Every other collaborator is `rest`, on
its own state. -/
def captiveEnv (cenv : AuroraIngest.Captive.State.Env) (sched : Sys → UInt32 → List Action)
    (decode : AuroraIngest.Captive.Ledger.LedgerCloseMeta → LedgerCloseMeta) (rest : Env α) :
    Env (Sys × α) where
  getLedger := fun (t, x) c ↦
    match serve t (.call (.getLedger c) cenv :: sched t c) with
    | some (.getLedger c' found m err, t') =>
      if c' = c then ((found, decode m, err), (t', x))
      else ((false, decode default, some notServed), (t, x))
    | _ => ((false, decode default, some notServed), (t, x))
  bucketListHash := fun (t, x) c ↦ ((rest.bucketListHash x c).1, (t, (rest.bucketListHash x c).2))
  getState := fun (t, x) c ↦ ((rest.getState x c).1, (t, (rest.getState x c).2))
  buildChangeProcessor := fun (t, x) source c ↦ (t, rest.buildChangeProcessor x source c)
  buildTransactionProcessor := fun (t, x) ledger ↦ (t, rest.buildTransactionProcessor x ledger)
  processChange := fun (t, x) change ↦
    ((rest.processChange x change).1, (t, (rest.processChange x change).2))
  processTransaction := fun (t, x) transaction ↦
    ((rest.processTransaction x transaction).1, (t, (rest.processTransaction x transaction).2))
  commit := fun (t, x) ↦ ((rest.commit x).1, (t, (rest.commit x).2))

/-- The captive backend keeps the ledger it returned, from every reachable state: the second
`GetLedger(c)` is answered from `cachedMeta` by the call's first step. -/
theorem captiveEnv_keepsLedger (cenv : AuroraIngest.Captive.State.Env)
    (sched : Sys → UInt32 → List Action)
    (decode : AuroraIngest.Captive.Ledger.LedgerCloseMeta → LedgerCloseMeta) (rest : Env α) :
    (captiveEnv cenv sched decode rest).KeepsLedger fun y ↦ Reachable y.1 where
  build _ _ _ h := h
  keeps := by
    rintro ⟨t, x⟩ c m ⟨t₁, x₁⟩ ht h
    simp only [captiveEnv] at h ⊢
    split at h
    · next c' found m' err t' hserve =>
      split at h
      · next hc =>
        subst hc
        obtain ⟨⟨rfl, rfl, rfl⟩, rfl, rfl⟩ := h
        obtain ⟨s₀, a, hs₀, hstep⟩ := serve_returns ht hserve
        obtain ⟨-, hcache⟩ := AuroraIngest.Captive.Cached.getLedger_repeats hs₀ hstep
          (List.forall_mem_nil _) rfl
        simp [serve, hcache]
      · simp at h
    · simp at h

/-- On the captive backend, a run of `RunHistoryArchiveIngestion(c)` that writes read one
ledger `c`: its log starts with the calls of the checks, and both `GetLedger(c)` calls got the
same ledger, at a supported protocol version and with the archive's bucket list hash. -/
theorem captive_history_one_ledger (cenv : AuroraIngest.Captive.State.Env)
    (sched : Sys → UInt32 → List Action)
    (decode : AuroraIngest.Captive.Ledger.LedgerCloseMeta → LedgerCloseMeta) (rest : Env α)
    (config : Config) {t : Sys} (ht : Reachable t) (x : α) {checkpointLedger : UInt32}
    (hc : checkpointLedger ≠ 1)
    (hw : ∃ e ∈ ((runHistoryArchiveIngestion (captiveEnv cenv sched decode rest) config
      checkpointLedger).run ⟨(t, x), []⟩).2.log, e.isWrite = true) :
    ∃ m hash, m.header.ledgerVersion ≤ maxSupportedProtocolVersion ∧
      hash = m.header.bucketListHash ∧
      [.buildChangeProcessor .historyArchiveSource checkpointLedger,
        .getLedger checkpointLedger (true, m, none), .bucketListHash checkpointLedger (hash, none),
        .getLedger checkpointLedger (true, m, none), .getState checkpointLedger] <+:
        ((runHistoryArchiveIngestion (captiveEnv cenv sched decode rest) config
          checkpointLedger).run ⟨(t, x), []⟩).2.log := by
  obtain ⟨e, he, hwr⟩ := hw
  obtain ⟨m₁, hash, m₂, hv, hh, -, hkeep, hpre⟩ :=
    (runHistoryArchiveIngestion_log _ config (t, x) hc).resolve_left fun hnw ↦ hnw.not_mem he hwr
  obtain rfl := hkeep _ (captiveEnv_keepsLedger cenv sched decode rest) ht
  exact ⟨m₁, hash, hv, hh, hpre⟩

end AuroraIngest.Ingest.CaptiveBackend
