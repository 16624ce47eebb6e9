import AuroraIngest.Captive.Ledger
import AuroraIngest.Ingest.ChangeCache

/-!
# The processor runner checks a ledger before it writes

`ProcessorRunner` hands ledger-entry changes and transactions to groups of processors, which
write them to the database. `RunHistoryArchiveIngestion(c)` streams a checkpoint's snapshot
from the history archive; unless `c` is the genesis ledger it first asks the ledger backend for
ledger `c`, checks the ledger's protocol version, and compares the archive's bucket list hash
for `c` with the one in the ledger's header. `RunAllProcessorsOnLedger(s)` and
`RunTransactionProcessorsOnLedger(s)` check the protocol version of ledger `s` before they
process anything.

The backend, the archive and the processor groups are interfaces. The model answers each call
to them from a state of the world outside the runner, which the call may change, and records
the call with its answer in the run's log. A write is a call that hands a change or a
transaction to a processor group, or commits one. Over every backend, archive and database,
from every state, a run of any of the three entry points writes only after answers that pass
its checks: the log of such a run starts with the calls of the checks and their passing
answers. Building the processor groups, which happens first, only creates batch builders.
-/

namespace AuroraIngest.Ingest.Runner

open AuroraIngest.Captive.Ledger (Err u32_le_iff)
open AuroraIngest.Ingest.ChangeCache (Change LedgerEntryType)

/-- `xdr.Hash`. -/
abbrev Hash := Fin 32 → UInt8

/-- The part of `xdr.LedgerHeader` the runner reads. -/
structure LedgerHeader where
  ledgerSeq : UInt32
  ledgerVersion : UInt32
  bucketListHash : Hash

/-- A ledger entry as the runner passes it on, without looking inside: the root account the
genesis reader makes for a network, or any other entry. -/
inductive LedgerEntry where
  | rootAccount (networkPassphrase : String)
  | entry (type : LedgerEntryType) (body : Nat)
  deriving DecidableEq, Repr

/-- `io.LedgerTransaction`, its index in the ledger and the rest of it as `body`. -/
structure LedgerTransaction where
  index : UInt32
  body : Nat
  deriving DecidableEq, Repr

/-- Modelled from the spec: `xdr.LedgerCloseMeta` as the runner's readers see it, the
ledger's header, the transactions `io.LedgerTransactionReader` reads from it and the changes
`io.LedgerChangeReader` reads from it (both readers are declared outside src/). -/
structure LedgerCloseMeta where
  header : LedgerHeader
  transactions : List LedgerTransaction
  changes : List (Change LedgerEntry)

/-- `MaxSupportedProtocolVersion`, declared outside src/; the tests and the spec take 15. -/
def maxSupportedProtocolVersion : UInt32 := 15

/-- `bytes.Equal`. -/
def bytesEqual (a b : List UInt8) : Bool := a == b

/-- `fmt`'s `%#x` of a byte array: `0x`, then two lower-case hex digits per byte. -/
def formatHash (hash : Hash) : String :=
  "0x" ++ String.join ((List.ofFn hash).map fun b ↦
    String.mk [Nat.digitChar (b.toNat / 16), Nat.digitChar (b.toNat % 16)])

inductive IngestionSource where
  | historyArchiveSource
  | ledgerSource
  deriving DecidableEq, Repr

/-- A call the runner makes, with the answer it got. The last three are the writes. -/
inductive Event where
  | getLedger (sequence : UInt32) (answer : Bool × LedgerCloseMeta × Option Err)
  | bucketListHash (sequence : UInt32) (answer : Hash × Option Err)
  | getState (sequence : UInt32)
  | buildChangeProcessor (source : IngestionSource) (sequence : UInt32)
  | buildTransactionProcessor (header : LedgerHeader)
  | processChange (change : Change LedgerEntry)
  | processTransaction (transaction : LedgerTransaction)
  | commit

/-- The calls that reach the database through a processor. -/
def Event.isWrite : Event → Bool
  | .processChange _ | .processTransaction _ | .commit => true
  | _ => false

/-- The runner's collaborators, each call answered from a state `σ` that it may change: the
ledger backend's `GetLedger`, the history archive adapter's `BucketListHash` and `GetState`
(a snapshot reader: its changes, then the end of the snapshot or a read error), and the
processor groups over the database, built, fed and committed. -/
structure Env (σ : Type) where
  getLedger : σ → UInt32 → (Bool × LedgerCloseMeta × Option Err) × σ
  bucketListHash : σ → UInt32 → (Hash × Option Err) × σ
  getState : σ → UInt32 → Except Err (List (Change LedgerEntry) × Option Err) × σ
  buildChangeProcessor : σ → IngestionSource → UInt32 → σ
  buildTransactionProcessor : σ → LedgerHeader → σ
  processChange : σ → Change LedgerEntry → Option Err × σ
  processTransaction : σ → LedgerTransaction → Option Err × σ
  commit : σ → Option Err × σ

/-- The state of the world and the log of the calls so far. -/
structure World (σ : Type) where
  state : σ
  log : List Event

abbrev RunM (σ α : Type) := StateM (World σ) α

variable {σ α β : Type}

@[simp] theorem bind_run (x : RunM σ α) (f : α → RunM σ β) (w : World σ) :
    (x >>= f).run w = (f (x.run w).1).run (x.run w).2 := rfl

@[simp] theorem pure_run (a : α) (w : World σ) : (pure a : RunM σ α).run w = (a, w) := rfl

/-- A call answered by `f`, recorded with its answer. -/
def call (f : σ → α × σ) (event : α → Event) : RunM σ α := fun w ↦
  ((f w.state).1, ⟨(f w.state).2, w.log ++ [event (f w.state).1]⟩)

@[simp] theorem call_run (f : σ → α × σ) (event : α → Event) (w : World σ) :
    (call f event).run w = ((f w.state).1, ⟨(f w.state).2, w.log ++ [event (f w.state).1]⟩) :=
  rfl

/-- `ProcessorRunner`: its configuration, and the collaborators it was given. -/
structure Config where
  networkPassphrase : String

section Runner

variable (env : Env σ) (config : Config)

def getLedger (sequence : UInt32) : RunM σ (Bool × LedgerCloseMeta × Option Err) :=
  call (env.getLedger · sequence) (.getLedger sequence)

def bucketListHash (sequence : UInt32) : RunM σ (Hash × Option Err) :=
  call (env.bucketListHash · sequence) (.bucketListHash sequence)

def getState (sequence : UInt32) : RunM σ (Except Err (List (Change LedgerEntry) × Option Err)) :=
  call (env.getState · sequence) fun _ ↦ .getState sequence

def processChange (change : Change LedgerEntry) : RunM σ (Option Err) :=
  call (env.processChange · change) fun _ ↦ .processChange change

def processTransaction (transaction : LedgerTransaction) : RunM σ (Option Err) :=
  call (env.processTransaction · transaction) fun _ ↦ .processTransaction transaction

def commit : RunM σ (Option Err) := call env.commit fun _ ↦ .commit

/-- `buildChangeProcessor`: the stats processor and the seven processors over the database,
whose constructors only create batch builders. -/
def buildChangeProcessor (source : IngestionSource) (sequence : UInt32) : RunM σ Unit :=
  call (fun s ↦ ((), env.buildChangeProcessor s source sequence))
    fun _ ↦ .buildChangeProcessor source sequence

def buildTransactionProcessor (ledger : LedgerHeader) : RunM σ Unit :=
  call (fun s ↦ ((), env.buildTransactionProcessor s ledger))
    fun _ ↦ .buildTransactionProcessor ledger

def checkIfProtocolVersionSupported (ledgerSequence : UInt32) : RunM σ (Option Err) := do
  let («exists», ledgerCloseMeta, err) ← getLedger env ledgerSequence
  match err with
  | some err => return some (.wrap err "Error getting ledger")
  | none =>
    if !«exists» then
      return some (.new "cannot check if protocol version supported: ledger does not exist")
    else
      let ledgerVersion := ledgerCloseMeta.header.ledgerVersion
      if ledgerVersion > maxSupportedProtocolVersion then
        return some (.new (s!"This Aurora version does not support protocol version {ledgerVersion}. " ++
          s!"The latest supported protocol version is {maxSupportedProtocolVersion}. " ++
          "Please upgrade to the latest Aurora version."))
      else
        return none

def validateBucketList (ledgerSequence : UInt32) : RunM σ (Option Err) := do
  let (historyBucketListHash, err) ← bucketListHash env ledgerSequence
  match err with
  | some err => return some (.wrap err "Error getting bucket list hash")
  | none =>
    let («exists», ledgerCloseMeta, err) ← getLedger env ledgerSequence
    match err with
    | some err => return some (.wrap err "Error getting ledger")
    | none =>
      if !«exists» then
        return some (.new (s!"cannot validate bucket hash list. Checkpoint ledger ({ledgerSequence}) " ++
          "must exist in Hcnet-Core database."))
      else
        let ledgerBucketHashList := ledgerCloseMeta.header.bucketListHash
        if !bytesEqual (List.ofFn historyBucketListHash) (List.ofFn ledgerBucketHashList) then
          return some (.new ("Bucket list hash of history archive and ledger header does not match: " ++
            formatHash historyBucketListHash ++ " " ++ formatHash ledgerBucketHashList))
        else
          return none

/-- Modelled from the spec: `io.StreamChanges` (declared outside src/) over a reader's changes
and its last read error, `none` for the end of the stream. The group's stats processor sees
each change first, then the processors over the database; the first error stops the stream.
The changes the stats processor saw stand for its results. -/
def streamChanges (stats : List (Change LedgerEntry)) :
    List (Change LedgerEntry) → Option Err → RunM σ (List (Change LedgerEntry) × Option Err)
  | [], readErr => pure (stats, readErr)
  | change :: changes, readErr => do
    match ← processChange env change with
    | some err => return (stats ++ [change], some err)
    | none => streamChanges (stats ++ [change]) changes readErr

/-- Modelled from the spec: `io.StreamLedgerTransactions` (declared outside src/), in the same
way. -/
def streamLedgerTransactions (stats : List LedgerTransaction) :
    List LedgerTransaction → RunM σ (List LedgerTransaction × Option Err)
  | [] => pure (stats, none)
  | transaction :: transactions => do
    match ← processTransaction env transaction with
    | some err => return (stats ++ [transaction], some err)
    | none => streamLedgerTransactions (stats ++ [transaction]) transactions

/-- `io.ErrNotFound`, declared outside src/; its text here stands in for the one there. -/
def errNotFound : Err := .new "ledger not found"

/-- Modelled from the spec: `io.NewLedgerTransactionReader` (declared outside src/) opens a
reader of ledger `sequence` from the backend, and fails unless the backend has the ledger. -/
def newLedgerTransactionReader (sequence : UInt32) : RunM σ (Except Err LedgerCloseMeta) := do
  let («exists», ledgerCloseMeta, err) ← getLedger env sequence
  match err with
  | some err => return .error err
  | none => return if «exists» then .ok ledgerCloseMeta else .error errNotFound

/-- Modelled from the spec: `io.NewLedgerChangeReader` (declared outside src/), a reader of
ledger `sequence`'s changes opened in the same way. -/
def newLedgerChangeReader (sequence : UInt32) :
    RunM σ (Except Err (List (Change LedgerEntry))) := do
  return (← newLedgerTransactionReader env sequence).map LedgerCloseMeta.changes

/-- Modelled from the spec: `io.GenesisLedgerStateReader`'s one change, the network's root
account. -/
def genesisChange (networkPassphrase : String) : Change LedgerEntry :=
  ⟨.account, none, some (.rootAccount networkPassphrase)⟩

/-- What the entry points do once a reader is open: stream its changes into the group, then
commit, wrapping the errors with `streamMsg` and with the commit's message. -/
def streamAndCommit (streamMsg : String) (changes : List (Change LedgerEntry))
    (readErr : Option Err) : RunM σ (List (Change LedgerEntry) × Option Err) := do
  let (stats, err) ← streamChanges env [] changes readErr
  match err with
  | some err => return (stats, some (.wrap err streamMsg))
  | none =>
    match ← commit env with
    | some err => return (stats, some (.wrap err "Error commiting changes from processor"))
    | none => return (stats, none)

def runHistoryArchiveIngestion (checkpointLedger : UInt32) :
    RunM σ (List (Change LedgerEntry) × Option Err) := do
  buildChangeProcessor env .historyArchiveSource checkpointLedger
  if checkpointLedger = 1 then
    streamAndCommit env "Error streaming changes from HAS"
      [genesisChange config.networkPassphrase] none
  else
    match ← checkIfProtocolVersionSupported env checkpointLedger with
    | some err => return ([], some (.wrap err "Error while checking for supported protocol version"))
    | none =>
      match ← validateBucketList env checkpointLedger with
      | some err => return ([], some (.wrap err "Error validating bucket list from HAS"))
      | none =>
        match ← getState env checkpointLedger with
        | .error err => return ([], some (.wrap err "Error creating HAS reader"))
        | .ok (changes, readErr) =>
          streamAndCommit env "Error streaming changes from HAS" changes readErr

def runChangeProcessorOnLedger (ledger : UInt32) :
    RunM σ (List (Change LedgerEntry) × Option Err) := do
  match ← newLedgerChangeReader env ledger with
  | .error err => return ([], some (.wrap err "Error creating ledger change reader"))
  | .ok changes => streamAndCommit env "Error streaming changes from ledger" changes none

def runTransactionProcessorsOnLedger (ledger : UInt32) :
    RunM σ (List LedgerTransaction × Option Err) := do
  match ← newLedgerTransactionReader env ledger with
  | .error err => return ([], some (.wrap err "Error creating ledger reader"))
  | .ok transactionReader =>
    match ← checkIfProtocolVersionSupported env ledger with
    | some err => return ([], some (.wrap err "Error while checking for supported protocol version"))
    | none => processLedger transactionReader
where
  /-- What follows the check: build the transaction group, stream the ledger's transactions
  into it, then commit. -/
  processLedger (transactionReader : LedgerCloseMeta) :
      RunM σ (List LedgerTransaction × Option Err) := do
    buildTransactionProcessor env transactionReader.header
    let (stats, err) ← streamLedgerTransactions env [] transactionReader.transactions
    match err with
    | some err => return (stats, some (.wrap err "Error streaming changes from ledger"))
    | none =>
      match ← commit env with
      | some err => return (stats, some (.wrap err "Error commiting changes from processor"))
      | none => return (stats, none)

def runAllProcessorsOnLedger (sequence : UInt32) :
    RunM σ (List (Change LedgerEntry) × List LedgerTransaction × Option Err) := do
  match ← checkIfProtocolVersionSupported env sequence with
  | some err =>
    return ([], [], some (.wrap err "Error while checking for supported protocol version"))
  | none =>
    buildChangeProcessor env .ledgerSource sequence
    let (changeStats, err) ← runChangeProcessorOnLedger env sequence
    match err with
    | some err => return (changeStats, [], some err)
    | none =>
      let (transactionStats, err) ← runTransactionProcessorsOnLedger env sequence
      return (changeStats, transactionStats, err)

end Runner

section Checks

variable {σ : Type} (env : Env σ)

@[simp] theorem bytesEqual_ofFn (a b : Hash) :
    bytesEqual (List.ofFn a) (List.ofFn b) = decide (a = b) := by
  rw [bytesEqual, Bool.eq_iff_iff, beq_iff_eq, decide_eq_true_iff, List.ofFn_inj]

/-- The backend answered `GetLedger` with a ledger whose protocol version this build
supports. -/
def ProtocolSupported (answer : Bool × LedgerCloseMeta × Option Err) : Prop :=
  ∃ m, answer = (true, m, none) ∧ m.header.ledgerVersion ≤ maxSupportedProtocolVersion

theorem checkIfProtocolVersionSupported_world (w : World σ) (sequence : UInt32) :
    ((checkIfProtocolVersionSupported env sequence).run w).2 =
      ⟨(env.getLedger w.state sequence).2,
        w.log ++ [.getLedger sequence (env.getLedger w.state sequence).1]⟩ := by
  rcases h : env.getLedger w.state sequence with ⟨⟨e, m, err⟩, s⟩
  simp only [checkIfProtocolVersionSupported, getLedger, bind_run, call_run, h]
  cases err <;> cases e <;> simp
  split <;> rfl

theorem checkIfProtocolVersionSupported_eq_none (w : World σ) (sequence : UInt32) :
    ((checkIfProtocolVersionSupported env sequence).run w).1 = none ↔
      ProtocolSupported (env.getLedger w.state sequence).1 := by
  rcases h : env.getLedger w.state sequence with ⟨⟨e, m, err⟩, s⟩
  simp only [checkIfProtocolVersionSupported, getLedger, bind_run, call_run, h, ProtocolSupported]
  cases err <;> cases e <;> simp
  split <;> simp <;> omega

/-- No call of `evs` reaches the database. -/
def NoWrites (evs : List Event) : Prop := ∀ e ∈ evs, e.isWrite = false

@[simp] theorem NoWrites_append {a b : List Event} :
    NoWrites (a ++ b) ↔ NoWrites a ∧ NoWrites b := by
  simp only [NoWrites, List.mem_append, or_imp, forall_and]

theorem NoWrites.not_mem {evs : List Event} (h : NoWrites evs) {e : Event} (he : e ∈ evs)
    (hw : e.isWrite = true) : False := by
  rw [h e he] at hw
  exact Bool.false_ne_true hw

theorem validateBucketList_run (w : World σ) (sequence : UInt32) :
    (∃ evs, ((validateBucketList env sequence).run w).2.log = w.log ++ evs ∧ NoWrites evs) ∧
    (((validateBucketList env sequence).run w).1 = none →
      ∃ hash m, hash = m.header.bucketListHash ∧
        (env.getLedger (env.bucketListHash w.state sequence).2 sequence).1 = (true, m, none) ∧
        ((validateBucketList env sequence).run w).2.log =
          w.log ++ [.bucketListHash sequence (hash, none), .getLedger sequence (true, m, none)]) := by
  rcases hb : env.bucketListHash w.state sequence with ⟨⟨hash, herr⟩, s₁⟩
  rcases hl : env.getLedger s₁ sequence with ⟨⟨e, m, err⟩, s₂⟩
  simp only [validateBucketList, bucketListHash, getLedger, bind_run, call_run, hb]
  have hnw : NoWrites [.bucketListHash sequence (hash, herr), .getLedger sequence (e, m, err)] := by
    simp [NoWrites, Event.isWrite]
  cases herr with
  | some _ => exact ⟨⟨_, rfl, fun e he ↦ hnw e (List.mem_cons.mpr (.inl (List.mem_singleton.mp he)))⟩, nofun⟩
  | none =>
    simp only [bind_run, call_run, hl, List.append_assoc, List.singleton_append]
    cases err with
    | some _ => exact ⟨⟨_, rfl, hnw⟩, nofun⟩
    | none =>
      cases e with
      | false => exact ⟨⟨_, rfl, hnw⟩, nofun⟩
      | true =>
        by_cases hh : hash = m.header.bucketListHash
        · simp only [bytesEqual_ofFn, hh, decide_True, Bool.not_true, Bool.false_eq_true, if_false,
            pure_run]
          exact ⟨⟨_, rfl, hh ▸ hnw⟩, fun _ ↦ ⟨_, m, rfl, rfl, rfl⟩⟩
        · simp only [bytesEqual_ofFn, hh, decide_False, Bool.not_false, if_true, pure_run]
          exact ⟨⟨_, rfl, hnw⟩, nofun⟩

theorem newLedgerTransactionReader_run (w : World σ) (sequence : UInt32) :
    ((newLedgerTransactionReader env sequence).run w).2 =
      ⟨(env.getLedger w.state sequence).2,
        w.log ++ [.getLedger sequence (env.getLedger w.state sequence).1]⟩ ∧
    ∀ m, ((newLedgerTransactionReader env sequence).run w).1 = .ok m →
      (env.getLedger w.state sequence).1 = (true, m, none) := by
  rcases h : env.getLedger w.state sequence with ⟨⟨e, m, err⟩, s⟩
  simp only [newLedgerTransactionReader, getLedger, bind_run, call_run, h]
  cases err <;> cases e <;> simp [errNotFound]

/-- A backend that answers `GetLedger` of a sequence the same way from every state, as a
store of ledgers does. -/
def Env.LedgerStore : Prop :=
  ∀ s s' sequence, (env.getLedger s sequence).1 = (env.getLedger s' sequence).1

/-- A backend that answers `GetLedger(c)` with the ledger it has just returned, whatever the
archive's `BucketListHash(c)` does in between, from the states `P` holds of; building the
change processor keeps `P`. The captive backend is one, through its `cachedMeta`. -/
structure Env.KeepsLedger (P : σ → Prop) : Prop where
  build : ∀ s source sequence, P s → P (env.buildChangeProcessor s source sequence)
  keeps : ∀ s sequence m s₁, P s → env.getLedger s sequence = ((true, m, none), s₁) →
    (env.getLedger (env.bucketListHash s₁ sequence).2 sequence).1 = (true, m, none)

end Checks

section Appends

variable {σ α β : Type} (env : Env σ)

/-- A computation that only adds calls to the log. -/
def Appends (x : RunM σ α) : Prop := ∀ w, w.log <+: (x.run w).2.log

theorem call_appends (f : σ → α × σ) (event : α → Event) : Appends (call f event) :=
  fun _ ↦ List.prefix_append _ _

theorem pure_appends (a : α) : Appends (pure a : RunM σ α) := fun _ ↦ List.prefix_refl _

theorem Appends.bind {x : RunM σ α} {f : α → RunM σ β} (hx : Appends x) (hf : ∀ a, Appends (f a)) :
    Appends (x >>= f) := fun w ↦ (hx w).trans (hf _ _)

theorem streamChanges_appends (stats : List (Change LedgerEntry)) :
    ∀ (changes : List (Change LedgerEntry)) (readErr : Option Err),
      Appends (streamChanges env stats changes readErr)
  | [], _ => pure_appends _
  | change :: changes, readErr => by
    unfold streamChanges
    refine (call_appends _ _).bind fun r ↦ ?_
    cases r
    · exact streamChanges_appends _ changes _
    · exact pure_appends _

theorem streamAndCommit_appends (streamMsg : String) (changes : List (Change LedgerEntry))
    (readErr : Option Err) : Appends (streamAndCommit env streamMsg changes readErr) := by
  refine (streamChanges_appends env [] changes readErr).bind fun ⟨stats, err⟩ ↦ ?_
  cases err
  · exact (call_appends _ _).bind fun r ↦ by cases r <;> exact pure_appends _
  · exact pure_appends _

theorem checkIfProtocolVersionSupported_appends (sequence : UInt32) :
    Appends (checkIfProtocolVersionSupported env sequence) := fun w ↦ by
  rw [checkIfProtocolVersionSupported_world]
  exact List.prefix_append _ _

theorem newLedgerTransactionReader_appends (sequence : UInt32) :
    Appends (newLedgerTransactionReader env sequence) := fun w ↦ by
  rw [(newLedgerTransactionReader_run env w sequence).1]
  exact List.prefix_append _ _

theorem streamLedgerTransactions_appends (stats : List LedgerTransaction) :
    ∀ transactions, Appends (streamLedgerTransactions env stats transactions)
  | [] => pure_appends _
  | transaction :: transactions => by
    unfold streamLedgerTransactions
    refine (call_appends _ _).bind fun r ↦ ?_
    cases r
    · exact streamLedgerTransactions_appends _ transactions
    · exact pure_appends _

theorem runChangeProcessorOnLedger_appends (ledger : UInt32) :
    Appends (runChangeProcessorOnLedger env ledger) := by
  refine ((newLedgerTransactionReader_appends env ledger).bind fun _ ↦ pure_appends _).bind
    fun r ↦ ?_
  cases r
  · exact pure_appends _
  · exact streamAndCommit_appends env _ _ _

theorem processLedger_appends (transactionReader : LedgerCloseMeta) :
    Appends (runTransactionProcessorsOnLedger.processLedger env transactionReader) := by
  refine (call_appends _ _).bind fun _ ↦
    (streamLedgerTransactions_appends env [] _).bind fun ⟨stats, err⟩ ↦ ?_
  cases err
  · exact (call_appends _ _).bind fun r ↦ by cases r <;> exact pure_appends _
  · exact pure_appends _

theorem runTransactionProcessorsOnLedger_appends (ledger : UInt32) :
    Appends (runTransactionProcessorsOnLedger env ledger) := by
  refine (newLedgerTransactionReader_appends env ledger).bind fun r ↦ ?_
  cases r
  · exact pure_appends _
  · refine (checkIfProtocolVersionSupported_appends env ledger).bind fun r ↦ ?_
    cases r
    · exact processLedger_appends env _
    · exact pure_appends _

end Appends

/-! ## Writes come after the checks -/

section Writes

variable {σ : Type} (env : Env σ) (config : Config)

theorem runHistoryArchiveIngestion_log (s : σ) {checkpointLedger : UInt32}
    (hc : checkpointLedger ≠ 1) :
    NoWrites ((runHistoryArchiveIngestion env config checkpointLedger).run ⟨s, []⟩).2.log ∨
    ∃ m₁ hash m₂, m₁.header.ledgerVersion ≤ maxSupportedProtocolVersion ∧
      hash = m₂.header.bucketListHash ∧ (env.LedgerStore → m₁ = m₂) ∧
      (∀ P, env.KeepsLedger P → P s → m₁ = m₂) ∧
      [.buildChangeProcessor .historyArchiveSource checkpointLedger,
        .getLedger checkpointLedger (true, m₁, none), .bucketListHash checkpointLedger (hash, none),
        .getLedger checkpointLedger (true, m₂, none), .getState checkpointLedger] <+:
        ((runHistoryArchiveIngestion env config checkpointLedger).run ⟨s, []⟩).2.log := by
  simp only [runHistoryArchiveIngestion, bind_run, buildChangeProcessor, call_run, if_neg hc,
    List.nil_append]
  generalize hw₁ : (⟨_, [.buildChangeProcessor .historyArchiveSource checkpointLedger]⟩ : World σ) = w₁
  have hlog₂ := checkIfProtocolVersionSupported_world env w₁ checkpointLedger
  have hnone := checkIfProtocolVersionSupported_eq_none env w₁ checkpointLedger
  rcases hp : (checkIfProtocolVersionSupported env checkpointLedger).run w₁ with ⟨_ | err, w₂⟩ <;>
    rw [hp] at hlog₂ hnone <;> simp only at hlog₂ hnone ⊢
  · obtain ⟨m₁, ha₁, hv⟩ := hnone.mp trivial
    simp only [bind_run]
    have hv₂ := validateBucketList_run env w₂ checkpointLedger
    rcases hq : (validateBucketList env checkpointLedger).run w₂ with ⟨_ | err, w₃⟩ <;>
      rw [hq] at hv₂ <;> simp only at hv₂ ⊢
    · obtain ⟨hash, m₂, hh, ha₂, hlog₃⟩ := hv₂.2 trivial
      have hm : env.LedgerStore → m₁ = m₂ := fun hstore ↦ by
        have := (ha₁.symm.trans (hstore _ _ _)).trans ha₂
        simpa using this
      have hkeep : ∀ P, env.KeepsLedger P → P s → m₁ = m₂ := fun P hP hs ↦ by
        subst hw₁
        rw [hlog₂] at ha₂
        have hk := hP.keeps _ checkpointLedger m₁ _ (hP.build s _ _ hs) (Prod.ext ha₁ rfl)
        simpa using hk.symm.trans ha₂
      simp only [bind_run, getState, call_run]
      have hpre : w₃.log ++ [.getState checkpointLedger] =
          [.buildChangeProcessor .historyArchiveSource checkpointLedger,
            .getLedger checkpointLedger (true, m₁, none), .bucketListHash checkpointLedger (hash, none),
            .getLedger checkpointLedger (true, m₂, none), .getState checkpointLedger] := by
        subst hlog₂ hw₁
        simp [hlog₃, ha₁]
      rcases (env.getState w₃.state checkpointLedger).1 with err | ⟨changes, readErr⟩
      · left
        simp [NoWrites, Event.isWrite, hpre]
      · refine .inr ⟨m₁, hash, m₂, hv, hh, hm, hkeep, ?_⟩
        rw [← hpre]
        exact streamAndCommit_appends env _ changes readErr ⟨_, _⟩
    · obtain ⟨evs, hlog₃, hnw⟩ := hv₂.1
      left
      subst hlog₂ hw₁
      simp only [pure_run, hlog₃, NoWrites_append, hnw, and_true]
      simp [NoWrites, Event.isWrite]
  · left
    subst hlog₂ hw₁
    simp [NoWrites, Event.isWrite]

theorem runTransactionProcessorsOnLedger_log (w : World σ) (ledger : UInt32) :
    (∃ evs, ((runTransactionProcessorsOnLedger env ledger).run w).2.log = w.log ++ evs ∧
      NoWrites evs) ∨
    ∃ m₁ m₂, m₂.header.ledgerVersion ≤ maxSupportedProtocolVersion ∧
      w.log ++ [.getLedger ledger (true, m₁, none), .getLedger ledger (true, m₂, none)] <+:
        ((runTransactionProcessorsOnLedger env ledger).run w).2.log := by
  simp only [runTransactionProcessorsOnLedger, bind_run]
  obtain ⟨hw₂, hok⟩ := newLedgerTransactionReader_run env w ledger
  rcases hp : (newLedgerTransactionReader env ledger).run w with ⟨err | m₁, w₂⟩ <;>
    rw [hp] at hw₂ hok <;> simp only at hw₂ hok ⊢
  · left
    subst hw₂
    simp [NoWrites, Event.isWrite]
  · have ha₁ := hok m₁ rfl
    simp only [bind_run]
    have hlog₃ := checkIfProtocolVersionSupported_world env w₂ ledger
    have hnone := checkIfProtocolVersionSupported_eq_none env w₂ ledger
    rcases hq : (checkIfProtocolVersionSupported env ledger).run w₂ with ⟨_ | err, w₃⟩ <;>
      rw [hq] at hlog₃ hnone <;> simp only at hlog₃ hnone ⊢
    · obtain ⟨m₂, ha₂, hv⟩ := hnone.mp trivial
      refine .inr ⟨m₁, m₂, hv, ?_⟩
      have hpre : w₃.log = w.log ++ [.getLedger ledger (true, m₁, none),
          .getLedger ledger (true, m₂, none)] := by
        subst hw₂ hlog₃
        simp [ha₁, ha₂]
      rw [← hpre]
      exact processLedger_appends env m₁ w₃
    · left
      subst hw₂ hlog₃
      simp [NoWrites, Event.isWrite]

theorem runAllProcessorsOnLedger_log (w : World σ) (sequence : UInt32) :
    (∃ evs, ((runAllProcessorsOnLedger env sequence).run w).2.log = w.log ++ evs ∧
      NoWrites evs) ∨
    ∃ m, m.header.ledgerVersion ≤ maxSupportedProtocolVersion ∧
      w.log ++ [.getLedger sequence (true, m, none)] <+:
        ((runAllProcessorsOnLedger env sequence).run w).2.log := by
  simp only [runAllProcessorsOnLedger, bind_run]
  have hlog₂ := checkIfProtocolVersionSupported_world env w sequence
  have hnone := checkIfProtocolVersionSupported_eq_none env w sequence
  rcases hp : (checkIfProtocolVersionSupported env sequence).run w with ⟨_ | err, w₂⟩ <;>
    rw [hp] at hlog₂ hnone <;> simp only at hlog₂ hnone ⊢
  · obtain ⟨m, ha, hv⟩ := hnone.mp trivial
    refine .inr ⟨m, hv, ?_⟩
    have hpre : w₂.log = w.log ++ [.getLedger sequence (true, m, none)] := by
      subst hlog₂
      simp [ha]
    rw [← hpre]
    refine ((call_appends _ _).bind fun _ ↦
      (runChangeProcessorOnLedger_appends env sequence).bind fun ⟨stats, err⟩ ↦ ?_) w₂
    cases err
    · exact (runTransactionProcessorsOnLedger_appends env sequence).bind fun _ ↦ pure_appends _
    · exact pure_appends _
  · left
    subst hlog₂
    simp [NoWrites, Event.isWrite]

end Writes

/-- Every write of `RunHistoryArchiveIngestion(c)`, for a `c` other than the genesis ledger,
of `RunAllProcessorsOnLedger(s)` and of `RunTransactionProcessorsOnLedger(s)` comes after the
runner's checks, over every backend, archive and database and from every state of them. The
log of a run that writes starts with the checks' calls and answers that pass them: for the
archive, a ledger `c` at a supported version, the archive's bucket list hash for `c` and a
ledger `c` with that hash (one ledger, for a backend that answers the same way every time);
for a ledger, a ledger `s` at a supported version. -/
theorem runner_writes_only_after_checks :
    (∀ {σ : Type} (env : Env σ) (config : Config) (s : σ) (checkpointLedger : UInt32),
      checkpointLedger ≠ 1 →
      (∃ e ∈ ((runHistoryArchiveIngestion env config checkpointLedger).run ⟨s, []⟩).2.log,
        e.isWrite = true) →
      ∃ m₁ hash m₂, m₁.header.ledgerVersion ≤ maxSupportedProtocolVersion ∧
        hash = m₂.header.bucketListHash ∧ (env.LedgerStore → m₁ = m₂) ∧
        [.buildChangeProcessor .historyArchiveSource checkpointLedger,
          .getLedger checkpointLedger (true, m₁, none), .bucketListHash checkpointLedger (hash, none),
          .getLedger checkpointLedger (true, m₂, none), .getState checkpointLedger] <+:
          ((runHistoryArchiveIngestion env config checkpointLedger).run ⟨s, []⟩).2.log) ∧
    (∀ {σ : Type} (env : Env σ) (s : σ) (sequence : UInt32),
      (∃ e ∈ ((runAllProcessorsOnLedger env sequence).run ⟨s, []⟩).2.log, e.isWrite = true) →
      ∃ m, m.header.ledgerVersion ≤ maxSupportedProtocolVersion ∧
        [.getLedger sequence (true, m, none)] <+:
          ((runAllProcessorsOnLedger env sequence).run ⟨s, []⟩).2.log) ∧
    (∀ {σ : Type} (env : Env σ) (s : σ) (sequence : UInt32),
      (∃ e ∈ ((runTransactionProcessorsOnLedger env sequence).run ⟨s, []⟩).2.log,
        e.isWrite = true) →
      ∃ m₁ m₂, m₂.header.ledgerVersion ≤ maxSupportedProtocolVersion ∧
        [.getLedger sequence (true, m₁, none), .getLedger sequence (true, m₂, none)] <+:
          ((runTransactionProcessorsOnLedger env sequence).run ⟨s, []⟩).2.log) := by
  refine ⟨fun env config s c hc ⟨e, he, hw⟩ ↦ ?_, fun env s sequence ⟨e, he, hw⟩ ↦ ?_,
    fun env s sequence ⟨e, he, hw⟩ ↦ ?_⟩
  · obtain ⟨m₁, hash, m₂, hv, hh, hm, -, hpre⟩ :=
      (runHistoryArchiveIngestion_log env config s hc).resolve_left fun hnw ↦ hnw.not_mem he hw
    exact ⟨m₁, hash, m₂, hv, hh, hm, hpre⟩
  · obtain ⟨evs, hlog, hnw⟩ | h := runAllProcessorsOnLedger_log env ⟨s, []⟩ sequence
    · exact (hnw.not_mem (by simpa [hlog] using he) hw).elim
    · simpa using h
  · obtain ⟨evs, hlog, hnw⟩ | h := runTransactionProcessorsOnLedger_log env ⟨s, []⟩ sequence
    · exact (hnw.not_mem (by simpa [hlog] using he) hw).elim
    · simpa using h

end AuroraIngest.Ingest.Runner
