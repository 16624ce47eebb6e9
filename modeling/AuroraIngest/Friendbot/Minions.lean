import AuroraIngest.Captive.Ledger

/-!
# The friendbot's minion accounts

`initFriendbot` checks its parameters and the bot's seed, then `createMinionAccounts` makes
the minion accounts the friendbot pays from: batch after batch, it refreshes the bot's
sequence number, draws a keypair per new minion, and submits one transaction of at most 100
`CreateAccount` operations, until as many minions as asked for exist or a call fails.

Aurora, `keypair.Random` and `txnbuild` are outside this file: the model answers each call to
them from a state of the world, which the call may change, and records the call in the run's
log, as `Ingest.Runner` does. Over every world, the loop returns exactly the minions asked for
when it succeeds, in one accepted transaction per started hundred. When a call fails it
returns the minions of the transactions Aurora accepted, a hundred each, fewer than asked for;
`initFriendbot` then keeps them and drops the error, unless there are none. Every transaction
is built with `txnbuild.MinBaseFee`, whatever base fee the friendbot is given: that one goes to
the minions.
-/

namespace AuroraIngest.Friendbot.Minions

open AuroraIngest.Captive.Ledger (Err)

/-- `keypair.Full`, by its address and seed. -/
structure Keypair where
  address : String
  seed : String
  deriving DecidableEq, Repr

/-- `internal.Account`, by its account ID; its sequence number lives with Aurora. -/
structure Account where
  accountID : String
  deriving DecidableEq, Repr

/-- The fields of `internal.Minion` that `createMinionAccounts` sets, less the Aurora client
and the two functions it is given. -/
structure Minion where
  account : Account
  keypair : Keypair
  botAccount : Account
  botKeypair : Keypair
  network : String
  startingBalance : String
  baseFee : Int
  deriving DecidableEq, Repr

/-- `txnbuild.CreateAccount`. -/
structure CreateAccount where
  destination : String
  amount : String
  deriving DecidableEq, Repr

/-- `txnbuild.TransactionParams` as the loop fills it; `timeout` is the argument of
`txnbuild.NewTimeout`. -/
structure TransactionParams where
  sourceAccount : Account
  incrementSequenceNum : Bool
  operations : List CreateAccount
  baseFee : Int
  timeout : Nat
  deriving DecidableEq, Repr

/-- `txnbuild.MinBaseFee`, declared outside src/. -/
def minBaseFee : Int := 100

/-- An error of `SubmitTransactionXDR`: a `*auroraclient.Error`, with the fields of its
problem (`Extras` as `%v` prints it), or another error. -/
inductive SubmitErr where
  | problem (e : Err) (type title : String) (status : Int) (detail extras : String)
  | other (e : Err)
  deriving DecidableEq, Repr

/-- A call the friendbot makes outside itself, with what it got. -/
inductive Event where
  | refreshSequenceNumber (account : Account) (answer : Option Err)
  | random (answer : Except Err Keypair)
  | newTransaction (params : TransactionParams)
  | submitTransactionXDR (txe : String) (answer : Option SubmitErr)

/-- A transaction Aurora accepted. -/
def Event.isAccepted : Event → Bool
  | .submitTransactionXDR _ none => true
  | _ => false

/-- The number of transactions Aurora accepted. -/
def accepted (events : List Event) : Nat := events.countP Event.isAccepted

/-- What the calls answer, from the state `σ` of the world: `RefreshSequenceNumber`,
`keypair.Random`, `txnbuild.NewTransaction`, `Sign`, `Base64` and `SubmitTransactionXDR`,
and for `initFriendbot` whether `strkey.MustDecode` takes the secret as a seed and what
`keypair.Parse` makes of it. -/
structure Env (σ Tx : Type) where
  refreshSequenceNumber : σ → Account → Option Err × σ
  random : σ → Except Err Keypair × σ
  newTransaction : σ → TransactionParams → Except Err Tx × σ
  sign : Tx → String → Keypair → Except Err Tx
  base64 : Tx → Except Err String
  submitTransactionXDR : σ → String → Option SubmitErr × σ
  isSeed : String → Bool
  parse : String → Except Err Keypair

/-- The state of the world and the log of the calls so far. -/
structure World (σ : Type) where
  state : σ
  log : List Event

abbrev RunM (σ α : Type) := StateM (World σ) α

variable {σ Tx α β : Type}

/-- A call answered by `f`, recorded with its answer. -/
def call (f : σ → α × σ) (event : α → Event) : RunM σ α := fun w ↦
  ((f w.state).1, ⟨(f w.state).2, w.log ++ [event (f w.state).1]⟩)

section Loop

variable (env : Env σ Tx) (botAccount : Account) (botKeypair : Keypair)
  (networkPassphrase newAccountBalance minionBalance : String) (baseFee : Int)

def minionBatchSize : Nat := 100

/-- The inner loop over `i < numCreateMinions`: a keypair per minion, the minion, and its
`CreateAccount` operation; the first failure of `keypair.Random` ends it. -/
def newMinions : Nat → RunM σ (Except Err (List Minion × List CreateAccount))
  | 0 => pure (.ok ([], []))
  | k + 1 => do
    match ← call env.random .random with
    | .error err => pure (.error err)
    | .ok minionKeypair =>
      match ← newMinions k with
      | .error err => pure (.error err)
      | .ok (minions, ops) =>
        pure (.ok (⟨⟨minionKeypair.address⟩, minionKeypair, botAccount, botKeypair,
          networkPassphrase, newAccountBalance, baseFee⟩ :: minions,
          ⟨minionKeypair.address, minionBalance⟩ :: ops))

/-- `fmt.Sprintf` of the problem of a `*auroraclient.Error`. -/
def problemString (type title : String) (status : Int) (detail extras : String) : String :=
  s!"Problem[Type={type}, Title={title}, Status={status}, Detail={detail}, Extras={extras}]"

/-- One pass of the outer loop, which creates `numCreateMinions` minions: the new minions once
Aurora accepted their transaction, or the wrapped error of the call that failed. -/
def createBatch (numCreateMinions : Nat) : RunM σ (Except Err (List Minion)) := do
  match ← call (fun s ↦ env.refreshSequenceNumber s botAccount)
      (.refreshSequenceNumber botAccount) with
  | some rerr => pure (.error (.wrap rerr "refreshing bot seqnum"))
  | none =>
    match ← newMinions env botAccount botKeypair networkPassphrase newAccountBalance minionBalance
        baseFee numCreateMinions with
    | .error err => pure (.error (.wrap err "making keypair"))
    | .ok (newMinions, ops) =>
      let params : TransactionParams := ⟨botAccount, true, ops, minBaseFee, 300⟩
      match ← call (fun s ↦ env.newTransaction s params) fun _ ↦ .newTransaction params with
      | .error err => pure (.error (.wrap err "unable to build tx"))
      | .ok tx =>
        match env.sign tx networkPassphrase botKeypair with
        | .error err => pure (.error (.wrap err "unable to sign tx"))
        | .ok tx =>
          match env.base64 tx with
          | .error err => pure (.error (.wrap err "unable to serialize tx"))
          | .ok txe =>
            match ← call (fun s ↦ env.submitTransactionXDR s txe) (.submitTransactionXDR txe) with
            | some (.problem e type title status detail extras) =>
              pure (.error (.wrap (.wrap e (problemString type title status detail extras))
                "submitting create accounts tx"))
            | some (.other err) => pure (.error (.wrap err "submitting create accounts tx"))
            | none => pure (.ok newMinions)

/-- The outer `for numRemainingMinions > 0` loop, with the minions made so far. -/
def createMinionAccountsLoop (minions : List Minion) (numRemainingMinions : Nat) :
    RunM σ (List Minion × Option Err) :=
  if 0 < numRemainingMinions then do
    let numCreateMinions :=
      if numRemainingMinions < minionBatchSize then numRemainingMinions else minionBatchSize
    match ← createBatch env botAccount botKeypair networkPassphrase newAccountBalance minionBalance
        baseFee numCreateMinions with
    | .error err => pure (minions, some err)
    | .ok newMinions =>
      createMinionAccountsLoop (minions ++ newMinions) (numRemainingMinions - numCreateMinions)
  else pure (minions, none)
termination_by numRemainingMinions
decreasing_by simp only [minionBatchSize]; split <;> omega

def createMinionAccounts (numMinions : Nat) : RunM σ (List Minion × Option Err) :=
  createMinionAccountsLoop env botAccount botKeypair networkPassphrase newAccountBalance
    minionBalance baseFee [] numMinions

end Loop

/-- `x`, run from any world, adds `added` to the log and answers `a`, with `P a added`. -/
def Logs (x : RunM σ α) (P : α → List Event → Prop) : Prop :=
  ∀ w, ∃ added, (x.run w).2.log = w.log ++ added ∧ P (x.run w).1 added

theorem Logs.of_pure {a : α} {P : α → List Event → Prop} (h : P a []) :
    Logs (pure a : RunM σ α) P :=
  fun w ↦ ⟨[], (List.append_nil w.log).symm, h⟩

theorem Logs.of_call {f : σ → α × σ} {event : α → Event} {P : α → List Event → Prop}
    (h : ∀ s, P (f s).1 [event (f s).1]) : Logs (call f event) P :=
  fun w ↦ ⟨_, rfl, h w.state⟩

theorem Logs.bind {x : RunM σ α} {f : α → RunM σ β} {P : α → List Event → Prop}
    {Q : β → List Event → Prop} (hx : Logs x P)
    (hf : ∀ a l, P a l → Logs (f a) fun b l' ↦ Q b (l ++ l')) : Logs (x >>= f) Q := by
  intro w
  obtain ⟨l, hl, hp⟩ := hx w
  obtain ⟨l', hl', hq⟩ := hf _ _ hp (x.run w).2
  exact ⟨l ++ l', by rw [← List.append_assoc, ← hl]; exact hl', hq⟩

theorem Logs.mono {x : RunM σ α} {P Q : α → List Event → Prop} (hx : Logs x P)
    (h : ∀ a l, P a l → Q a l) : Logs x Q :=
  fun w ↦ (hx w).imp fun _ ⟨hl, hp⟩ ↦ ⟨hl, h _ _ hp⟩

@[simp] theorem accepted_nil : accepted [] = 0 := rfl

@[simp] theorem accepted_cons (e : Event) (l : List Event) :
    accepted (e :: l) = accepted l + if e.isAccepted then 1 else 0 :=
  List.countP_cons _ _ _

@[simp] theorem accepted_append (l l' : List Event) :
    accepted (l ++ l') = accepted l + accepted l' :=
  List.countP_append _ _ _

@[simp] theorem Event.isAccepted_refreshSequenceNumber (account : Account) (answer : Option Err) :
    (Event.refreshSequenceNumber account answer).isAccepted = false := rfl

@[simp] theorem Event.isAccepted_random (answer : Except Err Keypair) :
    (Event.random answer).isAccepted = false := rfl

@[simp] theorem Event.isAccepted_newTransaction (params : TransactionParams) :
    (Event.newTransaction params).isAccepted = false := rfl

@[simp] theorem Event.isAccepted_submitTransactionXDR (txe : String) (answer : Option SubmitErr) :
    (Event.submitTransactionXDR txe answer).isAccepted = answer.isNone := by
  cases answer <;> rfl

section Batches

variable (env : Env σ Tx) (botAccount : Account) (botKeypair : Keypair)
  (networkPassphrase newAccountBalance minionBalance : String) (baseFee : Int)

/-- A minion made as `createMinionAccounts` was asked. -/
def Configured (m : Minion) : Prop :=
  m.botAccount = botAccount ∧ m.botKeypair = botKeypair ∧ m.network = networkPassphrase ∧
    m.startingBalance = newAccountBalance ∧ m.baseFee = baseFee

/-- A call that builds a transaction builds it from the bot's account, with `MinBaseFee`, and
with between one and `minionBatchSize` operations, each creating an account of
`minionBalance`. -/
def Built : Event → Prop
  | .newTransaction p => p.sourceAccount = botAccount ∧ p.incrementSequenceNum = true ∧
    p.baseFee = minBaseFee ∧ 0 < p.operations.length ∧ p.operations.length ≤ minionBatchSize ∧
    ∀ op ∈ p.operations, op.amount = minionBalance
  | _ => True

@[simp] theorem built_refreshSequenceNumber (account : Account) (answer : Option Err) :
    Built botAccount minionBalance (.refreshSequenceNumber account answer) := trivial

@[simp] theorem built_random (answer : Except Err Keypair) :
    Built botAccount minionBalance (.random answer) := trivial

@[simp] theorem built_submitTransactionXDR (txe : String) (answer : Option SubmitErr) :
    Built botAccount minionBalance (.submitTransactionXDR txe answer) := trivial

theorem newMinions_logs (k : Nat) :
    Logs (newMinions env botAccount botKeypair networkPassphrase newAccountBalance minionBalance
      baseFee k) fun r added ↦ accepted added = 0 ∧
      (∀ e ∈ added, Built botAccount minionBalance e) ∧ ∀ ms ops, r = .ok (ms, ops) →
        ms.length = k ∧
        (∀ m ∈ ms, Configured botAccount botKeypair networkPassphrase newAccountBalance baseFee m) ∧
        ops = ms.map fun m ↦ ⟨m.account.accountID, minionBalance⟩ := by
  induction k with
  | zero => exact Logs.of_pure ⟨rfl, by simp, by rintro _ _ ⟨⟩; simp⟩
  | succ k ih =>
    refine Logs.bind (Logs.of_call (P := fun r l ↦ l = [.random r]) fun _ ↦ rfl) fun r l hl ↦ ?_
    subst hl
    cases r with
    | error err => exact Logs.of_pure ⟨rfl, by simp, fun _ _ h ↦ nomatch h⟩
    | ok kp =>
      refine Logs.bind ih fun r l' ⟨hacc, hb, hms⟩ ↦ ?_
      cases r with
      | error err =>
        exact Logs.of_pure ⟨by simpa using hacc, by simpa using hb, fun _ _ h ↦ nomatch h⟩
      | ok r =>
        obtain ⟨ms, ops⟩ := r
        obtain ⟨hlen, hc, rfl⟩ := hms ms ops rfl
        refine Logs.of_pure ⟨by simpa using hacc, by simpa using hb, ?_⟩
        rintro _ _ ⟨⟩
        refine ⟨by simp [hlen], ?_, rfl⟩
        simpa [Configured] using hc

theorem createBatch_logs (k : Nat) (hk : 0 < k) (hk' : k ≤ minionBatchSize) :
    Logs (createBatch env botAccount botKeypair networkPassphrase newAccountBalance minionBalance
      baseFee k) fun r added ↦ (∀ e ∈ added, Built botAccount minionBalance e) ∧
      (∀ ms, r = .ok ms → ms.length = k ∧
        (∀ m ∈ ms, Configured botAccount botKeypair networkPassphrase newAccountBalance baseFee m) ∧
        accepted added = 1) ∧
      (∀ e, r = .error e → accepted added = 0) := by
  unfold createBatch
  refine Logs.bind (Logs.of_call (P := fun r l ↦ l = [.refreshSequenceNumber botAccount r])
    fun _ ↦ rfl) fun r l hl ↦ ?_
  subst hl
  cases r with
  | some rerr => exact Logs.of_pure ⟨by simp, fun _ h ↦ (nomatch h), fun _ _ ↦ rfl⟩
  | none =>
  refine Logs.bind (newMinions_logs env botAccount botKeypair networkPassphrase newAccountBalance
    minionBalance baseFee k) fun r l' ⟨hacc, hb, hms⟩ ↦ ?_
  cases r with
  | error err =>
    exact Logs.of_pure ⟨by simpa using hb, fun _ h ↦ (nomatch h), fun _ _ ↦ by simpa using hacc⟩
  | ok r =>
  obtain ⟨ms, ops⟩ := r
  obtain ⟨hlen, hc, rfl⟩ := hms ms ops rfl
  let params : TransactionParams :=
    ⟨botAccount, true, ms.map fun m ↦ ⟨m.account.accountID, minionBalance⟩, minBaseFee, 300⟩
  have hparams : Built botAccount minionBalance (.newTransaction params) :=
    ⟨rfl, rfl, rfl, by simp [params, hlen, hk], by simp [params, hlen, hk'], by simp [params]⟩
  have hbuilt : ∀ l'', (∀ e ∈ l'', Built botAccount minionBalance e) →
      ∀ e ∈ [.refreshSequenceNumber botAccount none] ++ (l' ++ ([.newTransaction params] ++ l'')),
        Built botAccount minionBalance e := by
    intro l'' hl'' e he
    simp only [List.singleton_append, List.mem_cons, List.mem_append] at he
    rcases he with rfl | he | rfl | he
    exacts [trivial, hb e he, hparams, hl'' e he]
  have hacc' : ∀ l'', accepted
      ([.refreshSequenceNumber botAccount none] ++ (l' ++ ([.newTransaction params] ++ l''))) =
        accepted l'' := by
    simp [hacc]
  dsimp only
  refine Logs.bind (Logs.of_call (P := fun r l ↦ l = [.newTransaction params]) fun _ ↦ rfl)
    fun r l2 hl2 ↦ ?_
  subst hl2
  cases r with
  | error err => exact Logs.of_pure ⟨hbuilt [] (by simp), by simp, fun _ _ ↦ hacc' []⟩
  | ok tx =>
  dsimp only
  cases env.sign tx networkPassphrase botKeypair with
  | error err => exact Logs.of_pure ⟨hbuilt [] (by simp), by simp, fun _ _ ↦ hacc' []⟩
  | ok tx =>
  dsimp only
  cases env.base64 tx with
  | error err => exact Logs.of_pure ⟨hbuilt [] (by simp), by simp, fun _ _ ↦ hacc' []⟩
  | ok txe =>
  dsimp only
  refine Logs.bind (Logs.of_call (P := fun r l ↦ l = [.submitTransactionXDR txe r]) fun _ ↦ rfl)
    fun r l3 hl3 ↦ ?_
  subst hl3
  have hsubmit := hbuilt [.submitTransactionXDR txe r] (by simp [Built])
  rcases r with _ | ⟨_ | _⟩
  · exact Logs.of_pure ⟨hsubmit, by rintro _ ⟨⟩; exact ⟨hlen, hc, hacc' _⟩, by rintro _ ⟨⟩⟩
  all_goals exact Logs.of_pure ⟨hsubmit, by simp, fun _ _ ↦ hacc' _⟩

/-- The loop from `minions` with `n` minions to go. -/
theorem createMinionAccountsLoop_logs (minions : List Minion) (n : Nat) :
    Logs (createMinionAccountsLoop env botAccount botKeypair networkPassphrase newAccountBalance
      minionBalance baseFee minions n) fun r added ↦
      (∀ e ∈ added, Built botAccount minionBalance e) ∧ ∃ new, r.1 = minions ++ new ∧
        (∀ m ∈ new,
          Configured botAccount botKeypair networkPassphrase newAccountBalance baseFee m) ∧
        (r.2 = none → new.length = n ∧ accepted added = (n + 99) / 100) ∧
        (r.2.isSome → new.length = 100 * accepted added ∧ new.length < n) := by
  induction n using Nat.strongRecOn generalizing minions with
  | ind n ih =>
  rw [createMinionAccountsLoop]
  split
  · rename_i hn
    dsimp only
    generalize hk : (if n < minionBatchSize then n else minionBatchSize) = k
    have hk' : k = n ∧ n < 100 ∨ k = 100 ∧ 100 ≤ n := by
      rw [← hk]; unfold minionBatchSize; split <;> omega
    refine Logs.bind (createBatch_logs env botAccount botKeypair networkPassphrase newAccountBalance
      minionBalance baseFee k (by omega) (by unfold minionBatchSize; omega))
      fun r l ⟨hb, hok, herr⟩ ↦ ?_
    cases r with
    | error err =>
      exact Logs.of_pure ⟨by simpa using hb, [], by simp, by simp, by simp,
        fun _ ↦ by simp [herr err rfl, hn]⟩
    | ok ms =>
      obtain ⟨hlen, hc, hacc⟩ := hok ms rfl
      refine (ih (n - k) (by omega) (minions ++ ms)).mono
        fun r l' ⟨hb', new, hr, hc', hnone, hsome⟩ ↦
        ⟨fun e he ↦ (List.mem_append.mp he).elim (hb e) (hb' e), ms ++ new, by simp [hr],
          fun m hm ↦ (List.mem_append.mp hm).elim (hc m) (hc' m), fun h ↦ ?_, fun h ↦ ?_⟩
      · obtain ⟨h1, h2⟩ := hnone h
        simp only [List.length_append, accepted_append, hlen, h1, h2, hacc]
        omega
      · obtain ⟨h1, h2⟩ := hsome h
        simp only [List.length_append, accepted_append, hlen, h1, hacc]
        omega
  · exact Logs.of_pure ⟨by simp, [], by simp, by simp, fun _ ↦ ⟨by simp; omega, by simp; omega⟩,
      by simp⟩

/-- Over every world: every transaction is built from the bot's account with `MinBaseFee`, of at
most a hundred `CreateAccount`s of `minionBalance`, and every minion is made as asked. When the
loop succeeds it returns exactly the `numMinions` minions, in one accepted transaction per
started hundred; when a call fails it returns the minions of the transactions Aurora
accepted, a hundred each, fewer than asked for. -/
theorem createMinionAccounts_batches (numMinions : Nat) :
    Logs (createMinionAccounts env botAccount botKeypair networkPassphrase newAccountBalance
      minionBalance baseFee numMinions) fun r added ↦
      (∀ e ∈ added, Built botAccount minionBalance e) ∧
      (∀ m ∈ r.1, Configured botAccount botKeypair networkPassphrase newAccountBalance baseFee m) ∧
      (r.2 = none → r.1.length = numMinions ∧ accepted added = (numMinions + 99) / 100) ∧
      (r.2.isSome → r.1.length = 100 * accepted added ∧ r.1.length < numMinions) :=
  (createMinionAccountsLoop_logs env botAccount botKeypair networkPassphrase newAccountBalance
    minionBalance baseFee [] numMinions).mono fun r _ ⟨hb, new, hr, hc, hnone, hsome⟩ ↦ by
    rw [List.nil_append] at hr
    exact ⟨hb, hr ▸ hc, hr ▸ hnone, hr ▸ hsome⟩

end Batches

/-! ## `initFriendbot` -/

/-- `internal.Bot`. -/
structure Bot where
  minions : List Minion
  deriving DecidableEq, Repr

/-- What `initFriendbot` gives: the bot, an error, or the panic of `strkey.MustDecode` on a
secret that is not a seed. -/
inductive InitResult where
  | bot (bot : Bot)
  | error (e : Err)
  | mustDecodePanic
  deriving DecidableEq, Repr

/-- `initFriendbot`; Go's `int` of `numMinions` is an `Int`. The cast of the parsed keypair to
`*keypair.Full` cannot fail after `MustDecode`, and `parse` gives the full keypair. -/
def initFriendbot (env : Env σ Tx)
    (friendbotSecret networkPassphrase auroraURL startingBalance : String) (numMinions : Int)
    (baseFee : Int) : RunM σ InitResult :=
  if friendbotSecret = "" ∨ networkPassphrase = "" ∨ auroraURL = "" ∨ startingBalance = "" ∨
      numMinions < 0 then
    pure (.error (.new "invalid input param(s)"))
  else if env.isSeed friendbotSecret = false then pure .mustDecodePanic
  else
    match env.parse friendbotSecret with
    | .error err => pure (.error (.wrap err "parsing bot keypair"))
    | .ok botKeypair => do
      let botAccount : Account := ⟨botKeypair.address⟩
      let minionBalance := "101.00"
      let numMinions := if numMinions = 0 then 1000 else numMinions.toNat
      let (minions, err) ← createMinionAccounts env botAccount botKeypair networkPassphrase
        startingBalance minionBalance baseFee numMinions
      match err with
      | some err =>
        if minions.length = 0 then pure (.error (.wrap err "creating minion accounts"))
        else pure (.bot ⟨minions⟩)
      | none => pure (.bot ⟨minions⟩)

/-- What `initFriendbot` gives once its parameters and seed pass: no bot and the wrapped error
when no transaction was accepted, or a bot with the minions asked for (`target`), or, when a
call failed after the first transaction, a bot with the hundred minions of each accepted
transaction and no error. -/
def InitOk (botKeypair : Keypair) (networkPassphrase startingBalance : String) (baseFee : Int)
    (target : Nat) (r : InitResult) (added : List Event) : Prop :=
  (∃ e, r = .error (.wrap e "creating minion accounts") ∧ accepted added = 0) ∨
  ∃ minions, r = .bot ⟨minions⟩ ∧
    (∀ m ∈ minions, Configured ⟨botKeypair.address⟩ botKeypair networkPassphrase startingBalance
      baseFee m) ∧
    (minions.length = target ∧ accepted added = (target + 99) / 100 ∨
      0 < minions.length ∧ minions.length < target ∧ minions.length = 100 * accepted added)

/-- With valid parameters and a seed, `initFriendbot` asks for 1000 minions when given 0, and
accepts a bot with fewer minions than asked for. -/
theorem initFriendbot_minions (env : Env σ Tx)
    (friendbotSecret networkPassphrase auroraURL startingBalance : String) (numMinions baseFee : Int)
    (hs : friendbotSecret ≠ "") (hn : networkPassphrase ≠ "") (hu : auroraURL ≠ "")
    (hb : startingBalance ≠ "") (hm : 0 ≤ numMinions) (hseed : env.isSeed friendbotSecret = true)
    {botKeypair : Keypair} (hp : env.parse friendbotSecret = .ok botKeypair) :
    Logs (initFriendbot env friendbotSecret networkPassphrase auroraURL startingBalance numMinions
      baseFee) (InitOk botKeypair networkPassphrase startingBalance baseFee
        (if numMinions = 0 then 1000 else numMinions.toNat)) := by
  have hvalid : ¬(friendbotSecret = "" ∨ networkPassphrase = "" ∨ auroraURL = "" ∨
      startingBalance = "" ∨ numMinions < 0) := by simp [hs, hn, hu, hb, hm]
  rw [initFriendbot, if_neg hvalid, if_neg (by simp [hseed]), hp]
  refine Logs.bind (createMinionAccountsLoop_logs env _ botKeypair networkPassphrase
    startingBalance "101.00" baseFee [] _) fun r l ⟨_, new, hr, hc, hnone, hsome⟩ ↦ ?_
  obtain ⟨minions, err⟩ := r
  simp only [List.nil_append] at hr
  subst hr
  cases err with
  | none => exact Logs.of_pure (.inr ⟨minions, rfl, hc, .inl (by simpa using hnone rfl)⟩)
  | some err =>
    obtain ⟨h1, h2⟩ := hsome rfl
    dsimp only
    split
    · exact Logs.of_pure (.inl ⟨err, rfl, by simp; omega⟩)
    · exact Logs.of_pure (.inr ⟨minions, rfl, hc, .inr ⟨by omega, h2, by simpa using h1⟩⟩)

/-- A world in which Aurora accepts the first transaction and rejects every later one. -/
def secondSubmitFails : Env Nat Unit :=
  ⟨fun s _ ↦ (none, s), fun s ↦ (.ok ⟨"GMINION", "SMINION"⟩, s), fun s _ ↦ (.ok (), s),
    fun tx _ _ ↦ .ok tx, fun _ ↦ .ok "AAAA",
    fun s _ ↦ (if s = 0 then none else some (.other (.new "tx_bad_seq")), s + 1),
    fun _ ↦ true, fun _ ↦ .ok ⟨"GBOT", "SBOT"⟩⟩

theorem initFriendbot_minions_second_batch_fails :
    Logs (initFriendbot secondSubmitFails "SBOT" "Test SDF Network ; September 2015"
      "https://aurora.example" "10000" 150 100)
      (InitOk ⟨"GBOT", "SBOT"⟩ "Test SDF Network ; September 2015" "10000" 100 150) :=
  initFriendbot_minions secondSubmitFails "SBOT" "Test SDF Network ; September 2015"
    "https://aurora.example" "10000" 150 100 (by decide) (by decide) (by decide) (by decide)
    (by decide) rfl rfl

end AuroraIngest.Friendbot.Minions
