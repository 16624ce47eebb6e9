import AuroraIngest.Go.Std

/-!
# The cursor keys of the key-value store

`history.Q` keeps the ingestion cursors in the table `key_value_store`, one string per key:
`updateValueInStore` inserts the key or overwrites its value, `getValueFromStore` returns the
value or `""` when the key is absent. The writers format their numbers with
`strconv.FormatUint`; the readers parse them back with `strconv.ParseUint` or
`strconv.ParseInt` at 32 bits.

The last ingested ledger is written and read as an unsigned number, and the ingest version
as a signed one within its 32-bit range, so both read back what was written. The offer
compaction sequence is a `uint32` written unsigned and read as a signed 32-bit number: every
sequence from `2^31` on reads back as a range error.

-/

namespace AuroraIngest.Ingest.Store

open AuroraIngest.Go

/-- The table `key_value_store`, as a map from key to value. -/
abbrev KeyValueStore := String → Option String

/-- The errors of the store's readers: a `strconv` error, `errors.Errorf`, `errors.Wrap`. -/
inductive Err where
  | numError (e : NumError)
  | new (msg : String)
  | wrap (cause : Err) (msg : String)
  deriving DecidableEq, Repr

def ingestVersion : String := "exp_ingest_version"

def lastLedgerKey : String := "exp_ingest_last_ledger"

def stateInvalid : String := "exp_state_invalid"

def offerCompactionSequence : String := "offer_compaction_sequence"

/-- `getValueFromStore`: the stored value, `""` when the key is absent. `forUpdate` adds
`FOR UPDATE` to the query, which locks the row and does not change the result. -/
def getValueFromStore (q : KeyValueStore) (key : String) (forUpdate : Bool) : String :=
  if forUpdate then (q key).getD "" else (q key).getD ""

/-- `updateValueInStore`: `INSERT … ON CONFLICT (key) DO UPDATE`. -/
def updateValueInStore (q : KeyValueStore) (key value : String) : KeyValueStore :=
  Function.update q key (some value)

/-- The shape every reader of the store shares: read the key, answer `empty` for `""`, parse
the value, and wrap a parse error with `msg`. -/
def readValue {α β : Type} (q : KeyValueStore) (key : String) (forUpdate : Bool)
    (empty : α × Option Err) (parse : String → β × Option NumError) (msg : String)
    (convert : β → α) (zero : α) : α × Option Err :=
  let value := getValueFromStore q key forUpdate
  if value = "" then empty
  else
    match parse value with
    | (_, some e) => (zero, some (.wrap (.numError e) msg))
    | (v, none) => (convert v, none)

def getLastLedgerExpIngestNonBlocking (q : KeyValueStore) : UInt32 × Option Err :=
  readValue q lastLedgerKey false (0, none) (parseUint · 32)
    "Error converting lastIngestedLedger value" UInt32.ofNat 0

/-- Its error for an absent key names `ingestVersion`, as the source's `Errorf` does. -/
def getLastLedgerExpIngest (q : KeyValueStore) : UInt32 × Option Err :=
  readValue q lastLedgerKey true
    (0, some (.new s!"`{ingestVersion}` key cannot be found in the key value store"))
    (parseUint · 32) "Error converting lastIngestedLedger value" UInt32.ofNat 0

def updateLastLedgerExpIngest (q : KeyValueStore) (ledgerSequence : UInt32) : KeyValueStore :=
  updateValueInStore q lastLedgerKey (formatUint ledgerSequence.toNat)

/-- `int(version)` of the `int64` that `ParseInt` returns; Go's `int` has 64 bits. -/
def getExpIngestVersion (q : KeyValueStore) : Int × Option Err :=
  readValue q ingestVersion false (0, none) (parseInt · 32) "Error converting expVersion value"
    id 0

/-- `uint64(version)` of Go's 64-bit `int`: the value modulo `2^64`. -/
def updateExpIngestVersion (q : KeyValueStore) (version : Int) : KeyValueStore :=
  updateValueInStore q ingestVersion (formatUint (version % 2 ^ 64).toNat)

def getExpStateInvalid (q : KeyValueStore) : Bool × Option Err :=
  readValue q stateInvalid false (false, none) parseBool "Error converting invalid value" id false

def updateExpStateInvalid (q : KeyValueStore) (val : Bool) : KeyValueStore :=
  updateValueInStore q stateInvalid (formatBool val)

/-- `uint32(parsed)` of the `int64` that `ParseInt` returns: the value modulo `2^32`. -/
def getOfferCompactionSequence (q : KeyValueStore) : UInt32 × Option Err :=
  readValue q offerCompactionSequence false (0, none) (parseInt · 32)
    "Error converting sequence value" (fun parsed ↦ UInt32.ofNat (parsed % 2 ^ 32).toNat) 0

def updateOfferCompactionSequence (q : KeyValueStore) (sequence : UInt32) : KeyValueStore :=
  updateValueInStore q offerCompactionSequence (formatUint sequence.toNat)

section ReadValue

variable {α β : Type} (q : KeyValueStore) (key : String) (forUpdate : Bool)
  (empty : α × Option Err) (parse : String → β × Option NumError) (msg : String)
  (convert : β → α) (zero : α)

/-- A reader after a write of its key sees the written value, whatever the store held. -/
theorem readValue_update (value : String) (hne : value ≠ "") :
    readValue (updateValueInStore q key value) key forUpdate empty parse msg convert zero =
      match parse value with
      | (_, some e) => (zero, some (.wrap (.numError e) msg))
      | (v, none) => (convert v, none) := by
  simp [readValue, getValueFromStore, updateValueInStore, hne]

/-- A write of another key leaves a reader's answer alone. -/
theorem readValue_update_of_ne (key' value : String) (hk : key' ≠ key) :
    readValue (updateValueInStore q key' value) key forUpdate empty parse msg convert zero =
      readValue q key forUpdate empty parse msg convert zero := by
  simp [readValue, getValueFromStore, updateValueInStore, Function.update_noteq hk.symm]

end ReadValue

theorem uint32_ofNat_toNat (x : UInt32) : UInt32.ofNat x.toNat = x :=
  UInt32.toNat.inj (UInt32.toNat_ofNat_of_lt x.toNat_lt_size)

theorem lastLedger_round_trip (q : KeyValueStore) (ledgerSequence : UInt32) :
    getLastLedgerExpIngest (updateLastLedgerExpIngest q ledgerSequence) = (ledgerSequence, none) ∧
      getLastLedgerExpIngestNonBlocking (updateLastLedgerExpIngest q ledgerSequence) =
        (ledgerSequence, none) := by
  simp [getLastLedgerExpIngest, getLastLedgerExpIngestNonBlocking, updateLastLedgerExpIngest,
    readValue_update _ _ _ _ _ _ _ _ _ (formatUint_ne_empty _),
    parseUint_formatUint _ 32 (by decide), ledgerSequence.toNat_lt_size, uint32_ofNat_toNat]

theorem expIngestVersion_round_trip (q : KeyValueStore) {version : Int} (h0 : 0 ≤ version)
    (h1 : version ≤ 2 ^ 31 - 1) :
    getExpIngestVersion (updateExpIngestVersion q version) = (version, none) := by
  have hmod : (version % 2 ^ 64).toNat = version.toNat := by
    rw [Int.emod_eq_of_lt h0 (by omega)]
  have hlt : version.toNat < 2 ^ (32 - 1) := by omega
  simp only [getExpIngestVersion, updateExpIngestVersion,
    readValue_update _ _ _ _ _ _ _ _ _ (formatUint_ne_empty _),
    parseInt_formatUint _ 32 (by decide) (by decide), hmod, if_pos hlt, Int.toNat_of_nonneg h0, id]

/-- The offer compaction sequence reads back below `2^31` and as a wrapped range error of
`ParseInt` from there on. -/
theorem offerCompactionSequence_read_back (q : KeyValueStore) (sequence : UInt32) :
    getOfferCompactionSequence (updateOfferCompactionSequence q sequence) =
      if sequence.toNat < 2 ^ 31 then (sequence, none)
      else (0, some (.wrap (.numError ⟨"ParseInt", formatUint sequence.toNat, .range⟩)
        "Error converting sequence value")) := by
  simp only [getOfferCompactionSequence, updateOfferCompactionSequence,
    readValue_update _ _ _ _ _ _ _ _ _ (formatUint_ne_empty _),
    parseInt_formatUint _ 32 (by decide) (by decide)]
  by_cases h : sequence.toNat < 2 ^ 31
  · have hmod : ((sequence.toNat : Int) % 2 ^ 32).toNat = sequence.toNat := by
      rw [Int.emod_eq_of_lt (Int.ofNat_nonneg _) (by omega)]
      rfl
    rw [if_pos (h : sequence.toNat < 2 ^ (32 - 1)), if_pos h]
    simp only [hmod, uint32_ofNat_toNat]
  · rw [if_neg (h : ¬ sequence.toNat < 2 ^ (32 - 1)), if_neg h]

/-- The cursor writers and readers of `history.Q` over every store: the last ingested ledger
reads back for every `uint32`, the ingest version for every `int` from 0 to `2^31 - 1`, and
the offer compaction sequence only below `2^31`; from there on `GetOfferCompactionSequence`
fails, first at `2^31`. -/
theorem cursor_keys_read_back :
    (∀ (q : KeyValueStore) (ledgerSequence : UInt32),
      getLastLedgerExpIngest (updateLastLedgerExpIngest q ledgerSequence) = (ledgerSequence, none) ∧
        getLastLedgerExpIngestNonBlocking (updateLastLedgerExpIngest q ledgerSequence) =
          (ledgerSequence, none)) ∧
    (∀ (q : KeyValueStore) (version : Int), 0 ≤ version → version ≤ 2 ^ 31 - 1 →
      getExpIngestVersion (updateExpIngestVersion q version) = (version, none)) ∧
    (∀ (q : KeyValueStore) (sequence : UInt32),
      getOfferCompactionSequence (updateOfferCompactionSequence q sequence) =
        if sequence.toNat < 2 ^ 31 then (sequence, none)
        else (0, some (.wrap (.numError ⟨"ParseInt", formatUint sequence.toNat, .range⟩)
          "Error converting sequence value"))) ∧
    getOfferCompactionSequence (updateOfferCompactionSequence (fun _ ↦ none) 2147483648) =
      (0, some (.wrap (.numError ⟨"ParseInt", "2147483648", .range⟩)
        "Error converting sequence value")) :=
  ⟨lastLedger_round_trip, fun q _ h0 h1 ↦ expIngestVersion_round_trip q h0 h1,
    offerCompactionSequence_read_back, by rw [offerCompactionSequence_read_back]; rfl⟩

end AuroraIngest.Ingest.Store
