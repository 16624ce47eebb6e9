import AuroraIngest.Ingest.History

/-!
# The offers and claimable-balances processors

`OffersProcessor` and `ClaimableBalancesProcessor` fold the changes of their type into a
change cache, flush it whenever it holds more than `maxBatchSize` keys, and flush what is
left on `Commit`. Both flush with the same loop over the cache's changes: a creation goes to
a batch insert builder, executed at the end; a removal and an update run at once and must
touch one row, or the processor returns a state error. They differ in what they write: the
offers processor writes `history.Offer` rows, removes them with `RemoveOffer` stamped with
its ledger sequence, and compacts the table on `Commit`; the claimable-balances processor
writes the entries themselves and deletes them.
-/

namespace AuroraIngest.Ingest.Processors

open AuroraIngest.Ingest.ChangeCache AuroraIngest.Ingest.History

/-- `maxBatchSize`: the cache size past which `ProcessChange` flushes. -/
def maxBatchSize : Nat := 100000

/-- How a state processor writes entries to its table: an entry's key and row, the queries
it removes and updates with, how its state errors name an entry, and what a removal leaves
of a row (`keeps` says whether anything is left). Rows that `row` gives are live; what a
removal leaves is not. -/
structure RowWriter (K E R : Type) [DecidableEq K] where
  key : E → K
  row : E → R
  rowKey : R → K
  remove : Table K R → E → Int × Table K R
  update : Table K R → E → Int × Table K R
  describe : E → String
  retire : R → Option R
  live : R → Bool
  keeps : Bool
  rowKey_row : ∀ e, rowKey (row e) = key e
  row_injective : Function.Injective row
  remove_eq : ∀ t e, remove t e = t.removeRow (key e) retire
  update_eq : ∀ t e, update t e = t.updateRow (key e) (row e)
  live_row : ∀ e, live (row e) = true
  live_retire : ∀ r r', retire r = some r' → live r' = false
  retire_isSome : ∀ r, (retire r).isSome = keeps

/-- `ingesterrors.NewStateError(errors.Errorf("%d rows affected when %s …", …))`. -/
def stateError (rowsAffected : Int) (action what : String) : Err :=
  .stateError (.new s!"{rowsAffected} rows affected when {action} {what}")

variable {K E R : Type} [DecidableEq K]

/-- The loop of `flushCache` (offers) and of `Commit` (claimable balances) over the cache's
changes, then `batch.Exec()`. A creation is added to the batch; a removal and an update run
at once and must touch one row; a change from nothing to nothing dereferences a nil `Post`. -/
def flushChanges (w : RowWriter K E R) (t : Table K R) (batch : List R) :
    List (Change E) → Except Err (Table K R)
  | [] =>
    match execBatch w.rowKey t batch with
    | .error e => .error (.wrap e "error executing batch")
    | .ok t => .ok t
  | change :: changes =>
    match change.pre, change.post with
    | none, some post => flushChanges w t (batch ++ [w.row post]) changes
    | some pre, none =>
      match w.remove t pre with
      | (rowsAffected, t) =>
        if rowsAffected ≠ 1 then .error (stateError rowsAffected "removing" (w.describe pre))
        else flushChanges w t batch changes
    | some _, some post =>
      match w.update t post with
      | (rowsAffected, t) =>
        if rowsAffected ≠ 1 then .error (stateError rowsAffected "updating" (w.describe post))
        else flushChanges w t batch changes
    | none, none => .error .nilPointerPanic

/-- What `ProcessChange` keeps: the cache of the current batch and, as ghosts, the changes of
the batches flushed so far and of the current one. -/
structure Batcher (K E : Type) where
  cache : LedgerEntryChangeCache K E
  flushed : List (List (Change E))
  current : List (Change E)

/-- The part of `ProcessChange` both processors share, after the type check: add the change
to the cache, and once the cache holds more than `maxBatchSize` keys, flush it and reset. -/
def Batcher.process [DecidableEq E] (b : Batcher K E) (key : E → K)
    (flush : LedgerEntryChangeCache K E → Table K R → Except Err (Table K R)) (t : Table K R)
    (change : Change E) : Except Err (Batcher K E × Table K R) :=
  match b.cache.addChange key change with
  | none => .error (.wrap .cacheRejected "error adding to ledgerCache")
  | some cache =>
    if cache.size > maxBatchSize then
      match flush cache t with
      | .error e => .error (.wrap e "error in Commit")
      | .ok t => .ok (⟨newLedgerEntryChangeCache, b.flushed ++ [b.current ++ [change]], []⟩, t)
    else .ok (⟨cache, b.flushed, b.current ++ [change]⟩, t)

/-- Feeding changes to a processor's `ProcessChange`, one after another. -/
def processChanges {P T C : Type} (processChange : P → T → C → Except Err (P × T)) (p : P)
    (t : T) : List C → Except Err (P × T)
  | [] => .ok (p, t)
  | c :: cs =>
    match processChange p t c with
    | .error e => .error e
    | .ok (p, t) => processChanges processChange p t cs

/-- `offerCompactionWindow`. -/
def offerCompactionWindow : UInt32 := 100

/-- `OffersProcessor`: its change cache and the ledger it processes. -/
structure OffersProcessor extends Batcher Int OfferEntry where
  sequence : UInt32

/-- `NewOffersProcessor(offersQ, sequence)`. -/
def newOffersProcessor (sequence : UInt32) : OffersProcessor :=
  { cache := newLedgerEntryChangeCache, flushed := [], current := [], sequence }

/-- `ledgerEntryToRow`. -/
def ledgerEntryToRow (entry : OfferEntry) : Offer :=
  ⟨entry.offerId, entry.body, entry.lastModifiedLedgerSeq, false⟩

theorem ledgerEntryToRow_injective : Function.Injective ledgerEntryToRow := by
  rintro ⟨_, _, _⟩ ⟨_, _, _⟩ h
  simp only [ledgerEntryToRow, Offer.mk.injEq, and_true] at h
  obtain ⟨rfl, rfl, rfl⟩ := h
  rfl

/-- How the offers processor writes: `history.Offer` rows, removed by `RemoveOffer` with its
sequence. -/
def offerWriter (sequence : UInt32) : RowWriter Int OfferEntry Offer where
  key := OfferEntry.offerId
  row := ledgerEntryToRow
  rowKey := Offer.offerId
  remove t offer := removeOffer t offer.offerId sequence
  update t offer := updateOffer t (ledgerEntryToRow offer)
  describe offer := let offerID := offer.offerId; s!"offer {offerID}"
  retire r := some { r with deleted := true, lastModifiedLedger := sequence }
  live r := !r.deleted
  keeps := true
  rowKey_row _ := rfl
  row_injective := ledgerEntryToRow_injective
  remove_eq _ _ := rfl
  update_eq _ _ := rfl
  live_row _ := rfl
  live_retire := by
    rintro r r' ⟨⟩
    rfl
  retire_isSome _ := rfl

/-- `flushCache()`. -/
def OffersProcessor.flushCache (p : OffersProcessor) (t : Table Int Offer) :
    Except Err (Table Int Offer) :=
  flushChanges (offerWriter p.sequence) t [] p.cache.getChanges

/-- `ProcessChange(change)`. -/
def OffersProcessor.processChange (p : OffersProcessor) (t : Table Int Offer)
    (change : Change OfferEntry) : Except Err (OffersProcessor × Table Int Offer) :=
  if change.type ≠ .offer then .ok (p, t)
  else
    match p.toBatcher.process OfferEntry.offerId
        (fun cache t ↦ ({ p with cache } : OffersProcessor).flushCache t) t change with
    | .error e => .error e
    | .ok (b, t) => .ok ({ p with toBatcher := b }, t)

/-- `Commit()`: flush the cache, then compact the offers removed before the window. -/
def OffersProcessor.commit (p : OffersProcessor) (t : Table Int Offer) :
    Except Err (Table Int Offer) :=
  match p.flushCache t with
  | .error e => .error (.wrap e "error flushing cache")
  | .ok t =>
    .ok (if p.sequence > offerCompactionWindow then
      compactOffers t (p.sequence - offerCompactionWindow) else t)

/-- `ClaimableBalancesProcessor`: its change cache. -/
structure ClaimableBalancesProcessor extends Batcher String ClaimableBalanceEntry

/-- `NewClaimableBalancesProcessor(Q)`. -/
def newClaimableBalancesProcessor : ClaimableBalancesProcessor :=
  ⟨⟨newLedgerEntryChangeCache, [], []⟩⟩

/-- How the claimable-balances processor writes: the entries themselves, deleted on removal;
a state error names the balance by its ledger key. -/
def claimableBalanceWriter : RowWriter String ClaimableBalanceEntry ClaimableBalanceEntry where
  key := ClaimableBalanceEntry.balanceId
  row := id
  rowKey := ClaimableBalanceEntry.balanceId
  remove := removeClaimableBalance
  update := updateClaimableBalance
  describe cBalance :=
    let ledgerKeyString := cBalance.balanceId; s!"claimable balance: {ledgerKeyString}"
  retire _ := none
  live _ := true
  keeps := false
  rowKey_row _ := rfl
  row_injective := Function.injective_id
  remove_eq _ _ := rfl
  update_eq _ _ := rfl
  live_row _ := rfl
  live_retire _ _ h := nomatch h
  retire_isSome _ := rfl

/-- `Commit()`: the loop over the cache's changes with a new batch insert builder. -/
def ClaimableBalancesProcessor.commit (p : ClaimableBalancesProcessor)
    (t : Table String ClaimableBalanceEntry) : Except Err (Table String ClaimableBalanceEntry) :=
  flushChanges claimableBalanceWriter t [] p.cache.getChanges

/-- `ProcessChange(change)`. -/
def ClaimableBalancesProcessor.processChange (p : ClaimableBalancesProcessor)
    (t : Table String ClaimableBalanceEntry) (change : Change ClaimableBalanceEntry) :
    Except Err (ClaimableBalancesProcessor × Table String ClaimableBalanceEntry) :=
  if change.type ≠ .claimableBalance then .ok (p, t)
  else
    match p.toBatcher.process ClaimableBalanceEntry.balanceId
        (fun cache t ↦ ({ p with cache } : ClaimableBalancesProcessor).commit t) t change with
    | .error e => .error e
    | .ok (b, t) => .ok ({ p with toBatcher := b }, t)

end AuroraIngest.Ingest.Processors
