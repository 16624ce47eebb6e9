import AuroraIngest.Ingest.Batching

/-!
# What `Commit` leaves

On a change of its type, each processor's `ProcessChange` is the shared batching step with its
own flush, so the batching law carries over to both: a sequence that applies one at a time
goes through `ProcessChange` and `Commit` without error and leaves its live rows, however the
flushes inside `ProcessChange` split it. The offers processor also compacts on `Commit`, which
deletes only rows marked deleted and keeps the live rows.

Consistency with the live rows alone is not enough for offers. An offer removed in an earlier
ledger keeps its row, marked deleted, until compaction: a creation of it starts from no live
row, yet the batch insert of its new row finds the key taken, and `Commit` fails.
-/

namespace AuroraIngest.Ingest.Commit

open AuroraIngest.Ingest.ChangeCache AuroraIngest.Ingest.History
open AuroraIngest.Ingest.Processors AuroraIngest.Ingest.Batching

section Batcher

variable {K E R P : Type} [DecidableEq K] [DecidableEq E]

/-- A processor built from its batcher by `mk`, whose `ProcessChange` on a change of type `ty`
is the shared step with the flush of `w`, feeds such changes as the batcher does. -/
theorem processChanges_batcher (w : RowWriter K E R) (ty : LedgerEntryType)
    (mk : Batcher K E → P) (processChange : P → Table K R → Change E → Except Err (P × Table K R))
    (hstep : ∀ b t change, change.type = ty → processChange (mk b) t change =
      (b.process w.key (flushWith w) t change).map fun bt ↦ (mk bt.1, bt.2))
    (changes : List (Change E)) (htype : ∀ c ∈ changes, c.type = ty) (b : Batcher K E)
    (t : Table K R) :
    processChanges processChange (mk b) t changes =
      (processChanges (fun b t c ↦ b.process w.key (flushWith w) t c) b t changes).map
        fun bt ↦ (mk bt.1, bt.2) := by
  induction changes generalizing b t with
  | nil => rfl
  | cons change changes ih =>
    rw [processChanges, hstep b t change (htype change (List.mem_cons_self _ _)), processChanges]
    cases b.process w.key (flushWith w) t change with
    | error e => rfl
    | ok bt => exact ih (fun c hc ↦ htype c (List.mem_cons_of_mem _ hc)) bt.1 bt.2

end Batcher

theorem offers_processChange (p : OffersProcessor) (b : Batcher Int OfferEntry)
    (t : Table Int Offer) (change : Change OfferEntry) (h : change.type = .offer) :
    OffersProcessor.processChange { p with toBatcher := b } t change =
      (b.process OfferEntry.offerId (flushWith (offerWriter p.sequence)) t change).map
        fun bt ↦ ({ p with toBatcher := bt.1 }, bt.2) := by
  rw [OffersProcessor.processChange, if_neg (by simp [h])]
  change (match b.process OfferEntry.offerId (flushWith (offerWriter p.sequence)) t change with
    | .error e => Except.error e
    | .ok (b', t') => Except.ok (({ p with toBatcher := b' } : OffersProcessor), t')) = _
  cases b.process OfferEntry.offerId (flushWith (offerWriter p.sequence)) t change <;> rfl

theorem claimableBalances_processChange (b : Batcher String ClaimableBalanceEntry)
    (t : Table String ClaimableBalanceEntry) (change : Change ClaimableBalanceEntry)
    (h : change.type = .claimableBalance) :
    ClaimableBalancesProcessor.processChange ⟨b⟩ t change =
      (b.process ClaimableBalanceEntry.balanceId (flushWith claimableBalanceWriter) t change).map
        fun bt ↦ (⟨bt.1⟩, bt.2) := by
  rw [ClaimableBalancesProcessor.processChange, if_neg (by simp [h])]
  change (match b.process ClaimableBalanceEntry.balanceId (flushWith claimableBalanceWriter) t
      change with
    | .error e => Except.error e
    | .ok (b', t') => Except.ok ((⟨b'⟩ : ClaimableBalancesProcessor), t')) = _
  cases b.process ClaimableBalanceEntry.balanceId (flushWith claimableBalanceWriter) t change <;>
    rfl

theorem offers_commit_eq (p : OffersProcessor) {t t' : Table Int Offer}
    (h : flushWith (offerWriter p.sequence) p.cache t = .ok t') :
    p.commit t = .ok (if p.sequence > offerCompactionWindow then
      compactOffers t' (p.sequence - offerCompactionWindow) else t') := by
  rw [OffersProcessor.commit, show p.flushCache t = .ok t' from h]

theorem liveRow_compactOffers (sequence cutOffSequence : UInt32) (t : Table Int Offer) (k : Int) :
    liveRow (offerWriter sequence) (compactOffers t cutOffSequence) k =
      liveRow (offerWriter sequence) t k :=
  compactOffers_live t cutOffSequence k

theorem liveRow_claimableBalanceWriter (t : Table String ClaimableBalanceEntry) (k : String) :
    liveRow claimableBalanceWriter t k = t.rows k := by
  cases h : t.rows k <;> simp [liveRow, h, Option.filter, claimableBalanceWriter]

/-- Offer changes that apply one at a time go through `ProcessChange` and `Commit`, leave the
live rows they leave, and take at most one row operation on a key per batch that changes it. -/
theorem offers_commit_one_at_a_time (sequence : UInt32) (t₀ T : Table Int Offer)
    (changes : List (Change OfferEntry)) (htype : ∀ c ∈ changes, c.type = .offer)
    (hT : applyChanges (offerWriter sequence) t₀ changes = some T) :
    ∃ (p : OffersProcessor) (t t' : Table Int Offer),
      processChanges OffersProcessor.processChange (newOffersProcessor sequence) t₀ changes =
        .ok (p, t) ∧ p.commit t = .ok t' ∧
      (∀ k, liveRow (offerWriter sequence) t' k = liveRow (offerWriter sequence) T k) ∧
      (p.flushed ++ [p.current]).flatten = changes ∧
      ∀ k, t'.writes k ≤
        t₀.writes k + ((p.flushed ++ [p.current]).filter (touches OfferEntry.offerId k)).length := by
  obtain ⟨b, t, t', hrun, hflush, hlive, hbatches, hwrites⟩ :=
    batched_commit (offerWriter sequence) t₀ T changes hT
  have hfeed := processChanges_batcher (offerWriter sequence) .offer
    (fun b ↦ { newOffersProcessor sequence with toBatcher := b }) OffersProcessor.processChange
    (fun b t c hc ↦ offers_processChange _ b t c hc) changes htype ⟨newLedgerEntryChangeCache, [], []⟩ t₀
  rw [hrun] at hfeed
  refine ⟨{ newOffersProcessor sequence with toBatcher := b }, t, _, hfeed,
    offers_commit_eq _ hflush, fun k ↦ ?_, hbatches, fun k ↦ ?_⟩ <;> split
  · exact (liveRow_compactOffers _ _ _ k).trans (hlive k)
  · exact hlive k
  · exact hwrites k
  · exact hwrites k

/-- Claimable-balance changes that apply one at a time go through `ProcessChange` and `Commit`,
leave the rows they leave, and take at most one row operation on a key per batch that changes
it. -/
theorem claimableBalances_commit_one_at_a_time (t₀ T : Table String ClaimableBalanceEntry)
    (changes : List (Change ClaimableBalanceEntry))
    (htype : ∀ c ∈ changes, c.type = .claimableBalance)
    (hT : applyChanges claimableBalanceWriter t₀ changes = some T) :
    ∃ (p : ClaimableBalancesProcessor) (t t' : Table String ClaimableBalanceEntry),
      processChanges ClaimableBalancesProcessor.processChange newClaimableBalancesProcessor t₀
        changes = .ok (p, t) ∧ p.commit t = .ok t' ∧ t'.rows = T.rows ∧
      (p.flushed ++ [p.current]).flatten = changes ∧
      ∀ k, t'.writes k ≤ t₀.writes k +
        ((p.flushed ++ [p.current]).filter (touches ClaimableBalanceEntry.balanceId k)).length := by
  obtain ⟨b, t, t', hrun, hflush, hlive, hbatches, hwrites⟩ :=
    batched_commit claimableBalanceWriter t₀ T changes hT
  have hfeed := processChanges_batcher claimableBalanceWriter .claimableBalance
    ClaimableBalancesProcessor.mk ClaimableBalancesProcessor.processChange
    claimableBalances_processChange changes htype ⟨newLedgerEntryChangeCache, [], []⟩ t₀
  rw [hrun] at hfeed
  refine ⟨⟨b⟩, t, t', hfeed, hflush, funext fun k ↦ ?_, hbatches, hwrites⟩
  simpa [liveRow_claimableBalanceWriter] using hlive k

/-- For both processors, changes of their type that apply one at a time go through
`ProcessChange` and `Commit` without error, wherever the flushes inside `ProcessChange` fall;
they leave the live rows (all rows, for claimable balances) that applying them one at a time
leaves; and a key takes at most one row operation per batch that changes it. -/
theorem processors_commit_one_at_a_time :
    (∀ (sequence : UInt32) (t₀ T : Table Int Offer) (changes : List (Change OfferEntry)),
      (∀ c ∈ changes, c.type = .offer) →
      applyChanges (offerWriter sequence) t₀ changes = some T →
      ∃ (p : OffersProcessor) (t t' : Table Int Offer),
        processChanges OffersProcessor.processChange (newOffersProcessor sequence) t₀ changes =
          .ok (p, t) ∧ p.commit t = .ok t' ∧
        (∀ k, liveRow (offerWriter sequence) t' k = liveRow (offerWriter sequence) T k) ∧
        (p.flushed ++ [p.current]).flatten = changes ∧
        ∀ k, t'.writes k ≤ t₀.writes k +
          ((p.flushed ++ [p.current]).filter (touches OfferEntry.offerId k)).length) ∧
    (∀ (t₀ T : Table String ClaimableBalanceEntry) (changes : List (Change ClaimableBalanceEntry)),
      (∀ c ∈ changes, c.type = .claimableBalance) →
      applyChanges claimableBalanceWriter t₀ changes = some T →
      ∃ (p : ClaimableBalancesProcessor) (t t' : Table String ClaimableBalanceEntry),
        processChanges ClaimableBalancesProcessor.processChange newClaimableBalancesProcessor t₀
          changes = .ok (p, t) ∧ p.commit t = .ok t' ∧ t'.rows = T.rows ∧
        (p.flushed ++ [p.current]).flatten = changes ∧
        ∀ k, t'.writes k ≤ t₀.writes k +
          ((p.flushed ++ [p.current]).filter (touches ClaimableBalanceEntry.balanceId k)).length) :=
  ⟨offers_commit_one_at_a_time, claimableBalances_commit_one_at_a_time⟩

/-- An empty table. -/
def emptyTable (K R : Type) : Table K R := ⟨fun _ ↦ none, fun _ ↦ 0⟩

/-- Offer 7 is created, updated and removed, and offer 8 created, all at ledger 60. -/
def offerRun : List (Change OfferEntry) :=
  [⟨.offer, none, some ⟨7, 1, 60⟩⟩, ⟨.offer, some ⟨7, 1, 60⟩, some ⟨7, 2, 60⟩⟩,
    ⟨.offer, some ⟨7, 2, 60⟩, none⟩, ⟨.offer, none, some ⟨8, 3, 60⟩⟩]

/-- Claimable balance `b` is created and then claimed. -/
def claimableBalanceRun : List (Change ClaimableBalanceEntry) :=
  [⟨.claimableBalance, none, some ⟨"b", 1, 60⟩⟩, ⟨.claimableBalance, some ⟨"b", 1, 60⟩, none⟩]

/-- The offers table after `offerRun` one at a time: offer 7 marked deleted, offer 8 live. -/
def offerRunTable : Table Int Offer :=
  ((((emptyTable _ _).write 7 (some ⟨7, 1, 60, false⟩)).write 7 (some ⟨7, 2, 60, false⟩)).write
    7 (some ⟨7, 2, 60, true⟩)).write 8 (some ⟨8, 3, 60, false⟩)

/-- The claimable balances table after `claimableBalanceRun` one at a time. -/
def claimableBalanceRunTable : Table String ClaimableBalanceEntry :=
  ((emptyTable _ _).write "b" (some ⟨"b", 1, 60⟩)).write "b" none

theorem processors_commit_small_run :
    ((∀ c ∈ offerRun, c.type = .offer) ∧
      applyChanges (offerWriter 60) (emptyTable _ _) offerRun = some offerRunTable) ∧
    ((∀ c ∈ claimableBalanceRun, c.type = .claimableBalance) ∧
      applyChanges claimableBalanceWriter (emptyTable _ _) claimableBalanceRun =
        some claimableBalanceRunTable) ∧
    (∃ (p : OffersProcessor) (t t' : Table Int Offer),
      processChanges OffersProcessor.processChange (newOffersProcessor 60) (emptyTable _ _)
        offerRun = .ok (p, t) ∧ p.commit t = .ok t' ∧
      (∀ k, liveRow (offerWriter 60) t' k = liveRow (offerWriter 60) offerRunTable k) ∧
      (p.flushed ++ [p.current]).flatten = offerRun ∧
      ∀ k, t'.writes k ≤ (emptyTable Int Offer).writes k +
        ((p.flushed ++ [p.current]).filter (touches OfferEntry.offerId k)).length) ∧
    ∃ (p : ClaimableBalancesProcessor) (t t' : Table String ClaimableBalanceEntry),
      processChanges ClaimableBalancesProcessor.processChange newClaimableBalancesProcessor
        (emptyTable _ _) claimableBalanceRun = .ok (p, t) ∧ p.commit t = .ok t' ∧
      t'.rows = claimableBalanceRunTable.rows ∧
      (p.flushed ++ [p.current]).flatten = claimableBalanceRun ∧
      ∀ k, t'.writes k ≤ (emptyTable String ClaimableBalanceEntry).writes k +
        ((p.flushed ++ [p.current]).filter (touches ClaimableBalanceEntry.balanceId k)).length :=
  have hoffers : (∀ c ∈ offerRun, c.type = .offer) ∧
      applyChanges (offerWriter 60) (emptyTable _ _) offerRun = some offerRunTable :=
    ⟨by decide, rfl⟩
  have hclaims : (∀ c ∈ claimableBalanceRun, c.type = .claimableBalance) ∧
      applyChanges claimableBalanceWriter (emptyTable _ _) claimableBalanceRun =
        some claimableBalanceRunTable :=
    ⟨by decide, rfl⟩
  ⟨hoffers, hclaims,
    processors_commit_one_at_a_time.1 60 _ _ offerRun hoffers.1 hoffers.2,
    processors_commit_one_at_a_time.2 _ _ claimableBalanceRun hclaims.1 hclaims.2⟩

/-- Offer 7 was removed at ledger 50; its row is still there, marked deleted. -/
def softDeletedOffers : Table Int Offer := (emptyTable _ _).write 7 (some ⟨7, 1, 50, true⟩)

/-- Offer 7 is created again at ledger 61. -/
def recreateOffer : Change OfferEntry := ⟨.offer, none, some ⟨7, 2, 61⟩⟩

/-- The creation starts from no live row, as consistency with the live rows asks, and
`ProcessChange` takes it; but `Commit` fails on the batch insert, as an insert one at a time
would. -/
theorem offers_recreate_soft_deleted :
    liveRow (offerWriter 61) softDeletedOffers 7 = none ∧
    (∃ p, processChanges OffersProcessor.processChange (newOffersProcessor 61) softDeletedOffers
        [recreateOffer] = .ok (p, softDeletedOffers) ∧
      p.commit softDeletedOffers =
        .error (.wrap (.wrap .uniqueViolation "error executing batch") "error flushing cache")) ∧
    applyChanges (offerWriter 61) softDeletedOffers [recreateOffer] = none :=
  ⟨rfl, ⟨_, rfl, rfl⟩, rfl⟩

end AuroraIngest.Ingest.Commit
