import AuroraIngest.Ingest.ChangeCache

/-!
# The history tables

The sink's tables and queries (`history.Q`) are not among the sources; they are modelled
from the spec. A table holds at most one row per key. A batch insert builder inserts its
rows when it is executed, and an insert of a key that already holds a row fails: the state
processors insert, they do not upsert. An update and a removal report how many rows they
touched. `RemoveOffer` marks an offer's row deleted, stamped with a ledger, and
`CompactOffers` deletes such rows and only those; a claimable balance's removal deletes its
row. Each table counts, as a ghost, the row operations on each key.
-/

namespace AuroraIngest.Ingest.History

open AuroraIngest.Ingest.ChangeCache

/-- The processors' errors: `errors.New` and `Errorf`, `errors.Wrap` and `NewStateError`;
and, modelled from the spec, the database's refusal of a second row for a key, the change
cache's rejection of a change, and a Go nil-pointer panic. -/
inductive Err where
  | new (msg : String)
  | wrap (cause : Err) (msg : String)
  | stateError (cause : Err)
  | uniqueViolation
  | cacheRejected
  | nilPointerPanic
  deriving DecidableEq, Repr

/-- Modelled from the spec: a table keyed by `K`, with at most one row per key, and a ghost
count of the row operations on each key. -/
structure Table (K R : Type) where
  rows : K → Option R
  writes : K → Nat

variable {K R : Type} [DecidableEq K]

/-- An operation on the row of `k`, which leaves `row` there. -/
def Table.write (t : Table K R) (k : K) (row : Option R) : Table K R :=
  ⟨Function.update t.rows k row, Function.update t.writes k (t.writes k + 1)⟩

@[simp] theorem Table.write_rows (t : Table K R) (k : K) (row : Option R) :
    (t.write k row).rows = Function.update t.rows k row := rfl

@[simp] theorem Table.write_writes (t : Table K R) (k : K) (row : Option R) :
    (t.write k row).writes = Function.update t.writes k (t.writes k + 1) := rfl

/-- An `INSERT` of a row with key `k`: the key must hold no row. -/
def Table.insertRow (t : Table K R) (k : K) (r : R) : Except Err (Table K R) :=
  if (t.rows k).isNone then .ok (t.write k (some r)) else .error .uniqueViolation

/-- An `UPDATE` of the row with key `k`, and the number of rows it touched. -/
def Table.updateRow (t : Table K R) (k : K) (r : R) : Int × Table K R :=
  match t.rows k with
  | some _ => (1, t.write k (some r))
  | none => (0, t.write k none)

/-- A removal of the row with key `k`, which `retire` turns into what stays of it, and the
number of rows it touched. -/
def Table.removeRow (t : Table K R) (k : K) (retire : R → Option R) : Int × Table K R :=
  match t.rows k with
  | some r => (1, t.write k (retire r))
  | none => (0, t.write k none)

theorem Table.updateRow_of_some {t : Table K R} {k : K} {r₀ : R} (h : t.rows k = some r₀)
    (r : R) : t.updateRow k r = (1, t.write k (some r)) := by
  simp [Table.updateRow, h]

theorem Table.removeRow_of_some {t : Table K R} {k : K} {r₀ : R} (h : t.rows k = some r₀)
    (retire : R → Option R) : t.removeRow k retire = (1, t.write k (retire r₀)) := by
  simp [Table.removeRow, h]

/-- Writing rows one after another, each under its key. -/
def Table.writeAll (rowKey : R → K) (t : Table K R) : List R → Table K R
  | [] => t
  | r :: rs => (t.write (rowKey r) (some r)).writeAll rowKey rs

/-- `Exec()` of a batch insert builder: its rows are inserted in order. -/
def execBatch (rowKey : R → K) (t : Table K R) : List R → Except Err (Table K R)
  | [] => .ok t
  | r :: rs =>
    match t.insertRow (rowKey r) r with
    | .error e => .error e
    | .ok t => execBatch rowKey t rs

section Batch

variable {rowKey : R → K}

/-- A batch of rows with distinct keys, none of which holds a row, is inserted whole. -/
theorem execBatch_eq_ok : ∀ {t : Table K R} {rs : List R}, (rs.map rowKey).Nodup →
    (∀ r ∈ rs, t.rows (rowKey r) = none) → execBatch rowKey t rs = .ok (t.writeAll rowKey rs)
  | _, [], _, _ => rfl
  | t, r :: rs, hnd, hfree => by
    rw [List.map_cons, List.nodup_cons] at hnd
    have hins : t.insertRow (rowKey r) r = .ok (t.write (rowKey r) (some r)) := by
      simp [Table.insertRow, hfree r (List.mem_cons_self r rs)]
    rw [execBatch, hins]
    refine execBatch_eq_ok hnd.2 fun r' hr' ↦ ?_
    have hne : rowKey r' ≠ rowKey r := fun h ↦ hnd.1 (h ▸ List.mem_map_of_mem rowKey hr')
    simp [hne, hfree r' (List.mem_cons_of_mem r hr')]

/-- Two tables with one row at a key still have one row there after the same writes. -/
theorem writeAll_rows_congr {t u : Table K R} {k : K} (h : t.rows k = u.rows k) :
    ∀ rs : List R, (t.writeAll rowKey rs).rows k = (u.writeAll rowKey rs).rows k
  | [] => h
  | r :: rs => by
    refine writeAll_rows_congr ?_ rs
    by_cases hk : k = rowKey r
    · subst hk
      simp
    · simp [hk, h]

theorem writeAll_rows_of_not_mem {t : Table K R} {k : K} :
    ∀ {rs : List R}, k ∉ rs.map rowKey → (t.writeAll rowKey rs).rows k = t.rows k
  | [], _ => rfl
  | r :: rs, hk => by
    rw [List.map_cons, List.mem_cons, not_or] at hk
    rw [Table.writeAll, writeAll_rows_of_not_mem hk.2]
    simp [hk.1]

theorem writeAll_append (t : Table K R) (r : R) :
    ∀ rs : List R, t.writeAll rowKey (rs ++ [r]) = (t.writeAll rowKey rs).write (rowKey r) (some r)
  | [] => rfl
  | _ :: rs => writeAll_append _ r rs

theorem writeAll_writes (t : Table K R) (k : K) :
    ∀ rs : List R, (t.writeAll rowKey rs).writes k = t.writes k + (rs.map rowKey).count k
  | [] => rfl
  | r :: rs => by
    rw [Table.writeAll, writeAll_writes _ k rs, List.map_cons, List.count_cons]
    by_cases hk : k = rowKey r
    · subst hk
      simp
      omega
    · simp [hk, Ne.symm hk]

end Batch

/-- `history.Offer`: a row of the `offers` table; `body` is the columns the offer's entry
gives. -/
structure Offer where
  offerId : Int
  body : Nat
  lastModifiedLedger : UInt32
  deleted : Bool
  deriving DecidableEq, Repr

/-- Modelled from the spec: `RemoveOffer(offerID, lastModifiedLedger)` marks the row deleted,
stamped with the ledger. -/
def removeOffer (t : Table Int Offer) (offerID : Int) (lastModifiedLedger : UInt32) :
    Int × Table Int Offer :=
  t.removeRow offerID fun r ↦ some { r with deleted := true, lastModifiedLedger }

/-- Modelled from the spec: `UpdateOffer(row)`. -/
def updateOffer (t : Table Int Offer) (row : Offer) : Int × Table Int Offer :=
  t.updateRow row.offerId row

/-- Modelled from the spec: `CompactOffers(cutOffSequence)` deletes the rows marked deleted
before the cutoff, and no other. -/
def compactOffers (t : Table Int Offer) (cutOffSequence : UInt32) : Table Int Offer :=
  { t with
    rows := fun k ↦
      (t.rows k).filter fun r ↦ !(r.deleted && r.lastModifiedLedger < cutOffSequence) }

/-- Compaction keeps every row that is not marked deleted. -/
theorem compactOffers_live (t : Table Int Offer) (cutOffSequence : UInt32) (k : Int) :
    ((compactOffers t cutOffSequence).rows k).filter (fun r ↦ !r.deleted) =
      (t.rows k).filter fun r ↦ !r.deleted := by
  cases h : t.rows k with
  | none => simp [compactOffers, h]
  | some r =>
    cases hd : r.deleted <;> simp only [compactOffers, h, hd, Option.filter] <;> split <;> simp_all

/-- Modelled from the spec: `RemoveClaimableBalance(cBalance)` deletes the balance's row. -/
def removeClaimableBalance (t : Table String ClaimableBalanceEntry)
    (cBalance : ClaimableBalanceEntry) : Int × Table String ClaimableBalanceEntry :=
  t.removeRow cBalance.balanceId fun _ ↦ none

/-- Modelled from the spec: `UpdateClaimableBalance(entry)`. -/
def updateClaimableBalance (t : Table String ClaimableBalanceEntry)
    (entry : ClaimableBalanceEntry) : Int × Table String ClaimableBalanceEntry :=
  t.updateRow entry.balanceId entry

end AuroraIngest.Ingest.History
