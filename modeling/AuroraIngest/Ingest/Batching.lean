import AuroraIngest.Ingest.Processors

/-!
# Batching is invisible

Applying changes one at a time: each change's `pre` is the live row of its key, a creation
inserts a row for a key that holds none, an update updates the row and a removal removes it
with the processor's own query. Over a sequence that can be applied so, feeding it to a
processor that folds it into a cache, flushes whenever the cache is full and flushes the rest
at the end leaves the same live rows, wherever the flushes fall. `Batched` ties the
processor's cache and table to the one-at-a-time tables at the start of the current batch and
now; every change and every flush keeps it. A flush writes each key of its cache once, so a
key takes at most one row operation per batch that changes it.
-/

namespace AuroraIngest.Ingest.Batching

open AuroraIngest.Ingest.ChangeCache AuroraIngest.Ingest.History AuroraIngest.Ingest.Processors

variable {K E R : Type} [DecidableEq K]

/-- The live row of a key: its row, unless a removal left it. -/
def liveRow (w : RowWriter K E R) (t : Table K R) (k : K) : Option R := (t.rows k).filter w.live

/-- The row of a key that held `old` after `change`: the row of `post`, or, after a removal,
what the removal keeps of `old`. -/
def netRow (w : RowWriter K E R) (old : Option R) (change : Change E) : Option R :=
  match change.post with
  | some post => some (w.row post)
  | none => old.bind w.retire

/-- After a change, a key's live row is the row of its `post`. -/
theorem netRow_filter_live (w : RowWriter K E R) (old : Option R) (change : Change E) :
    (netRow w old change).filter w.live = change.post.map w.row := by
  unfold netRow
  cases change.post with
  | some post => simp [Option.filter, w.live_row]
  | none =>
    cases hr : old.bind w.retire with
    | none => rfl
    | some r' =>
      obtain ⟨r, -, hr'⟩ := Option.bind_eq_some.mp hr
      simp [Option.filter, w.live_retire r r' hr']

theorem netRow_isSome (w : RowWriter K E R) (r : R) {change : Change E} (h : change.post = none) :
    (netRow w (some r) change).isSome = w.keeps := by
  simp [netRow, h, w.retire_isSome]

theorem rows_of_liveRow {w : RowWriter K E R} {t : Table K R} {k : K} {r : R}
    (h : liveRow w t k = some r) : t.rows k = some r :=
  Option.mem_def.mp (Option.filter_eq_some.mp h).1

theorem pre_eq_none_of_rows {w : RowWriter K E R} {t : Table K R} {k : K} {change : Change E}
    (h : liveRow w t k = change.pre.map w.row) (hk : t.rows k = none) : change.pre = none := by
  simpa [liveRow, hk, eq_comm] using h

section Flush

variable (w : RowWriter K E R) (net : K → Option (Change E))

/-- A net change the flush can write to `t`: it has the key `k`, is not from nothing to
nothing, its `post` has the key, and it is a creation just when the key holds no row. -/
def Flushable (t : Table K R) (k : K) (n : Change E) : Prop :=
  n.ledgerKey w.key = some k ∧ ¬ (n.pre = none ∧ n.post = none) ∧
    (∀ post, n.post = some post → w.key post = k) ∧ (n.pre = none ↔ t.rows k = none)

/-- What a flush of the keys `ks` leaves, from `t` with `batch` pending: each key of `ks` at its
net row, every other key as the batch insert leaves it, and one more row operation on each key
of `ks`. -/
def Flushed (ks : List K) (t : Table K R) (batch : List R) (t' : Table K R) : Prop :=
  ∀ j, t'.rows j = (if j ∈ ks then (net j).bind (netRow w (t.rows j))
      else (t.writeAll w.rowKey batch).rows j) ∧
    t'.writes j = (t.writeAll w.rowKey batch).writes j + if j ∈ ks then 1 else 0

variable {w net}

/-- A creation goes to the batch. -/
theorem flushed_of_insert {ks : List K} {k : K} {t t' : Table K R} {batch : List R}
    {n : Change E} {post : E} (hk : k ∉ ks) (hn : net k = some n) (hpost : n.post = some post)
    (hkey : w.key post = k) (h : Flushed w net ks t (batch ++ [w.row post]) t') :
    Flushed w net (k :: ks) t batch t' := by
  intro j
  obtain ⟨hrows, hwrites⟩ := h j
  rw [writeAll_append, w.rowKey_row, hkey] at hrows hwrites
  by_cases hj : j = k
  · subst hj
    simp [hrows, hwrites, hk, hn, netRow, hpost]
  · simp [hrows, hwrites, hj]

/-- A removal or an update writes its key at once. -/
theorem flushed_of_write {ks : List K} {k : K} {t t' : Table K R} {batch : List R}
    {n : Change E} (hk : k ∉ ks) (hb : k ∉ batch.map w.rowKey) (hn : net k = some n)
    (h : Flushed w net ks (t.write k (netRow w (t.rows k) n)) batch t') :
    Flushed w net (k :: ks) t batch t' := by
  intro j
  obtain ⟨hrows, hwrites⟩ := h j
  rw [writeAll_writes] at hwrites
  rw [writeAll_writes]
  by_cases hj : j = k
  · subst hj
    rw [writeAll_rows_of_not_mem hb] at hrows
    simp [hrows, hwrites, hk, hn]
    omega
  · have hrow : (t.write k (netRow w (t.rows k) n)).rows j = t.rows j := by simp [hj]
    rw [writeAll_rows_congr hrow] at hrows
    simp [hrows, hwrites, hj, hrow]

/-- The flush loop over the net changes of distinct keys, each writable, after a batch of rows
under other keys that hold none, succeeds and leaves `Flushed`. -/
theorem flushChanges_ok : ∀ (ks : List K) (t : Table K R) (batch : List R), ks.Nodup →
    (∀ k ∈ ks, ∃ n, net k = some n ∧ Flushable w t k n) → (batch.map w.rowKey).Nodup →
    (∀ r ∈ batch, t.rows (w.rowKey r) = none ∧ w.rowKey r ∉ ks) →
    ∃ t', flushChanges w t batch (ks.filterMap net) = .ok t' ∧ Flushed w net ks t batch t'
  | [], t, batch, _, _, hnd, hfree => by
    refine ⟨t.writeAll w.rowKey batch, ?_, fun j ↦ by simp⟩
    simp [flushChanges, execBatch_eq_ok hnd fun r hr ↦ (hfree r hr).1]
  | k :: ks, t, batch, hks, hnet, hnd, hfree => by
    obtain ⟨n, hn, hkey, hnn, hpost, hpre⟩ := hnet k (List.mem_cons_self k ks)
    rw [List.nodup_cons] at hks
    have hnet' : ∀ j ∈ ks, ∃ n, net j = some n ∧ Flushable w t j n :=
      fun j hj ↦ hnet j (List.mem_cons_of_mem k hj)
    have hb : k ∉ batch.map w.rowKey := fun hm ↦ by
      obtain ⟨r, hr, rfl⟩ := List.mem_map.mp hm
      exact (hfree r hr).2 (List.mem_cons_self _ ks)
    rw [List.filterMap_cons_some hn]
    cases hp : n.pre with
    | none =>
      cases hq : n.post with
      | none => exact absurd ⟨hp, hq⟩ hnn
      | some post =>
        have hk : w.key post = k := hpost post hq
        have hfree' : ∀ r ∈ batch ++ [w.row post], t.rows (w.rowKey r) = none ∧ w.rowKey r ∉ ks := by
          simp only [List.mem_append, List.mem_singleton]
          rintro r (hr | rfl)
          · exact ⟨(hfree r hr).1, fun hm ↦ (hfree r hr).2 (List.mem_cons_of_mem k hm)⟩
          · rw [w.rowKey_row, hk]
            exact ⟨hpre.mp hp, hks.1⟩
        have hnd' : ((batch ++ [w.row post]).map w.rowKey).Nodup := by
          simpa [w.rowKey_row, hk, List.nodup_append] using ⟨hnd, fun r hr h ↦ hb (h ▸ List.mem_map_of_mem _ hr)⟩
        obtain ⟨t', ht', hfl⟩ := flushChanges_ok ks t _ hks.2 hnet' hnd' hfree'
        exact ⟨t', by simpa [flushChanges, hp, hq] using ht', flushed_of_insert hks.1 hn hq hk hfl⟩
    | some pre =>
      obtain ⟨r, hr⟩ := Option.ne_none_iff_exists'.mp fun h ↦ nomatch hpre.mpr h ▸ hp
      have hkp : w.key pre = k := by simpa [Change.ledgerKey, hp] using hkey
      have hnet₁ : ∀ j ∈ ks, ∃ m, net j = some m ∧
          Flushable w (t.write k (netRow w (t.rows k) n)) j m := fun j hj ↦ by
        obtain ⟨m, hm, hfl⟩ := hnet' j hj
        have hjk : j ≠ k := fun h ↦ hks.1 (h ▸ hj)
        exact ⟨m, hm, by simpa [Flushable, hjk] using hfl⟩
      have hfree₁ : ∀ r ∈ batch, (t.write k (netRow w (t.rows k) n)).rows (w.rowKey r) = none ∧
          w.rowKey r ∉ ks := fun r' hr' ↦ by
        have hne : w.rowKey r' ≠ k := fun h ↦ hb (h ▸ List.mem_map_of_mem _ hr')
        simpa [hne] using hfree r' hr'
      obtain ⟨t', ht', hfl⟩ := flushChanges_ok ks _ batch hks.2 hnet₁ hnd hfree₁
      refine ⟨t', ?_, flushed_of_write hks.1 hb hn hfl⟩
      cases hq : n.post with
      | none =>
        simpa [flushChanges, hp, hq, w.remove_eq, hkp, Table.removeRow_of_some hr, netRow, hr]
          using ht'
      | some post =>
        simpa [flushChanges, hp, hq, w.update_eq, hpost post hq, Table.updateRow_of_some hr,
          netRow] using ht'

end Flush

/-- A batch changes the key `k`. -/
def touches (key : E → K) (k : K) (batch : List (Change E)) : Bool :=
  batch.any fun change ↦ change.ledgerKey key = some k

/-- `flushCache()` of a cache: the flush loop over its changes with a new batch. -/
def flushWith (w : RowWriter K E R) (cache : LedgerEntryChangeCache K E) (t : Table K R) :
    Except Err (Table K R) :=
  flushChanges w t [] cache.getChanges

section Batch

variable {w : RowWriter K E R} {b : Batcher K E} {t₀ t T₀ T : Table K R}
  {done : List (Change E)}

/-- A processor that was fed `done`, split into its batches, from the table `t₀` is where
applying `done` one at a time would be: `T` is the one-at-a-time table, `T₀` the one when the
current batch began, and `t` the processor's. The cache holds the changes from `T₀` to `T`;
its creations and the keys it left alone or dropped hold no row at `T₀` when they hold none
at `T`; its removals keep a row at `T` just when removals keep rows; the processor's table
has the live rows of `T₀` and no row where `T₀` has none; and each key took at most one row
operation per flushed batch that changes it. -/
structure Batched (w : RowWriter K E R) (b : Batcher K E) (t₀ t T₀ T : Table K R)
    (done : List (Change E)) : Prop where
  holds : Holds w.key w.row b.cache (liveRow w T₀) (liveRow w T)
  fresh : ∀ k n, b.cache.net k = some n → n.pre = none → T₀.rows k = none
  gone : ∀ k, b.cache.net k = none → T.rows k = none → T₀.rows k = none
  removed : ∀ k n, b.cache.net k = some n → n.post = none → (T.rows k).isSome = w.keeps
  live : ∀ k, liveRow w t k = liveRow w T₀ k
  rows : ∀ k, T₀.rows k = none → t.rows k = none
  batches : (b.flushed ++ [b.current]).flatten = done
  current : ∀ k, (b.cache.net k).isSome → touches w.key k b.current
  writes : ∀ k, t.writes k ≤ t₀.writes k + (b.flushed.filter (touches w.key k)).length

theorem batched_new (w : RowWriter K E R) (t₀ : Table K R) :
    Batched w ⟨newLedgerEntryChangeCache, [], []⟩ t₀ t₀ t₀ t₀ [] :=
  ⟨holds_new _ _ _, fun _ _ h ↦ (nomatch h), fun _ _ h ↦ h, fun _ _ h ↦ (nomatch h), fun _ ↦ rfl,
    fun _ h ↦ h, rfl, fun _ h ↦ (nomatch h), fun _ ↦ by simp⟩

/-- Flushing the cache writes its net changes, and the one-at-a-time table becomes the table
the next batch starts from. -/
theorem batched_flush (h : Batched w b t₀ t T₀ T done) :
    ∃ t', flushWith w b.cache t = .ok t' ∧
      Batched w ⟨newLedgerEntryChangeCache, b.flushed ++ [b.current], []⟩ t₀ t' T T done := by
  have hfl : ∀ k ∈ b.cache.keys, ∃ n, b.cache.net k = some n ∧ Flushable w t k n := by
    intro k hk
    obtain ⟨n, hn⟩ := Option.isSome_iff_exists.mp ((b.cache.mem_keys k).mp hk)
    obtain ⟨hkey, hpre₀, -, hnn, hpost⟩ := h.holds.net k n hn
    refine ⟨n, hn, hkey, hnn, hpost, fun hp ↦ h.rows k (h.fresh k n hn hp), fun ht ↦ ?_⟩
    exact pre_eq_none_of_rows (hpre₀.trans (h.live k).symm).symm ht
  obtain ⟨t', ht', hspec⟩ :=
    flushChanges_ok b.cache.keys t [] b.cache.nodup hfl List.nodup_nil (by simp)
  refine ⟨t', ht', ⟨holds_new _ _ _, fun _ _ h ↦ (nomatch h), fun _ _ h ↦ h,
    fun _ _ h ↦ (nomatch h), fun k ↦ ?_, fun k hk ↦ ?_, by simpa using h.batches,
    fun _ h ↦ (nomatch h), fun k ↦ ?_⟩⟩
  · obtain ⟨hrows, -⟩ := hspec k
    rw [liveRow, hrows]
    split
    · next hm =>
      obtain ⟨n, hn⟩ := Option.isSome_iff_exists.mp ((b.cache.mem_keys k).mp hm)
      rw [hn, Option.some_bind, netRow_filter_live]
      exact (h.holds.net k n hn).2.2.1
    · next hm =>
      have hn : b.cache.net k = none := by simpa [b.cache.mem_keys] using hm
      exact (h.live k).trans (h.holds.rest k hn).symm
  · obtain ⟨hrows, -⟩ := hspec k
    rw [hrows]
    split
    · next hm =>
      obtain ⟨n, hn⟩ := Option.isSome_iff_exists.mp ((b.cache.mem_keys k).mp hm)
      obtain ⟨-, hpre₀, hpostT, hnn, -⟩ := h.holds.net k n hn
      have hq : n.post = none := by simpa [liveRow, hk] using hpostT
      obtain ⟨pre, hp⟩ := Option.ne_none_iff_exists'.mp fun hp ↦ hnn ⟨hp, hq⟩
      have hr := rows_of_liveRow ((h.live k).trans (by rw [← hpre₀, hp]; rfl))
      have hkeeps : w.keeps = false := by simpa [hk] using (h.removed k n hn hq).symm
      rw [hn, Option.some_bind, hr, ← Option.not_isSome_iff_eq_none, netRow_isSome w _ hq, hkeeps]
      decide
    · next hm =>
      have hn : b.cache.net k = none := by simpa [b.cache.mem_keys] using hm
      exact h.rows k (h.gone k hn hk)
  · obtain ⟨-, hw⟩ := hspec k
    have hwk := h.writes k
    rw [hw, List.filter_append, List.length_append]
    by_cases hm : k ∈ b.cache.keys
    · simp [hm, h.current k ((b.cache.mem_keys k).mp hm), Table.writeAll]
      omega
    · simp [hm, Table.writeAll]
      omega

end Batch

variable [DecidableEq R]

/-- Applying one change on its own: `pre` is the live row of the change's key and `post` has
that key; a creation inserts a row, which needs a key holding none; an update updates the row
and a removal removes it. -/
def applyChange (w : RowWriter K E R) (t : Table K R) (change : Change E) :
    Option (Table K R) :=
  match change.ledgerKey w.key with
  | none => none
  | some k =>
    if liveRow w t k = change.pre.map w.row ∧ change.post.all (fun post ↦ w.key post = k) then
      match change.pre, change.post with
      | none, some post => (t.insertRow k (w.row post)).toOption
      | some _, some post => some (w.update t post).2
      | some pre, none => some (w.remove t pre).2
      | none, none => none
    else none

/-- Applying changes one at a time. -/
def applyChanges (w : RowWriter K E R) (t : Table K R) : List (Change E) → Option (Table K R)
  | [] => some t
  | change :: changes => (applyChange w t change).bind fun t ↦ applyChanges w t changes

/-- Everything one change applied on its own does: it starts from the live row of its key,
is a creation just when the key holds no row, and writes that key's net row. -/
theorem applyChange_eq_some {w : RowWriter K E R} {t t' : Table K R} {change : Change E}
    (h : applyChange w t change = some t') :
    ∃ k, change.ledgerKey w.key = some k ∧ liveRow w t k = change.pre.map w.row ∧
      (∀ post, change.post = some post → w.key post = k) ∧
      (change.pre = none ↔ t.rows k = none) ∧ t' = t.write k (netRow w (t.rows k) change) := by
  unfold applyChange at h
  split at h
  · cases h
  · next k hk =>
    split at h
    · next hcond =>
      obtain ⟨hlive, hall⟩ := hcond
      have hpost : ∀ post, change.post = some post → w.key post = k := fun post hp ↦ by
        simpa [hp] using hall
      have hsome : ∀ pre, change.pre = some pre → t.rows k = some (w.row pre) := fun pre hp ↦
        rows_of_liveRow (by rw [hlive, hp]; rfl)
      refine ⟨k, hk, hlive, hpost, ?_⟩
      split at h
      · next post hp hq =>
        unfold Table.insertRow at h
        split at h
        · next hn =>
          cases h
          exact ⟨⟨fun _ ↦ Option.isNone_iff_eq_none.mp hn, fun _ ↦ hp⟩, by simp [netRow, hq]⟩
        · cases h
      · next pre post hp hq =>
        rw [w.update_eq, hpost post hq, Table.updateRow_of_some (hsome pre hp)] at h
        cases h
        simp [hp, hsome pre hp, netRow, hq]
      · next pre hp hq =>
        have hk' : w.key pre = k := by simpa [Change.ledgerKey, hp] using hk
        rw [w.remove_eq, hk', Table.removeRow_of_some (hsome pre hp)] at h
        cases h
        simp [hp, hsome pre hp, netRow, hq]
      · cases h
    · cases h

/-! ## Every run -/

section Run

variable {w : RowWriter K E R} {b : Batcher K E} {t₀ t T₀ T T' : Table K R}
  {done : List (Change E)} {change : Change E}

variable [DecidableEq E]

/-- A change that applies on its own is taken by the cache, and the processor stays where
applying its changes one at a time would be. -/
theorem batched_add (h : Batched w b t₀ t T₀ T done) (hc : applyChange w T change = some T') :
    ∃ cache, b.cache.addChange w.key change = some cache ∧
      Batched w ⟨cache, b.flushed, b.current ++ [change]⟩ t₀ t T₀ T' (done ++ [change]) := by
  obtain ⟨k, hk, hlive, hpost, hpre, rfl⟩ := applyChange_eq_some hc
  have hupd : liveRow w (T.write k (netRow w (T.rows k) change)) =
      change.update w.key w.row (liveRow w T) := funext fun j ↦ by
    by_cases hj : j = k
    · subst hj
      rw [Change.update_self hk, liveRow, Table.write_rows, Function.update_same,
        netRow_filter_live]
    · rw [Change.update_of_ne hk hj, liveRow, liveRow, Table.write_rows,
        Function.update_noteq hj]
  obtain ⟨c', hadd, hholds⟩ := addChange_holds w.row_injective h.holds ⟨k, hk, hlive.symm, hpost⟩
  obtain ⟨k', hk', hother, -, -⟩ := LedgerEntryChangeCache.addChange_eq_some hadd
  rw [hk, Option.some.injEq] at hk'
  subst hk'
  obtain ⟨hdrop, hkeep⟩ := LedgerEntryChangeCache.addChange_net_key hk hadd
  refine ⟨c', hadd, ⟨hupd ▸ hholds, fun j n hn hpn ↦ ?_, fun j hn hT ↦ ?_, fun j n hn hq ↦ ?_,
    h.live, h.rows, by simp [← h.batches], fun j hj ↦ ?_, h.writes⟩⟩
  · by_cases hj : j = k
    · subst hj
      rcases (hkeep n hn).2 hpn with ⟨hck, hp⟩ | ⟨net, hck, hp⟩
      · exact h.gone j hck (hpre.mp hp)
      · exact h.fresh j net hck hp
    · exact h.fresh j n ((hother j hj).symm.trans hn) hpn
  · by_cases hj : j = k
    · subst hj
      obtain ⟨net, hck, hp⟩ := hdrop hn
      exact h.fresh j net hck hp
    · exact h.gone j ((hother j hj).symm.trans hn) (by simpa [hj] using hT)
  · by_cases hj : j = k
    · subst hj
      have hq' : change.post = none := (hkeep n hn).1 ▸ hq
      obtain ⟨r, hr⟩ := Option.ne_none_iff_exists'.mp fun hT ↦
        Change.pre_or_post_of_ledgerKey hk ⟨hpre.mpr hT, hq'⟩
      simp [hr, netRow_isSome w r hq']
    · simpa [hj] using h.removed j n ((hother j hj).symm.trans hn) hq
  · by_cases hjk : j = k
    · subst hjk
      simp [touches, hk]
    · have hcur := h.current j ((hother j hjk) ▸ hj)
      simp only [touches, List.any_append] at hcur ⊢
      simp [hcur]

/-- `ProcessChange` of a change that applies on its own, whether it flushes or not. -/
theorem batched_process (h : Batched w b t₀ t T₀ T done) (hc : applyChange w T change = some T') :
    ∃ b' t' T₀', b.process w.key (flushWith w) t change = .ok (b', t') ∧
      Batched w b' t₀ t' T₀' T' (done ++ [change]) := by
  obtain ⟨cache, hadd, h'⟩ := batched_add h hc
  by_cases hsize : cache.size > maxBatchSize
  · obtain ⟨t', ht', h''⟩ := batched_flush h'
    dsimp only at ht'
    exact ⟨_, t', T', by simp only [Batcher.process, hadd, if_pos hsize, ht'], h''⟩
  · exact ⟨_, t, T₀, by simp only [Batcher.process, hadd, if_neg hsize], h'⟩

/-- Feeding changes that apply one at a time keeps the processor where they leave the
one-at-a-time table. -/
theorem batched_run : ∀ (changes : List (Change E)) {b : Batcher K E} {t T₀ T T' : Table K R}
    {done : List (Change E)}, Batched w b t₀ t T₀ T done → applyChanges w T changes = some T' →
    ∃ b' t' T₀', processChanges (fun b t c ↦ b.process w.key (flushWith w) t c) b t changes =
      .ok (b', t') ∧ Batched w b' t₀ t' T₀' T' (done ++ changes)
  | [], b, t, T₀, _, _, _, h, hT => by
    cases hT
    exact ⟨b, t, T₀, rfl, by simpa using h⟩
  | change :: changes, _, _, _, _, _, _, h, hT => by
    obtain ⟨T₁, h₁, h₂⟩ := Option.bind_eq_some.mp hT
    obtain ⟨b₁, t₁, T₀₁, hp, hb₁⟩ := batched_process h h₁
    obtain ⟨b', t', T₀', hr, hb'⟩ := batched_run changes hb₁ h₂
    exact ⟨b', t', T₀', by simp [processChanges, hp, hr], by simpa using hb'⟩

/-- From a new processor, changes that apply one at a time go through `ProcessChange` and the
final flush, which leaves the live rows they leave, however the flushes split them, with at
most one row operation on a key per batch that changes it. -/
theorem batched_commit (w : RowWriter K E R) (t₀ T : Table K R) (changes : List (Change E))
    (hT : applyChanges w t₀ changes = some T) :
    ∃ (b : Batcher K E) (t t' : Table K R), processChanges (fun b t c ↦ b.process w.key (flushWith w) t c)
        ⟨newLedgerEntryChangeCache, [], []⟩ t₀ changes = .ok (b, t) ∧
      flushWith w b.cache t = .ok t' ∧ (∀ k, liveRow w t' k = liveRow w T k) ∧
      (b.flushed ++ [b.current]).flatten = changes ∧
      ∀ k, t'.writes k ≤ t₀.writes k + ((b.flushed ++ [b.current]).filter (touches w.key k)).length := by
  obtain ⟨b, t, T₀, hrun, hb⟩ := batched_run changes (batched_new w t₀) hT
  obtain ⟨t', ht', hb'⟩ := batched_flush hb
  exact ⟨b, t, t', hrun, ht', hb'.live, by simpa using hb'.batches, hb'.writes⟩

end Run

end AuroraIngest.Ingest.Batching
