import Mathlib.Data.List.Nodup
import Mathlib.Logic.Function.Basic

/-!
# The ledger-entry change cache

`io.LedgerEntryChangeCache` is not among the sources; it is modelled from the spec. Per
ledger-entry key it keeps one net change, the first change's `pre` and the last change's
`post`; a net change from nothing to nothing is dropped; `GetChanges` gives the net changes
in the order their keys were added; and a change whose `pre` is not the key's current
`post` is rejected.

Folding is sound: when each change starts from the current state of its key, the cache
holds, per key, the change from the key's state before the first change to its state after
the last one, and every other key is where it was.
-/

namespace AuroraIngest.Ingest.ChangeCache

/-- `xdr.LedgerEntryType`. -/
inductive LedgerEntryType where
  | account
  | trustline
  | offer
  | data
  | claimableBalance
  deriving DecidableEq, Repr

/-- An offer's ledger entry: its id, the rest of the offer (seller, assets, amount, price,
flags, sponsor) as `body`, and the ledger that last modified it. -/
structure OfferEntry where
  offerId : Int
  body : Nat
  lastModifiedLedgerSeq : UInt32
  deriving DecidableEq, Repr

/-- A claimable balance's ledger entry: its balance id, the rest of it as `body`, and the
ledger that last modified it. -/
structure ClaimableBalanceEntry where
  balanceId : String
  body : Nat
  lastModifiedLedgerSeq : UInt32
  deriving DecidableEq, Repr

/-- `io.Change`: an entry of type `type` before and after; no `pre` is a creation, no `post`
a removal. -/
structure Change (E : Type) where
  type : LedgerEntryType
  pre : Option E
  post : Option E
  deriving DecidableEq, Repr

variable {K E V : Type}

/-- Modelled from the spec: `change.LedgerKey()`, the key of `pre`, or of `post` for a
creation. -/
def Change.ledgerKey (key : E → K) (change : Change E) : Option K :=
  match change.pre with
  | some pre => some (key pre)
  | none => change.post.map key

theorem Change.pre_or_post_of_ledgerKey {key : E → K} {change : Change E} {k : K}
    (h : change.ledgerKey key = some k) : ¬ (change.pre = none ∧ change.post = none) := by
  rintro ⟨hpre, hpost⟩
  simp [Change.ledgerKey, hpre, hpost] at h

/-- Modelled from the spec: `io.LedgerEntryChangeCache`. `keys` are the keys holding a net
change, in the order they were added, and `net` gives each one's change. -/
structure LedgerEntryChangeCache (K E : Type) where
  keys : List K
  net : K → Option (Change E)
  nodup : keys.Nodup
  mem_keys : ∀ k, k ∈ keys ↔ (net k).isSome

/-- `NewLedgerEntryChangeCache()`. -/
def newLedgerEntryChangeCache : LedgerEntryChangeCache K E :=
  ⟨[], fun _ ↦ none, List.nodup_nil, by simp⟩

namespace LedgerEntryChangeCache

/-- `Size()`: the number of keys. -/
def size (c : LedgerEntryChangeCache K E) : Nat := c.keys.length

/-- `GetChanges()`: the net changes, in the order their keys were added. -/
def getChanges (c : LedgerEntryChangeCache K E) : List (Change E) := c.keys.filterMap c.net

variable [DecidableEq K]

/-- The first change of a key, which goes last in the order. -/
def push (c : LedgerEntryChangeCache K E) (k : K) (change : Change E) (h : c.net k = none) :
    LedgerEntryChangeCache K E where
  keys := c.keys ++ [k]
  net := Function.update c.net k (some change)
  nodup := c.nodup.append (List.nodup_singleton k) (by simp [List.disjoint_singleton, c.mem_keys, h])
  mem_keys j := by
    by_cases hj : j = k
    · subst hj
      simp
    · simp [hj, c.mem_keys]

/-- A net change from nothing to nothing leaves the cache. -/
def drop (c : LedgerEntryChangeCache K E) (k : K) : LedgerEntryChangeCache K E where
  keys := c.keys.erase k
  net := Function.update c.net k none
  nodup := c.nodup.erase k
  mem_keys j := by
    by_cases hj : j = k
    · subst hj
      simp [c.nodup.mem_erase_iff]
    · simp [hj, c.nodup.mem_erase_iff, c.mem_keys]

/-- A key's net change takes a new `post`. -/
def setNet (c : LedgerEntryChangeCache K E) (k : K) (change : Change E)
    (h : (c.net k).isSome) : LedgerEntryChangeCache K E where
  keys := c.keys
  net := Function.update c.net k (some change)
  nodup := c.nodup
  mem_keys j := by
    by_cases hj : j = k
    · subst hj
      simp [c.mem_keys, h]
    · simp [hj, c.mem_keys]

variable [DecidableEq E]

/-- Modelled from the spec: `AddChange(change)`. The first change of a key is kept as it is;
a later one must start from the key's current `post`, which it replaces; a net change from
nothing to nothing is dropped. `none` is a rejection. -/
def addChange (key : E → K) (c : LedgerEntryChangeCache K E) (change : Change E) :
    Option (LedgerEntryChangeCache K E) :=
  match change.ledgerKey key with
  | none => none
  | some k =>
    match h : c.net k with
    | none => some (c.push k change h)
    | some net =>
      if change.pre ≠ net.post then none
      else if net.pre = none ∧ change.post = none then some (c.drop k)
      else some (c.setNet k { net with post := change.post } (by simp [h]))

/-- Everything `AddChange` does: it takes a change with a key that starts from the key's
current `post`, and changes the net change of that key alone. -/
theorem addChange_eq_some {key : E → K} {c c' : LedgerEntryChangeCache K E} {change : Change E}
    (h : c.addChange key change = some c') :
    ∃ k, change.ledgerKey key = some k ∧ (∀ j, j ≠ k → c'.net j = c.net j) ∧
      (c.net k = none → c'.net k = some change) ∧
      ∀ net, c.net k = some net → change.pre = net.post ∧
        c'.net k = if net.pre = none ∧ change.post = none then none
          else some { net with post := change.post } := by
  unfold addChange at h
  split at h
  · cases h
  · next k hk =>
    refine ⟨k, hk, ?_⟩
    split at h
    · next hn =>
      cases h
      refine ⟨fun j hj ↦ Function.update_noteq hj _ _, fun _ ↦ by simp [push], ?_⟩
      simp [hn]
    · next net hn =>
      have hpre : change.pre = net.post := by
        by_contra hne
        simp [hne] at h
      simp only [hpre, ne_eq, not_true_eq_false, ↓reduceIte] at h
      refine ⟨?_, by simp [hn], fun net' hn' ↦ ?_⟩
      · intro j hj
        split at h <;> cases h <;> exact Function.update_noteq hj _ _
      · rw [hn, Option.some.injEq] at hn'
        subst hn'
        refine ⟨hpre, ?_⟩
        split at h <;> cases h <;> simp [drop, setNet, *]

/-- `AddChange` takes a change with a key that starts from the key's current `post`. -/
theorem addChange_isSome {key : E → K} (c : LedgerEntryChangeCache K E) {change : Change E}
    {k : K} (hk : change.ledgerKey key = some k)
    (hpre : ∀ net, c.net k = some net → change.pre = net.post) :
    (c.addChange key change).isSome := by
  unfold addChange
  rw [hk]
  dsimp only
  split
  · rfl
  · next net hn =>
    simp only [hpre net hn, ne_eq, not_true_eq_false, ↓reduceIte]
    split <;> rfl

/-- The net change of the key a change has after `AddChange`: dropped only when the old one
was a creation, and otherwise ending at the change's `post` and a creation only when the key
was new with a creation or the old one was a creation. -/
theorem addChange_net_key {key : E → K} {c c' : LedgerEntryChangeCache K E} {change : Change E}
    {k : K} (hk : change.ledgerKey key = some k) (h : c.addChange key change = some c') :
    (c'.net k = none → ∃ net, c.net k = some net ∧ net.pre = none) ∧
    ∀ n, c'.net k = some n → n.post = change.post ∧
      (n.pre = none → (c.net k = none ∧ change.pre = none) ∨
        ∃ net, c.net k = some net ∧ net.pre = none) := by
  obtain ⟨k', hk', -, hnew, hold⟩ := c.addChange_eq_some h
  rw [hk, Option.some.injEq] at hk'
  subst hk'
  cases hck : c.net k with
  | none =>
    rw [hnew hck]
    refine ⟨fun h ↦ (nomatch h), fun n hn ↦ ?_⟩
    cases hn
    exact ⟨rfl, fun hp ↦ .inl ⟨rfl, hp⟩⟩
  | some net =>
    rw [(hold net hck).2]
    split
    · next hnone => exact ⟨fun _ ↦ ⟨net, rfl, hnone.1⟩, fun n hn ↦ nomatch hn⟩
    · refine ⟨fun h ↦ (nomatch h), fun n hn ↦ ?_⟩
      cases hn
      exact ⟨rfl, fun hp ↦ .inr ⟨net, rfl, hp⟩⟩

end LedgerEntryChangeCache

/-- `change` starts from the state of its key in `v` (entries seen through `f`), and its
`post` has that key too. -/
def Follows (key : E → K) (f : E → V) (v : K → Option V) (change : Change E) : Prop :=
  ∃ k, change.ledgerKey key = some k ∧ change.pre.map f = v k ∧
    ∀ post, change.post = some post → key post = k

section Fold

/-- The cache holds the changes from `v₀` to `v`: each key's net change goes from its state
in `v₀` to its state in `v`, and every other key has one state in both. -/
structure Holds (key : E → K) (f : E → V) (c : LedgerEntryChangeCache K E) (v₀ v : K → Option V) :
    Prop where
  net : ∀ k n, c.net k = some n → n.ledgerKey key = some k ∧ n.pre.map f = v₀ k ∧
    n.post.map f = v k ∧ ¬ (n.pre = none ∧ n.post = none) ∧ ∀ post, n.post = some post → key post = k
  rest : ∀ k, c.net k = none → v k = v₀ k

theorem holds_new (key : E → K) (f : E → V) (v : K → Option V) :
    Holds key f newLedgerEntryChangeCache v v :=
  ⟨fun _ _ h ↦ (nomatch h), fun _ _ ↦ rfl⟩

variable [DecidableEq K]

/-- The state after `change`: its key is at `post`. -/
def Change.update (key : E → K) (f : E → V) (v : K → Option V) (change : Change E) :
    K → Option V :=
  match change.ledgerKey key with
  | some k => Function.update v k (change.post.map f)
  | none => v

theorem Change.update_self {key : E → K} {f : E → V} {v : K → Option V} {change : Change E}
    {k : K} (hk : change.ledgerKey key = some k) : change.update key f v k = change.post.map f := by
  simp [Change.update, hk]

theorem Change.update_of_ne {key : E → K} {f : E → V} {v : K → Option V} {change : Change E}
    {k j : K} (hk : change.ledgerKey key = some k) (hj : j ≠ k) : change.update key f v j = v j := by
  simp [Change.update, hk, hj]

variable [DecidableEq E]

/-- Folding a change that starts from the current state of its key keeps the cache holding
the changes, up to the state after it. -/
theorem addChange_holds {key : E → K} {f : E → V} (hf : Function.Injective f)
    {c : LedgerEntryChangeCache K E} {v₀ v : K → Option V} (h : Holds key f c v₀ v)
    {change : Change E} (hc : Follows key f v change) :
    ∃ c', c.addChange key change = some c' ∧ Holds key f c' v₀ (change.update key f v) := by
  obtain ⟨k, hk, hpre, hpost⟩ := hc
  obtain ⟨c', hc'⟩ := Option.isSome_iff_exists.mp (c.addChange_isSome hk fun net hn ↦
    Option.map_injective hf (hpre.trans (h.net k net hn).2.2.1.symm))
  obtain ⟨k', hk', hother, hnew, hold⟩ := c.addChange_eq_some hc'
  rw [hk, Option.some.injEq] at hk'
  subst hk'
  refine ⟨c', hc', ⟨fun j n hn ↦ ?_, fun j hn ↦ ?_⟩⟩
  · by_cases hj : j = k
    · subst hj
      rw [Change.update_self hk]
      cases hck : c.net j with
      | none =>
        rw [hnew hck, Option.some.injEq] at hn
        subst hn
        exact ⟨hk, hpre.trans (h.rest j hck), rfl, Change.pre_or_post_of_ledgerKey hk, hpost⟩
      | some net =>
        obtain ⟨-, hnet⟩ := hold net hck
        obtain ⟨hkey, hpre₀, -, -, -⟩ := h.net j net hck
        split at hnet
        · rw [hnet] at hn
          cases hn
        · next hnot =>
          rw [hnet, Option.some.injEq] at hn
          subst hn
          refine ⟨?_, hpre₀, rfl, hnot, hpost⟩
          cases hp : net.pre with
          | some p => simpa [Change.ledgerKey, hp] using hkey
          | none =>
            obtain ⟨post, hpost'⟩ := Option.ne_none_iff_exists'.mp fun h' ↦ hnot ⟨hp, h'⟩
            simp [Change.ledgerKey, hp, hpost', hpost post hpost']
    · rw [hother j hj] at hn
      rw [Change.update_of_ne hk hj]
      exact h.net j n hn
  · by_cases hj : j = k
    · subst hj
      rw [Change.update_self hk]
      cases hck : c.net j with
      | none => simp [hnew hck] at hn
      | some net =>
        obtain ⟨-, hnet⟩ := hold net hck
        split at hnet
        · next hnone =>
          rw [hnone.2, ← (h.net j net hck).2.1, hnone.1]
        · rw [hnet] at hn
          cases hn
    · rw [hother j hj] at hn
      rw [Change.update_of_ne hk hj]
      exact h.rest j hn

/-- `AddChange` of each change in turn, stopping at the first rejection. -/
def LedgerEntryChangeCache.addChanges (key : E → K) (c : LedgerEntryChangeCache K E) :
    List (Change E) → Option (LedgerEntryChangeCache K E)
  | [] => some c
  | change :: changes => (c.addChange key change).bind fun c ↦ c.addChanges key changes

/-- Each change starts from the state the changes before it leave, from `v`. -/
def FollowEachOther (key : E → K) (f : E → V) : (K → Option V) → List (Change E) → Prop
  | _, [] => True
  | v, change :: changes =>
    Follows key f v change ∧ FollowEachOther key f (change.update key f v) changes

/-- Folding a sequence of changes that follow each other: the cache takes every change, and
holds, per key, the change from the key's state before its first change to its state after
its last one, a change from nothing to nothing dropped, every other key where it was. -/
theorem addChanges_holds {key : E → K} {f : E → V} (hf : Function.Injective f) :
    ∀ (changes : List (Change E)) {c : LedgerEntryChangeCache K E} {v₀ v : K → Option V},
      Holds key f c v₀ v → FollowEachOther key f v changes →
      ∃ c', c.addChanges key changes = some c' ∧
        Holds key f c' v₀ (changes.foldl (fun v change ↦ change.update key f v) v)
  | [], c, _, _, h, _ => ⟨c, rfl, h⟩
  | _ :: changes, _, _, _, h, ⟨hc, hcs⟩ => by
    obtain ⟨c₁, h₁, hh₁⟩ := addChange_holds hf h hc
    obtain ⟨c', h', hh'⟩ := addChanges_holds hf changes hh₁ hcs
    exact ⟨c', by simp [LedgerEntryChangeCache.addChanges, h₁, h'], hh'⟩

/-- Offer 7 is created at ledger 60 and updated at 61. -/
def offerSteps : List (Change OfferEntry) :=
  [⟨.offer, none, some ⟨7, 1, 60⟩⟩, ⟨.offer, some ⟨7, 1, 60⟩, some ⟨7, 2, 61⟩⟩]

theorem addChanges_holds_offer :
    Holds OfferEntry.offerId id newLedgerEntryChangeCache (fun _ ↦ none) (fun _ ↦ none) ∧
    FollowEachOther OfferEntry.offerId id (fun _ ↦ none) offerSteps ∧
    ∃ c', newLedgerEntryChangeCache.addChanges OfferEntry.offerId offerSteps = some c' ∧
      Holds OfferEntry.offerId id c' (fun _ ↦ none)
        (offerSteps.foldl (fun v change ↦ change.update OfferEntry.offerId id v) fun _ ↦ none) :=
  have hfollow : FollowEachOther OfferEntry.offerId id (fun _ ↦ none) offerSteps :=
    ⟨⟨7, rfl, rfl, fun _ h ↦ by cases h; rfl⟩, ⟨7, rfl, rfl, fun _ h ↦ by cases h; rfl⟩, trivial⟩
  ⟨holds_new _ _ _, hfollow, addChanges_holds Function.injective_id _ (holds_new _ _ _) hfollow⟩

end Fold

end AuroraIngest.Ingest.ChangeCache
