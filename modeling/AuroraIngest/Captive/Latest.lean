import AuroraIngest.Captive.Online
import AuroraIngest.Captive.Stream

/-!
# The latest sequence of an unbounded session

`GetLatestLedgerSequence` returns `nextLedger - 1 + len(metaC)` in `uint32`. Over the
naturals this value never falls while an unbounded session stays open: the reader's send
lengthens the buffer, and `GetLedger` taking the next ledger moves one item from the buffer
to `nextLedger`. The call returns its residue modulo `2^32`, so the returns fall once the
value passes `2^32 - 1`, which a session near the top of the sequence space reaches with
the session still open.

A return `L` says the buffer holds the ledgers up to `L`. A later `GetLedger(sequence)` with
`nextLedger ≤ sequence ≤ L` then never sees an empty buffer before it reaches `sequence`,
through any steps of the reader: it returns ledger `sequence`, from the cache or the
buffer, or the error of an item or of a ledger out of sequence.
-/

namespace AuroraIngest.Captive.Latest

open AuroraIngest.Captive.Ledger AuroraIngest.Captive.State AuroraIngest.Captive.Backend
open AuroraIngest.Captive.Step AuroraIngest.Captive.Invariant AuroraIngest.Captive.Representation
open AuroraIngest.Captive.Cached AuroraIngest.Captive.Stream AuroraIngest.Captive.Prepare

/-- `nextLedger - 1 + len(metaC)` over the naturals: the last sequence the buffer reaches. -/
def latestSequenceNat (c : Core) : Nat := c.nextLedger.toNat - 1 + c.bufLen

/-- The fields of the stream a stretch of code leaves alone: `nextLedger`, `metaC` and
`lastLedger`. -/
def SameStream (c c' : Core) : Prop :=
  c'.nextLedger = c.nextLedger ∧ c'.metaC = c.metaC ∧ c'.lastLedger = c.lastLedger

theorem SameStream.rfl' (c : Core) : SameStream c c := ⟨rfl, rfl, rfl⟩

theorem SameStream.latest {c c' : Core} (h : SameStream c c') :
    latestSequenceNat c' = latestSequenceNat c := by
  simp only [latestSequenceNat, Core.bufLen, h.1, h.2.1]

/-- A stretch of the consumer's code from a state with core `c` that leaves the stream as it
is and does not return from `GetLatestLedgerSequence`. -/
def Quiet (c : Core) (o : Out) : Prop :=
  SameStream c o.1.core ∧ ∀ L e, o.2 ≠ some (.getLatestLedgerSequence L e)

section Quiet

variable {s : Sys}

theorem SameStream.trans {c c' c'' : Core} (h : SameStream c c') (h' : SameStream c' c'') :
    SameStream c c'' :=
  ⟨h'.1.trans h.1, h'.2.1.trans h.2.1, h'.2.2.trans h.2.2⟩

theorem Quiet.of_stream {c c' : Core} {o : Out} (h : SameStream c c') (ho : Quiet c' o) :
    Quiet c o :=
  ⟨h.trans ho.1, ho.2⟩

theorem quiet_await (pc : Pc) : Quiet s.core (s.await pc) := ⟨SameStream.rfl' _, nofun⟩

theorem quiet_crash (f : Fault) : Quiet s.core (s.crash f) := ⟨SameStream.rfl' _, nofun⟩

theorem quiet_prepareRangeFail (r : Range) (e : Err) : Quiet s.core (prepareRangeFail s r e) :=
  ⟨SameStream.rfl' _, nofun⟩

theorem quiet_prepareRangeAwait (r : Range) : Quiet s.core (prepareRangeAwait s r) := by
  unfold prepareRangeAwait
  split
  · split
    · exact quiet_await _
    · exact ⟨SameStream.rfl' _, nofun⟩
  · exact quiet_crash _

theorem quiet_getLedgerReturn (k : GetCaller) (sequence : UInt32) (found : Bool)
    (meta : LedgerCloseMeta) (err : Option Err) :
    Quiet s.core (getLedgerReturn s k sequence found meta err) := by
  unfold getLedgerReturn
  split
  · exact ⟨SameStream.rfl' _, nofun⟩
  · split
    · exact Quiet.of_stream ⟨rfl, rfl, rfl⟩ (quiet_prepareRangeFail _ _)
    · exact Quiet.of_stream ⟨rfl, rfl, rfl⟩ (quiet_prepareRangeAwait _)

theorem quiet_getLedgerBegin (sequence : UInt32) : Quiet s.core (getLedgerBegin s .user sequence) := by
  unfold getLedgerBegin
  split
  · exact quiet_getLedgerReturn _ _ _ _ _
  · split
    · exact quiet_getLedgerReturn _ _ _ _ _
    · split
      · exact quiet_getLedgerReturn _ _ _ _ _
      · exact quiet_await _

theorem quiet_prepareRangeWait {r : Range} {o : Out} (h : prepareRangeWait s r = some o) :
    Quiet s.core o := by
  unfold prepareRangeWait at h
  split at h
  · cases h
    exact ⟨SameStream.rfl' _, nofun⟩
  · split at h
    · cases h
      exact ⟨SameStream.rfl' _, nofun⟩
    · cases h

end Quiet

/-- An open session has its `shutdown` channel open, and `Close` is not waiting. -/
theorem shutdown_of_open {c : Core} {pc : Pc} (h : PcOk False c pc)
    (hn : c.nextLedger ≠ 0) : c.shutdown = some .empty ∧ ∀ k, pc ≠ .closeWait k := by
  cases pc with
  | idle =>
    rcases h with hc | ho
    exacts [absurd hc.1 hn, ⟨ho.2.1, nofun⟩]
  | getLedger sequence k => exact ⟨(PcOk.opened h).2.1, nofun⟩
  | closeWait k => exact absurd h.1.1 hn
  | prepareWait r => exact ⟨h.1.2.1, nofun⟩

/-- In an open unbounded session `GetLatestLedgerSequence` returns the buffered end modulo
`2^32`, and no error. -/
theorem getLatestLedgerSequence_open {c : Core} (hopen : isClosed c = false)
    (hun : c.lastLedger = none) :
    (getLatestLedgerSequence c).2 = none ∧
      (getLatestLedgerSequence c).1.toNat = latestSequenceNat c % 2 ^ 32 := by
  have hn := u32_toNat_lt c.nextLedger
  have hne : c.nextLedger.toNat ≠ 0 := by simpa [isClosed, u32_eq_iff] using hopen
  simp only [getLatestLedgerSequence, hopen, hun, Bool.false_eq_true, ↓reduceIte, latestSequenceNat,
    u32_toNat_add, u32_toNat_sub, u32_toNat_ofNat, u32_toNat_lit, Nat.reducePow, Nat.reduceMod,
    true_and]
  omega

/-- `GetLedger` taking the head of the buffer as the next ledger leaves the buffered end
where it was. -/
theorem latestSequenceNat_pop {c c' : Core} {x : MetaResult} {rest : List MetaResult}
    {b b' : Bool} (hm : c.metaC = some ⟨x :: rest, b⟩) (hm' : c'.metaC = some ⟨rest, b'⟩)
    (hn : c'.nextLedger = c.nextLedger + 1) (hn0 : c.nextLedger ≠ 0) (hn0' : c'.nextLedger ≠ 0) :
    latestSequenceNat c' = latestSequenceNat c := by
  have hlt := u32_toNat_lt c.nextLedger
  simp only [u32_ne_iff, UInt32.toNat_zero, hn, u32_toNat_add, u32_toNat_lit, Nat.reducePow,
    Nat.reduceMod] at hn0 hn0'
  simp only [latestSequenceNat, Core.bufLen, hm, hm', hn, u32_toNat_add, u32_toNat_lit,
    Nat.reducePow, Nat.reduceMod, List.length_cons]
  omega

/-- One step of an open unbounded session that leaves it open keeps it unbounded and does not
lower the buffered end: the reader's send raises it, and `GetLedger` taking a ledger moves one
item from the buffer to `nextLedger`. `GetLatestLedgerSequence` returns the end modulo
`2^32`. -/
theorem latest_step {s s' : Sys} {a : Action} {r : Option Ret} (hi : Inv False s)
    (hf : s.fault = none) (hun : s.core.lastLedger = none) (hopen : isClosed s.core = false)
    (hstep : step s a = some (s', r)) (hopen' : isClosed s'.core = false) :
    s'.core.lastLedger = none ∧ latestSequenceNat s.core ≤ latestSequenceNat s'.core ∧
      ∀ L e, r = some (.getLatestLedgerSequence L e) →
        e = none ∧ L.toNat = latestSequenceNat s.core % 2 ^ 32 := by
  obtain ⟨-, hb, hpc, -⟩ := hi.resolve_left (by simp [hf])
  have hn0 : s.core.nextLedger ≠ 0 := by simpa [isClosed] using hopen
  obtain ⟨hsh, hnw⟩ := shutdown_of_open hpc hn0
  obtain ⟨buf, hm⟩ := hb.metaC_of_shutdown (by simp [hsh])
  have hq : Quiet s.core (s', r) → s'.core.lastLedger = none ∧
      latestSequenceNat s.core ≤ latestSequenceNat s'.core ∧
      ∀ L e, r = some (.getLatestLedgerSequence L e) →
        e = none ∧ L.toNat = latestSequenceNat s.core % 2 ^ 32 :=
    fun ⟨hss, hr⟩ ↦ ⟨hss.2.2 ▸ hun, Nat.le_of_eq hss.latest.symm, fun L e h ↦ absurd h (hr L e)⟩
  -- `Close` forgets the session
  have hclose : ∀ {t : Sys} {env : Env} {k : CloseCaller}, closeBegin t env k = (s', r) →
      t.core.shutdown = some .empty → False := fun {t env k} h hsh' ↦ by
    have hz := (closeBegin_open t hsh' env k).2.2.1
    rw [h] at hz
    simp only [isClosed, beq_eq_false_iff_ne] at hopen'
    exact hopen' hz
  by_cases hbg : background a = true
  · obtain ⟨rfl, -, -, -⟩ := background_step hb hf hbg hstep
    obtain ⟨hn, hl, -, -, -, -, hbuf, -⟩ := background_frame hf hbg hstep
    obtain ⟨xs, hm'⟩ := hbuf buf hm
    refine ⟨hl ▸ hun, ?_, nofun⟩
    simp [latestSequenceNat, Core.bufLen, hn, hm, hm']
  cases a with
  | call op env =>
    simp only [step, hf, Option.isSome_none, Bool.false_eq_true, ↓reduceIte] at hstep
    split at hstep
    · rw [Option.some.injEq] at hstep
      cases op with
      | prepareRange rg =>
        simp only [call, prepareRange] at hstep
        split at hstep
        · exact hq (hstep ▸ ⟨SameStream.rfl' _, nofun⟩)
        · split at hstep
          · exact (hclose hstep hsh).elim
          · split at hstep
            · exact hq (hstep ▸ quiet_prepareRangeAwait rg)
            · exact (hclose hstep hsh).elim
      | getLedger sequence => exact hq (hstep ▸ quiet_getLedgerBegin sequence)
      | isPrepared rg => exact hq (hstep ▸ ⟨SameStream.rfl' _, nofun⟩)
      | getLatestLedgerSequence =>
        simp only [call, Sys.finish, Prod.mk.injEq] at hstep
        obtain ⟨rfl, rfl⟩ := hstep
        obtain ⟨he, hL⟩ := getLatestLedgerSequence_open hopen hun
        refine ⟨hun, le_refl _, fun L e h ↦ ?_⟩
        simp only [Option.some.injEq, Ret.getLatestLedgerSequence.injEq] at h
        obtain ⟨rfl, rfl⟩ := h
        exact ⟨he, hL⟩
      | close => exact (hclose hstep hsh).elim
    · cases hstep
  | resume env =>
    simp only [step, hf, Option.isSome_none, Bool.false_eq_true, ↓reduceIte] at hstep
    unfold resume at hstep
    split at hstep
    · cases hstep
    · next sequence k hpck =>
      unfold getLedgerLoop at hstep
      split at hstep
      · exact hq (Option.some.inj hstep ▸ quiet_getLedgerReturn _ _ _ _ _)
      · simp only [hm] at hstep
        cases buf with
        | nil => simp at hstep
        | cons x rest =>
        rw [Option.some.injEq] at hstep
        rcases hb.buffered _ false x hm (List.mem_cons_self _ _) with ⟨m, rfl, -⟩ | ⟨e, rfl⟩
        · simp only [getLedgerReceive, Sys.modify_core, ne_eq, ite_not] at hstep
          split at hstep
          · next hseq =>
            -- the head is the next ledger: one item moves from the buffer to `nextLedger`
            have hpop : ∀ {c : Core}, Quiet c (s', r) → c.nextLedger = s.core.nextLedger + 1 →
                c.metaC = some ⟨rest, false⟩ → c.lastLedger = none →
                s'.core.lastLedger = none ∧
                latestSequenceNat s.core ≤ latestSequenceNat s'.core ∧
                ∀ L e, r = some (.getLatestLedgerSequence L e) →
                  e = none ∧ L.toNat = latestSequenceNat s.core % 2 ^ 32 := by
              intro c ⟨hss, hr⟩ hn hmc hl
              refine ⟨hss.2.2.trans hl, ?_, fun L e h ↦ absurd h (hr L e)⟩
              have hne : c.nextLedger ≠ 0 := by
                rw [← hss.1]
                simpa [isClosed] using hopen'
              rw [hss.latest, latestSequenceNat_pop hm hmc hn hn0 hne]
            split at hstep
            · split at hstep
              · exact (hclose hstep hsh).elim
              · exact hpop ((congrArg (Quiet _) hstep).mp (quiet_getLedgerReturn _ _ _ _ _)) rfl rfl hun
            · exact hpop ((congrArg (Quiet _) hstep).mp (quiet_await _)) rfl rfl hun
          · exact (hclose hstep hsh).elim
        · simp only [getLedgerReceive] at hstep
          exact (hclose hstep hsh).elim
    · next k hpck => exact absurd hpck (hnw k)
    · next rg hpck => exact hq (quiet_prepareRangeWait hstep)
  | _ => exact absurd rfl hbg

/-- Every state a run passes through after a step holds an open session. -/
def staysOpen (s : Sys) : List Action → Bool
  | [] => true
  | a :: as =>
    match step s a with
    | none => true
    | some (s', _) => !isClosed s'.core && staysOpen s' as

theorem staysOpen_cons {s s' : Sys} {a : Action} {as : List Action} {r : Option Ret}
    (h : staysOpen s (a :: as) = true) (hstep : step s a = some (s', r)) :
    isClosed s'.core = false ∧ staysOpen s' as = true := by
  simpa [staysOpen, hstep] using h

/-- What `GetLatestLedgerSequence` returned along a run, in order. -/
def latestReturns (rs : List Ret) : List (UInt32 × Option Err) :=
  rs.filterMap fun
    | .getLatestLedgerSequence sequence err => some (sequence, err)
    | _ => none

theorem latestReturns_of_ne {r : Option Ret} (h : ∀ L e, r ≠ some (.getLatestLedgerSequence L e))
    (rs : List Ret) : latestReturns (r.toList ++ rs) = latestReturns rs := by
  rcases r with _ | x
  · rfl
  · cases x <;> first | rfl | exact absurd rfl (h _ _)

/-- Over a run that keeps the session open, the buffered end never falls, and the calls to
`GetLatestLedgerSequence` return it, modulo `2^32` and with no error, at their times. -/
theorem latest_run {s t : Sys} {as : List Action} {rs : List Ret} (hs : Reachable s)
    (hun : s.core.lastLedger = none) (hopen : isClosed s.core = false)
    (hrun : run s as = some (t, rs)) (hstay : staysOpen s as = true) :
    t.core.lastLedger = none ∧ isClosed t.core = false ∧
      latestSequenceNat s.core ≤ latestSequenceNat t.core ∧
      ∃ vs : List Nat, vs.Sorted (· ≤ ·) ∧
        (∀ v ∈ vs, latestSequenceNat s.core ≤ v ∧ v ≤ latestSequenceNat t.core) ∧
        latestReturns rs = vs.map fun v ↦ (UInt32.ofNat v, none) := by
  induction as generalizing s rs with
  | nil =>
    obtain ⟨rfl, rfl⟩ : s = t ∧ [] = rs := by simpa [run] using hrun
    exact ⟨hun, hopen, le_refl _, [], List.sorted_nil, nofun, rfl⟩
  | cons a as ih =>
    obtain ⟨s₁, r, rs₂, hstep, hrun₂, rfl⟩ := run_cons_eq_some.mp hrun
    have hi := inv_of_reachable hs
    have hf : s.fault = none := by
      rcases hi with h | h
      · simp [step, h] at hstep
      · exact h.1
    obtain ⟨hopen₁, hstay₂⟩ := staysOpen_cons hstay hstep
    obtain ⟨hun₁, hle, hret⟩ := latest_step hi hf hun hopen hstep hopen₁
    obtain ⟨hunt, hopent, hle₂, vs, hsort, hvs, hrets⟩ :=
      ih (.next hs hstep) hun₁ hopen₁ hrun₂ hstay₂
    refine ⟨hunt, hopent, hle.trans hle₂, ?_⟩
    by_cases hL : ∃ L e, r = some (.getLatestLedgerSequence L e)
    · obtain ⟨L, e, rfl⟩ := hL
      obtain ⟨rfl, hL⟩ := hret L e rfl
      have hv : L = UInt32.ofNat (latestSequenceNat s.core) := by
        rw [u32_eq_iff, hL, u32_toNat_ofNat]
      refine ⟨latestSequenceNat s.core :: vs, List.sorted_cons.mpr
        ⟨fun v hv ↦ hle.trans (hvs v hv).1, hsort⟩, ?_, ?_⟩
      · simp only [List.mem_cons, forall_eq_or_imp, le_refl, true_and]
        exact ⟨hle.trans hle₂, fun v hv ↦ ⟨hle.trans (hvs v hv).1, (hvs v hv).2⟩⟩
      · show (L, none) :: latestReturns rs₂ = _
        rw [hrets, hv, List.map_cons]
    · rw [latestReturns_of_ne (fun L e h ↦ hL ⟨L, e, h⟩)]
      exact ⟨vs, hsort, fun v hv ↦ ⟨hle.trans (hvs v hv).1, (hvs v hv).2⟩, hrets⟩

/-- A return of `GetLedger(sequence)` that is the ledger `sequence` or an error. -/
def Answer (sequence : UInt32) : Ret → Prop
  | .getLedger sequence' found meta err =>
    sequence' = sequence ∧
      (found = true ∧ meta.ledgerSequence = sequence ∧ err = none ∨ found = false ∧ err.isSome)
  | _ => False

/-- Where the consumer stands while `GetLedger(sequence)` runs on an open session whose buffer
reaches `sequence`: done, in its loop with the buffer still reaching `sequence`, or closing the
session for an error it will return. -/
def Answering (sequence : UInt32) (u : Sys) : Prop :=
  match u.pc with
  | .idle => True
  | .getLedger sequence' k =>
    sequence' = sequence ∧ k = .user ∧ u.core.lastLedger = none ∧ isClosed u.core = false ∧
      u.core.nextLedger ≤ sequence ∧ sequence.toNat ≤ latestSequenceNat u.core
  | .closeWait k => ∃ e, k = .getLedgerErr sequence e .user
  | .prepareWait _ => False

section Answering

variable {sequence : UInt32}

/-- The end of the `Close` that `GetLedger` made on an error leaves the consumer done, or
where it was when it panics. -/
theorem closeEnd_getLedgerErr_pc (s : Sys) (env : Env) (e : Err) :
    (closeEnd s env (.getLedgerErr sequence e .user)).1.pc = .idle ∨
      (closeEnd s env (.getLedgerErr sequence e .user)).1.pc = s.pc := by
  simp only [closeEnd, closeRunner, closeReturn, getLedgerReturn]
  repeat' split
  all_goals first | exact .inl rfl | exact .inr rfl

theorem answering_closeBegin {t u : Sys} {env : Env} {e : Err} {r : Option Ret}
    (h : closeBegin t env (.getLedgerErr sequence e .user) = (u, r))
    (hsh : t.core.shutdown = some .empty) :
    (∀ x, r = some x → Answer sequence x) ∧ Answering sequence u := by
  obtain ⟨hr, hpc, -⟩ := closeBegin_open t hsh env (.getLedgerErr sequence e .user)
  rw [h] at hr hpc
  dsimp only at hr hpc
  refine ⟨fun x hx ↦ absurd (hx.symm.trans hr) nofun, ?_⟩
  simp only [Answering, hpc]
  exact ⟨e, rfl⟩

/-- A step of the reader, or of the blocked `GetLedger`, keeps `Answering`, and a return it
makes is an `Answer`. -/
theorem answering_step {u u' : Sys} {b : Action} {r : Option Ret} (hi : Inv False u)
    (hA : Answering sequence u) (hb : background b = true ∨ ∃ env, b = .resume env)
    (hstep : step u b = some (u', r)) :
    (∀ x, r = some x → Answer sequence x) ∧ Answering sequence u' := by
  have hf : u.fault = none := by
    rcases hi with h | h
    · simp [step, h] at hstep
    · exact h.1
  obtain ⟨-, hbase, hpc, -⟩ := hi.resolve_left (by simp [hf])
  rcases hb with hbg | ⟨env, rfl⟩
  · obtain ⟨rfl, -, hpc', -⟩ := background_step hbase hf hbg hstep
    refine ⟨nofun, ?_⟩
    unfold Answering at hA ⊢
    rw [hpc']
    cases hpcu : u.pc <;> simp only [hpcu] at hA ⊢
    case getLedger =>
      obtain ⟨rfl, rfl, hun, hopen, hle, hlat⟩ := hA
      obtain ⟨hn, hl, -⟩ := background_frame hf hbg hstep
      have hopen' : isClosed u'.core = false := by simpa [isClosed, hn] using hopen
      obtain ⟨-, hlat', -⟩ := latest_step hi hf hun hopen hstep hopen'
      exact ⟨rfl, rfl, hl ▸ hun, hopen', hn ▸ hle, hlat.trans hlat'⟩
    all_goals exact hA
  simp only [step, hf, Option.isSome_none, Bool.false_eq_true, ↓reduceIte] at hstep
  unfold Answering at hA
  unfold resume at hstep
  split at hstep
  · cases hstep
  · next sq k hpcu =>
    rw [hpcu] at hA
    obtain ⟨rfl, rfl, hun, hopen, hle, hlat⟩ := hA
    have hn0 : u.core.nextLedger ≠ 0 := by simpa [isClosed] using hopen
    obtain ⟨hsh, -⟩ := shutdown_of_open (hpcu ▸ hpc) hn0
    obtain ⟨buf, hm⟩ := hbase.metaC_of_shutdown (by simp [hsh])
    -- the buffer reaches `sequence`, so it is not empty
    have hpos : 0 < buf.length := by
      simp only [latestSequenceNat, Core.bufLen, hm] at hlat
      simp only [u32_le_iff, u32_ne_iff, UInt32.toNat_zero] at hle hn0
      omega
    obtain ⟨x, rest, rfl⟩ := List.exists_cons_of_length_pos hpos
    have h0 : (rest.length + 1 == 0) = false := by simp
    unfold getLedgerLoop at hstep
    simp only [Core.bufLen, hm, List.length_cons, h0, Bool.and_false, Bool.false_eq_true,
      ↓reduceIte, Option.some.injEq] at hstep
    rcases hbase.buffered _ false x hm (List.mem_cons_self _ _) with ⟨m, rfl, -⟩ | ⟨e, rfl⟩
    · simp only [getLedgerReceive, Sys.modify_core, ne_eq, ite_not] at hstep
      split at hstep
      · next hseq =>
        split at hstep
        · next hfound =>
          rw [if_neg (by simp [hun])] at hstep
          simp only [getLedgerReturn, Sys.finish, Prod.mk.injEq] at hstep
          obtain ⟨rfl, rfl⟩ := hstep
          refine ⟨fun x hx ↦ ?_, trivial⟩
          cases hx
          exact ⟨rfl, .inl ⟨rfl, hfound, rfl⟩⟩
        · next hne =>
          -- a ledger before `sequence`: the loop goes on with one item fewer
          simp only [Sys.await, Prod.mk.injEq] at hstep
          obtain ⟨rfl, rfl⟩ := hstep
          obtain ⟨hne0, hle'⟩ := u32_succ_le hle fun h ↦ hne (hseq.trans h)
          refine ⟨nofun, rfl, rfl, hun, by simpa [isClosed] using hne0, hle', ?_⟩
          rwa [latestSequenceNat_pop hm rfl rfl hn0 hne0]
      · exact answering_closeBegin hstep hsh
    · simp only [getLedgerReceive] at hstep
      exact answering_closeBegin hstep hsh
  · next k hpcu =>
    rw [hpcu] at hA
    obtain ⟨e, rfl⟩ := hA
    split at hstep
    · cases hstep
    · rw [Option.some.injEq] at hstep
      refine ⟨fun x hx ↦ ?_, ?_⟩
      · have hx' : (closeEnd u env (.getLedgerErr sequence e .user)).2 = some x := by
          rw [hstep]
          exact hx
        rw [closeEnd_getLedgerErr hx']
        exact ⟨rfl, .inr ⟨rfl, rfl⟩⟩
      · unfold Answering
        rcases closeEnd_getLedgerErr_pc u env e with h | h <;> rw [hstep] at h <;> rw [h]
        · trivial
        · rw [hpcu]
          exact ⟨e, rfl⟩
  · next rg hpcu =>
    rw [hpcu] at hA
    exact hA.elim

/-- The rest of the call, through any steps of the reader: every return is an `Answer`. -/
theorem answering_run {u w : Sys} {bs : List Action} {rs : List Ret} (hu : Reachable u)
    (hA : Answering sequence u) (hbs : ∀ b ∈ bs, background b = true ∨ ∃ env, b = .resume env)
    (hrun : run u bs = some (w, rs)) : ∀ x ∈ rs, Answer sequence x := by
  induction bs generalizing u rs with
  | nil =>
    obtain ⟨-, rfl⟩ : u = w ∧ [] = rs := by simpa [run] using hrun
    exact nofun
  | cons b bs ih =>
    obtain ⟨u₁, r, rs₂, hstep, hrun₂, rfl⟩ := run_cons_eq_some.mp hrun
    obtain ⟨hr, hA₁⟩ :=
      answering_step (inv_of_reachable hu) hA (hbs b (List.mem_cons_self _ _)) hstep
    intro x hx
    rcases List.mem_append.mp hx with hx | hx
    · exact hr x (Option.mem_toList.mp hx)
    · exact ih (.next hu hstep) hA₁ (fun b hb ↦ hbs b (List.mem_cons_of_mem _ hb)) hrun₂ x hx

/-- `GetLedger(sequence)` called on an open unbounded session whose buffer reaches
`sequence`, from `nextLedger` on: it returns at once from the cache, or enters its loop. -/
theorem answering_call {t u : Sys} {env : Env} {r : Option Ret} (hi : Inv False t)
    (hun : t.core.lastLedger = none) (hopen : isClosed t.core = false)
    (hle : t.core.nextLedger ≤ sequence) (hlat : sequence.toNat ≤ latestSequenceNat t.core)
    (hstep : step t (.call (.getLedger sequence) env) = some (u, r)) :
    (∀ x, r = some x → Answer sequence x) ∧ Answering sequence u := by
  have hf : t.fault = none := by
    rcases hi with h | h
    · simp [step, h] at hstep
    · exact h.1
  simp only [step, hf, Option.isSome_none, Bool.false_eq_true, ↓reduceIte] at hstep
  split at hstep
  · rw [Option.some.injEq] at hstep
    simp only [call, getLedgerBegin] at hstep
    split at hstep
    · next m hhit =>
      simp only [getLedgerReturn, Sys.finish, Prod.mk.injEq] at hstep
      obtain ⟨rfl, rfl⟩ := hstep
      refine ⟨fun x hx ↦ ?_, trivial⟩
      cases hx
      exact ⟨rfl, .inl ⟨rfl, (cacheHit_eq_some.mp hhit).2, rfl⟩⟩
    · rw [if_neg (by simp [hopen]), if_neg (show ¬sequence < t.core.nextLedger from Nat.not_lt.mpr hle)] at hstep
      simp only [Sys.await, Prod.mk.injEq] at hstep
      obtain ⟨rfl, rfl⟩ := hstep
      exact ⟨nofun, rfl, rfl, hun, hopen, hle, hlat⟩
  · cases hstep

end Answering

/-! ## The latest sequence of an unbounded session -/

/-- Over any interleaving of the reader and the consumer that keeps an unbounded session open,
`nextLedger - 1 + len(metaC)` over the naturals never falls. Each `GetLatestLedgerSequence`
returns it at its time, modulo `2^32` and with no error, so the returns do not fall while it
stays below `2^32`. After a return `L`, `GetLedger(sequence)` with
`nextLedger ≤ sequence ≤ L` returns the ledger `sequence` or an error, through any steps of
the reader. -/
theorem latest_sequence_in_session {s t : Sys} {as : List Action} {rs : List Ret}
    (hs : Reachable s) (hun : s.core.lastLedger = none) (hopen : isClosed s.core = false)
    (hrun : run s as = some (t, rs)) (hstay : staysOpen s as = true) :
    latestSequenceNat s.core ≤ latestSequenceNat t.core ∧
      (∃ vs : List Nat, vs.Sorted (· ≤ ·) ∧
        (∀ v ∈ vs, latestSequenceNat s.core ≤ v ∧ v ≤ latestSequenceNat t.core) ∧
        latestReturns rs = vs.map fun v ↦ (UInt32.ofNat v, none)) ∧
      (latestSequenceNat t.core < 2 ^ 32 → ((latestReturns rs).map Prod.fst).Sorted (· ≤ ·)) ∧
      ∀ L e, (L, e) ∈ latestReturns rs → ∀ sequence env bs u rs',
        t.core.nextLedger ≤ sequence → sequence ≤ L →
        (∀ b ∈ bs, background b = true ∨ ∃ env, b = .resume env) →
        run t (.call (.getLedger sequence) env :: bs) = some (u, rs') →
        ∀ x ∈ rs', Answer sequence x := by
  obtain ⟨hunt, hopent, hle, vs, hsort, hvs, hrets⟩ := latest_run hs hun hopen hrun hstay
  refine ⟨hle, ⟨vs, hsort, hvs, hrets⟩, fun hlt ↦ ?_, ?_⟩
  · -- below `2^32` the values are their own residues
    rw [hrets, List.map_map]
    refine List.pairwise_map.mpr (hsort.imp_of_mem fun ha hb hab ↦ ?_)
    have ha' := (hvs _ ha).2
    have hb' := (hvs _ hb).2
    simp only [Function.comp, u32_le_iff, u32_toNat_ofNat]
    rw [Nat.mod_eq_of_lt (by omega), Nat.mod_eq_of_lt (by omega)]
    exact hab
  · intro L e hL sequence env bs u rs' hle' hleL hbs hrun'
    obtain ⟨u₁, r, rs₂, hstep, hrun₂, rfl⟩ := run_cons_eq_some.mp hrun'
    have ht := hs.of_run as hrun
    have hlat : sequence.toNat ≤ latestSequenceNat t.core := by
      rw [hrets] at hL
      obtain ⟨v, hv, hveq⟩ := List.mem_map.mp hL
      obtain ⟨rfl, -⟩ := Prod.mk.inj hveq
      have := (hvs v hv).2
      have := Nat.mod_le v (2 ^ 32)
      rw [u32_le_iff, u32_toNat_ofNat] at hleL
      omega
    obtain ⟨hr, hA⟩ := answering_call (inv_of_reachable ht) hunt hopent hle' hlat hstep
    intro x hx
    rcases List.mem_append.mp hx with hx | hx
    · exact hr x (Option.mem_toList.mp hx)
    · exact answering_run (.next ht hstep) hA hbs hrun₂ x hx

/-- Two calls to `GetLatestLedgerSequence` with one ledger read between them. -/
def latestReads (env : Env) : List Action :=
  [.call .getLatestLedgerSequence env] ++ readOne ++ [.call .getLatestLedgerSequence env]

theorem latest_sequence_in_session_online :
    ∃ s t, run (Sys.fresh "hcnet-core.cfg")
        (.call (.prepareRange (unboundedRange 3)) (archiveEnv 100 (ledgerStream 2 0)) ::
          Online.fastForwardReads) = some (s, [.prepareRange (unboundedRange 3) none]) ∧
      run s (latestReads (archiveEnv 100 (ledgerStream 2 0))) =
        some (t, [.getLatestLedgerSequence 4 none, .getLatestLedgerSequence 5 none]) ∧
      latestSequenceNat s.core ≤ latestSequenceNat t.core ∧
      (∃ vs : List Nat, vs.Sorted (· ≤ ·) ∧
        (∀ v ∈ vs, latestSequenceNat s.core ≤ v ∧ v ≤ latestSequenceNat t.core) ∧
        latestReturns [.getLatestLedgerSequence 4 none, .getLatestLedgerSequence 5 none] =
          vs.map fun v ↦ (UInt32.ofNat v, none)) ∧
      (latestSequenceNat t.core < 2 ^ 32 →
        ((latestReturns [.getLatestLedgerSequence 4 none, .getLatestLedgerSequence 5 none]).map
          Prod.fst).Sorted (· ≤ ·)) ∧
      ∀ L e, (L, e) ∈ latestReturns [.getLatestLedgerSequence 4 none,
          .getLatestLedgerSequence 5 none] → ∀ sequence env bs u rs',
        t.core.nextLedger ≤ sequence → sequence ≤ L →
        (∀ b ∈ bs, background b = true ∨ ∃ env, b = .resume env) →
        run t (.call (.getLedger sequence) env :: bs) = some (u, rs') →
        ∀ x ∈ rs', Answer sequence x :=
  ⟨after (Sys.fresh "hcnet-core.cfg")
      (.call (.prepareRange (unboundedRange 3)) (archiveEnv 100 (ledgerStream 2 0)) ::
        Online.fastForwardReads),
    after (after (Sys.fresh "hcnet-core.cfg")
      (.call (.prepareRange (unboundedRange 3)) (archiveEnv 100 (ledgerStream 2 0)) ::
        Online.fastForwardReads)) (latestReads (archiveEnv 100 (ledgerStream 2 0))), rfl, rfl,
    latest_sequence_in_session (Reachable.of_run
      (.call (.prepareRange (unboundedRange 3)) (archiveEnv 100 (ledgerStream 2 0)) ::
        Online.fastForwardReads) (.fresh "hcnet-core.cfg") rfl) rfl rfl
      (show run _ (latestReads (archiveEnv 100 (ledgerStream 2 0))) = _ from rfl) rfl⟩

/-- An unbounded session from `4294967294`: the fast-forward reads the child's ledgers from
`4294967168` on. -/
def topEnv : Env := archiveEnv 4294967166 (ledgerStream 4294967168 0)

def topOpen : List Action :=
  .call (.prepareRange (unboundedRange 4294967294)) topEnv ::
    (List.replicate 128 (readOne ++ [.resume topEnv])).flatten

set_option maxRecDepth 20000 in
/-- The buffered end passes `2^32 - 1` while the session stays open, and
`GetLatestLedgerSequence` falls from `4294967295` to `0`. -/
theorem latest_sequence_wraps :
    ∃ s t, run (Sys.fresh "hcnet-core.cfg") topOpen =
        some (s, [.prepareRange (unboundedRange 4294967294) none]) ∧
      s.core.lastLedger = none ∧ isClosed s.core = false ∧
      staysOpen s (latestReads topEnv) = true ∧
      run s (latestReads topEnv) =
        some (t, [.getLatestLedgerSequence 4294967295 none, .getLatestLedgerSequence 0 none]) :=
  ⟨after (Sys.fresh "hcnet-core.cfg") topOpen,
    after (after (Sys.fresh "hcnet-core.cfg") topOpen) (latestReads topEnv), rfl, rfl, rfl, rfl, rfl⟩

end AuroraIngest.Captive.Latest
