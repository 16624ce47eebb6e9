import AuroraIngest.Captive.Deadlock

/-!
# Replaying a bounded range

A bounded session streams the ledgers of its range in order, and `GetLedger` walks forward
through them. A request behind the stream fails and changes nothing, unless `cachedMeta`
answers it: `GetLedger` reads the cached ledger before anything else, and neither `Close`
nor `PrepareRange` clears it, so a ledger cached in one session answers the same request in
the next one.

`ReplayOpen` is what holds while the session that `PrepareRange(BoundedRange(from, to))`
opened replays the ledgers `n0, …, to` of a child that writes them, `n0` being the
checkpoint start the catchup begins at: every frame read is accepted, buffered or held by
the reader, the reader stops at `to`, and the consumer's last request is behind the stream
only when the cache holds it. Each action keeps it, and each step of the reader, of the
child and of `GetLedger`'s loop takes one unit of `replayWork`.
-/

namespace AuroraIngest.Captive.Replay

open AuroraIngest.Captive.Ledger AuroraIngest.Captive.State AuroraIngest.Captive.Backend
open AuroraIngest.Captive.Step AuroraIngest.Captive.Invariant AuroraIngest.Captive.Representation
open AuroraIngest.Captive.Prepare

/-- A request behind the stream that the cache does not answer fails and changes nothing. -/
theorem getLedger_behind {s : Sys} (hf : s.fault = none) (hpc : s.pc = .idle) {sequence : UInt32}
    (hlt : sequence < s.core.nextLedger) (hc : cacheHit s.core sequence = none) (env : Env) :
    ∃ e, step s (.call (.getLedger sequence) env) =
      some (s, some (.getLedger sequence false default (some e))) := by
  have hopen : isClosed s.core = false := by
    simp only [isClosed, beq_eq_false_iff_ne]
    rintro h
    simp [h, u32_lt_iff] at hlt
  obtain ⟨core, reader, pc, fault, accepted, sessionStart⟩ := s
  subst hpc hf
  simp [step, call, getLedgerBegin, hc, hopen, hlt, getLedgerReturn, Sys.finish]

/-- The bounded session `[65, 66]` is opened and `GetLedger(66)` reads 64, 65 and 66: the
session closes with ledger 66 cached. -/
def cachedSessionRun : List Action :=
  offlineRun ++ readOne ++ [.call (.getLedger 66) (archiveEnv 100 (ledgerStream 64 0)),
    .resume (archiveEnv 100 (ledgerStream 64 0)), .resume (archiveEnv 100 (ledgerStream 64 0))] ++
    readOne ++ [.resume (archiveEnv 100 (ledgerStream 64 0)),
      .resume (archiveEnv 100 (ledgerStream 64 0))]

/-- The next session, `[65, 67]`, with a child that marks its ledgers with payload 1:
`GetLedger(66)`, then `GetLedger(65)`. -/
def staleCacheRun : List Action :=
  .call (.prepareRange (boundedRange 65 67)) (archiveEnv 100 (ledgerStream 64 1)) :: readOne ++
    [.resume (archiveEnv 100 (ledgerStream 64 1)),
      .call (.getLedger 66) (archiveEnv 100 (ledgerStream 64 1)),
      .call (.getLedger 65) (archiveEnv 100 (ledgerStream 64 1)),
      .resume (archiveEnv 100 (ledgerStream 64 1))] ++ readOne ++
    [.resume (archiveEnv 100 (ledgerStream 64 1))]

/-- In a session, a request behind the stream that the cache does not answer fails and
changes nothing; but the ledger cached in the previous session answers `GetLedger(66)` in
the next one, after which `GetLedger(65)` succeeds from the stream. -/
theorem getLedger_stale_cache :
    (∀ s env sequence, s.fault = none → s.pc = .idle → sequence < s.core.nextLedger →
      cacheHit s.core sequence = none →
      ∃ e, step s (.call (.getLedger sequence) env) =
        some (s, some (.getLedger sequence false default (some e)))) ∧
    ∃ s₁ s₂, run (Sys.fresh "") cachedSessionRun =
        some (s₁, [.prepareRange (boundedRange 65 66) none, .getLedger 66 true ⟨66, 0⟩ none]) ∧
      run s₁ staleCacheRun = some (s₂, [.prepareRange (boundedRange 65 67) none,
        .getLedger 66 true ⟨66, 0⟩ none, .getLedger 65 true ⟨65, 1⟩ none]) :=
  ⟨fun _ env _ hf hpc hlt hc ↦ getLedger_behind hf hpc hlt hc env, _, _, rfl, rfl⟩

/-- The child's first reads give the ledgers `n0, n0 + 1, …, to`, in order. -/
def Streams (p : Pipe) (n0 «to» : UInt32) : Prop :=
  ∀ i, n0.toNat + i ≤ «to».toNat → ∃ payload, p i = .frame ⟨n0 + UInt32.ofNat i, payload⟩

/-- The reads the ledgers `n0, …, to` take. -/
def rangeReads (n0 «to» : UInt32) : Nat := «to».toNat + 1 - n0.toNat

/-- The reader of the range: it makes `N` reads and returns after sending the last. -/
def ReaderOk (N : Nat) (rd : Reader) : Prop :=
  match rd.phase with
  | .top | .reading => rd.pos < N
  | .sending _ last => 0 < rd.pos ∧ rd.pos ≤ N ∧ (last = true ↔ rd.pos = N)
  | .done => rd.pos = N

/-- The steps the reader has left. -/
def readerWork (N : Nat) (rd : Reader) : Nat :=
  match rd.phase with
  | .top => 3 * (N - rd.pos)
  | .reading => 3 * (N - rd.pos) - 1
  | .sending _ _ => 3 * (N - rd.pos) + 1
  | .done => 0

/-- The steps a replay has left before the pending call returns: the reader's, the ledgers
`GetLedger` still has to take, and the child's own exit. -/
def replayWork (N : Nat) (s : Sys) : Nat :=
  (match s.reader with
    | some rd => readerWork N rd
    | none => 0) +
  (match s.pc with
    | .getLedger sequence _ => sequence.toNat + 2 - s.core.nextLedger.toNat
    | _ => 0) +
  (match s.core.hcnetCoreRunner with
    | some (.live rn) => if rn.alive then 1 else 0
    | _ => 0)

/-- Where the consumer stands; `lo` is the last request, at first `from`. -/
def ConsumerOk («from» «to» lo : UInt32) (s : Sys) : Prop :=
  match s.pc with
  | .prepareWait r => r = boundedRange «from» «to» ∧ lo = «from» ∧ s.accepted = []
  | .idle => «from» ≤ lo ∧ lo ≤ «to» ∧ s.core.nextLedger.toNat ≤ lo.toNat + 1 ∧
      (lo < s.core.nextLedger → ∃ m, s.core.cachedMeta = some m ∧ m.ledgerSequence = lo)
  | .getLedger sequence k => k = .user ∧ sequence = lo ∧ «from» ≤ lo ∧ lo ≤ «to» ∧
      s.core.nextLedger ≤ lo
  | _ => False

/-- The session `PrepareRange(BoundedRange(from, to))` opened, replaying the ledgers
`n0, …, to` of the pipe `p`, before `GetLedger` takes ledger `to`. -/
structure ReplayOpen (p : Pipe) (n0 «from» «to» lo : UInt32) (s : Sys) : Prop where
  inv : Inv False s
  fault : s.fault = none
  range : 2 ≤ n0.toNat ∧ n0 ≤ «from» ∧ «from» ≤ «to»
  lastLedger : s.core.lastLedger = some «to»
  blocking : s.core.blocking = true
  shutdown : s.core.shutdown = some .empty
  processExit : s.core.processExit = false
  start : s.sessionStart = n0
  pipe : ∃ rn, s.core.hcnetCoreRunner = some (.live rn) ∧ rn.metaPipe = some p
  reader : ∃ rd, s.reader = some rd ∧ rd.untilSequence = «to» ∧
    ReaderOk (rangeReads n0 «to») rd ∧ (takenWith s []).length = rd.pos
  consumed : s.accepted.length < rangeReads n0 «to»
  cache : ∀ m, s.core.cachedMeta = some m → m.ledgerSequence ≠ «to»
  consumer : ConsumerOk «from» «to» lo s
  streams : Streams p n0 «to»

/-- `GetLedger(to)` took the last ledger and is closing the session; the reader has
returned after the range's last read. -/
structure ReplayClosing (n0 «to» : UInt32) (s : Sys) : Prop where
  inv : Inv False s
  fault : s.fault = none
  pc : s.pc = .closeWait (.getLedgerLast «to» .user)
  reader : s.reader = some ⟨«to», rangeReads n0 «to», .done⟩
  runner : ∃ rn, s.core.hcnetCoreRunner = some (.live rn)

/-- The session is over: closed, with no runner and ledger `to` cached. -/
structure ReplayDone (n0 «to» : UInt32) (s : Sys) : Prop where
  fault : s.fault = none
  pc : s.pc = .idle
  closed : Closed s.core
  runner : s.core.hcnetCoreRunner = none
  reader : s.reader = some ⟨«to», rangeReads n0 «to», .done⟩
  cache : ∃ m, s.core.cachedMeta = some m ∧ m.ledgerSequence = «to»

/-- A replay of `BoundedRange(from, to)` whose last request is `lo`. -/
def Replaying (p : Pipe) (n0 «from» «to» lo : UInt32) (s : Sys) : Prop :=
  ReplayOpen p n0 «from» «to» lo s ∨ (lo = «to» ∧ (ReplayClosing n0 «to» s ∨ ReplayDone n0 «to» s))

/-- The consumer's calls are `GetLedger` requests from the last one on, not past `to`, and
every `Close` of the child succeeds. -/
def ReplayAction («to» lo : UInt32) : Action → Prop
  | .call (.getLedger sequence) _ => lo ≤ sequence ∧ sequence ≤ «to»
  | .call _ _ => False
  | .resume env => env.closeErr = none
  | _ => True

/-- The last request after an action. -/
def lastRequest (lo : UInt32) : Action → UInt32
  | .call (.getLedger sequence) _ => sequence
  | _ => lo

/-- Every action of a run is a replay action, from the last request before it. -/
def Allowed («to» : UInt32) : UInt32 → List Action → Prop
  | _, [] => True
  | lo, a :: as => ReplayAction «to» lo a ∧ Allowed «to» (lastRequest lo a) as

/-! ## The open session -/

theorem ReaderOk.pos_le {N : Nat} {rd : Reader} (h : ReaderOk N rd) : rd.pos ≤ N := by
  unfold ReaderOk at h
  split at h <;> omega

section Open

variable {p : Pipe} {n0 «from» «to» lo : UInt32} {s : Sys}

theorem ReplayOpen.stream (h : ReplayOpen p n0 «from» «to» lo s) :
    ReadsFrom p 0 (takenWith s []) ∧ Consecutive n0 s.accepted s.core.nextLedger := by
  obtain ⟨rn, hrn, hp⟩ := h.pipe
  rcases h.inv with hf | ⟨-, -, -, hs⟩
  · simp [h.fault] at hf
  obtain ⟨rn', p', rd, h1, h2, -, hst⟩ := hs h.shutdown
  rw [hrn, Option.some.injEq, RunnerRef.live.injEq] at h1
  subst h1
  rw [hp, Option.some.injEq] at h2
  subst h2
  exact ⟨hst.reads, h.start ▸ hst.consecutive⟩

/-- `nextLedger` counts the accepted ledgers from `n0`. -/
theorem ReplayOpen.nextLedger_toNat (h : ReplayOpen p n0 «from» «to» lo s) :
    s.core.nextLedger.toNat = n0.toNat + s.accepted.length := by
  have hc := (consecutive_getElem h.stream.2).2
  have hlen := h.consumed
  have hto := u32_toNat_lt «to»
  rw [hc, u32_toNat_add, u32_toNat_ofNat]
  simp only [rangeReads] at hlen
  omega

/-- The head of the buffer is the frame at `nextLedger`. -/
theorem ReplayOpen.head (h : ReplayOpen p n0 «from» «to» lo s) {x : MetaResult}
    {rest : List MetaResult} (hm : s.core.metaC = some ⟨x :: rest, false⟩) :
    ∃ m, x = ⟨some m, none⟩ ∧ m.ledgerSequence = s.core.nextLedger := by
  have hsplit : takenWith s [] =
      s.accepted.map (fun m ↦ ⟨some m, none⟩) ++ x :: (rest ++ heldOf s.reader) := by
    simp [takenWith, bufferOf, hm]
  have hreads := h.stream.1
  rw [hsplit, readsFrom_append, List.length_map, Nat.zero_add] at hreads
  have hlen := h.consumed
  have hto := h.range.2.2
  have hn0 := h.range.2.1
  obtain ⟨payload, hp⟩ := h.streams s.accepted.length (by
    simp only [rangeReads, u32_le_iff] at hlen hto hn0
    omega)
  rcases hreads.2.1 with ⟨m, hpm, rfl⟩ | ⟨hnf, -⟩
  · rw [hp, PipeItem.frame.injEq] at hpm
    exact ⟨m, rfl, by rw [← hpm, (consecutive_getElem h.stream.2).2]⟩
  · exact absurd hp (hnf _)

theorem ConsumerOk.of_eq {lo : UInt32} {t : Sys} (h : ConsumerOk «from» «to» lo s)
    (hpc : t.pc = s.pc) (ha : t.accepted = s.accepted) (hn : t.core.nextLedger = s.core.nextLedger)
    (hcm : t.core.cachedMeta = s.core.cachedMeta) : ConsumerOk «from» «to» lo t := by
  unfold ConsumerOk
  rw [hpc, ha, hn, hcm]
  exact h

/-- A step that moves only the reader, the buffer or the child keeps the open replay. -/
theorem ReplayOpen.of_reader (h : ReplayOpen p n0 «from» «to» lo s) {t : Sys}
    (hinv : Inv False t) (hf : t.fault = none) (hpc : t.pc = s.pc) (ha : t.accepted = s.accepted)
    (hss : t.sessionStart = s.sessionStart) (hcore : t.core.nextLedger = s.core.nextLedger ∧
      t.core.lastLedger = s.core.lastLedger ∧ t.core.blocking = s.core.blocking ∧
      t.core.shutdown = s.core.shutdown ∧ t.core.processExit = s.core.processExit ∧
      t.core.cachedMeta = s.core.cachedMeta)
    (hp : ∃ rn, t.core.hcnetCoreRunner = some (.live rn) ∧ rn.metaPipe = some p)
    (hrd : ∃ rd, t.reader = some rd ∧ rd.untilSequence = «to» ∧
      ReaderOk (rangeReads n0 «to») rd ∧ (takenWith t []).length = rd.pos) :
    ReplayOpen p n0 «from» «to» lo t := by
  obtain ⟨hn, hl, hbl, hsh, hpe, hcm⟩ := hcore
  exact ⟨hinv, hf, h.range, hl ▸ h.lastLedger, hbl ▸ h.blocking, hsh ▸ h.shutdown,
    hpe ▸ h.processExit, hss ▸ h.start, hp, hrd, ha ▸ h.consumed, hcm ▸ h.cache,
    h.consumer.of_eq hpc ha hn hcm, h.streams⟩

theorem replayOpen_readerEnter (h : ReplayOpen p n0 «from» «to» lo s) {s' : Sys}
    {r : Option Ret} (hstep : step s .readerEnter = some (s', r)) :
    r = none ∧ s'.pc = s.pc ∧ ReplayOpen p n0 «from» «to» lo s' ∧
      replayWork (rangeReads n0 «to») s' < replayWork (rangeReads n0 «to») s := by
  have hinv := (ok_step h.inv (actionOk_false _) hstep).1
  obtain ⟨⟨u, pos, ph⟩, hrd, hu, hok, hlen⟩ := h.reader
  simp only [step, h.fault, Option.isSome_none, Bool.false_eq_true, ↓reduceIte, readerEnter,
    hrd] at hstep
  cases ph <;> simp only [Option.map_some', Option.map_none', Option.some.injEq, Prod.mk.injEq,
    reduceCtorEq] at hstep
  obtain ⟨rfl, rfl⟩ := hstep
  refine ⟨rfl, rfl, h.of_reader hinv rfl rfl rfl rfl ⟨rfl, rfl, rfl, rfl, rfl, rfl⟩ h.pipe
    ⟨_, rfl, hu, hok, by simpa [takenWith, heldOf, hrd] using hlen⟩, ?_⟩
  simp only [ReaderOk] at hok
  simp only [replayWork, hrd, readerWork]
  omega

/-- A read inside the range takes the next frame; the reader marks the frame `to` as its
last. -/
theorem replayOpen_readerRead (h : ReplayOpen p n0 «from» «to» lo s) {s' : Sys}
    {r : Option Ret} (hstep : step s .readerRead = some (s', r)) :
    r = none ∧ s'.pc = s.pc ∧ ReplayOpen p n0 «from» «to» lo s' ∧
      replayWork (rangeReads n0 «to») s' < replayWork (rangeReads n0 «to») s := by
  have hinv := (ok_step h.inv (actionOk_false _) hstep).1
  obtain ⟨⟨u, pos, ph⟩, hrd, hu, hok, hlen⟩ := h.reader
  obtain ⟨rn, hrn, hp⟩ := h.pipe
  simp only [step, h.fault, Option.isSome_none, Bool.false_eq_true, ↓reduceIte, readerRead,
    hrd] at hstep
  cases ph <;> simp only [reduceCtorEq] at hstep
  simp only [ReaderOk] at hok
  obtain ⟨hn0, hfrom, hto⟩ := h.range
  simp only [u32_le_iff] at hfrom hto
  obtain ⟨payload, hframe⟩ := h.streams pos (by simp only [rangeReads] at hok; omega)
  simp only [hrn, readLedgerMetaFromPipe, hp, hframe, Option.some.injEq, Prod.mk.injEq] at hstep
  obtain ⟨rfl, rfl⟩ := hstep
  simp only at hu
  subst hu
  have hlast : ((u != 0 && decide (u ≤ n0 + UInt32.ofNat pos)) = true ↔
      pos + 1 = rangeReads n0 u) := by
    have hlt := u32_toNat_lt u
    simp only [rangeReads] at hok ⊢
    simp only [Bool.and_eq_true, bne_iff_ne, ne_eq, u32_eq_iff, UInt32.toNat_zero,
      decide_eq_true_eq, u32_le_iff, u32_toNat_add, u32_toNat_ofNat]
    omega
  refine ⟨rfl, rfl, h.of_reader hinv rfl rfl rfl rfl ⟨rfl, rfl, rfl, rfl, rfl, rfl⟩ ⟨rn, hrn, hp⟩
    ⟨_, rfl, rfl, ⟨Nat.succ_pos pos, hok, hlast⟩, ?_⟩, ?_⟩
  · simp only [takenWith_length, heldOf, hrd, List.length_singleton, List.length_nil] at hlen ⊢
    omega
  · simp only [replayWork, hrd, readerWork]
    omega

/-- The reader's send moves its frame into the buffer; after the frame `to` it returns. -/
theorem replayOpen_readerSend (h : ReplayOpen p n0 «from» «to» lo s) {s' : Sys}
    {r : Option Ret} (hstep : step s .readerSend = some (s', r)) :
    r = none ∧ s'.pc = s.pc ∧ ReplayOpen p n0 «from» «to» lo s' ∧
      replayWork (rangeReads n0 «to») s' < replayWork (rangeReads n0 «to») s := by
  have hinv := (ok_step h.inv (actionOk_false _) hstep).1
  obtain ⟨⟨u, pos, ph⟩, hrd, hu, hok, hlen⟩ := h.reader
  rcases h.inv with hf | ⟨-, hb, -, -⟩
  · simp [h.fault] at hf
  obtain ⟨buf, hm⟩ := hb.metaC_of_shutdown (by simp [h.shutdown])
  simp only [step, h.fault, Option.isSome_none, Bool.false_eq_true, ↓reduceIte, readerSend,
    hrd] at hstep
  cases ph <;> simp only [reduceCtorEq] at hstep
  next x last =>
  simp only [hm, Bool.false_eq_true, ↓reduceIte] at hstep
  split at hstep
  · simp only [Option.some.injEq, Prod.mk.injEq] at hstep
    obtain ⟨rfl, rfl⟩ := hstep
    simp only [ReaderOk] at hok
    obtain ⟨hpos, hle, hlast⟩ := hok
    refine ⟨rfl, rfl, h.of_reader hinv rfl rfl rfl rfl ⟨rfl, rfl, rfl, rfl, rfl, rfl⟩ h.pipe
      ⟨_, rfl, hu, ?_, ?_⟩, ?_⟩
    · cases last
      · exact Nat.lt_of_le_of_ne hle fun h ↦ absurd (hlast.2 h) Bool.false_ne_true
      · exact hlast.1 rfl
    · simp only [takenWith_length, heldOf, bufferOf, hm, hrd, List.length_append,
        List.length_singleton] at hlen ⊢
      cases last <;> simp only [Bool.false_eq_true, ↓reduceIte, List.length_nil] <;> omega
    · simp only [replayWork, hrd, readerWork]
      cases last
      · simp only [Bool.false_eq_true, ↓reduceIte]
        omega
      · simp only [↓reduceIte]
        omega
  · cases hstep

/-- The child's own exit leaves the replay, with one step of work fewer. -/
theorem replayOpen_childExit (h : ReplayOpen p n0 «from» «to» lo s) {e : Option Err} {s' : Sys}
    {r : Option Ret} (hstep : step s (.childExit e) = some (s', r)) :
    r = none ∧ s'.pc = s.pc ∧ ReplayOpen p n0 «from» «to» lo s' ∧
      replayWork (rangeReads n0 «to») s' < replayWork (rangeReads n0 «to») s := by
  have hinv := (ok_step h.inv (actionOk_false _) hstep).1
  obtain ⟨rn, hrn, hp⟩ := h.pipe
  simp only [step, h.fault, Option.isSome_none, Bool.false_eq_true, ↓reduceIte, childExit,
    hrn] at hstep
  split at hstep
  · next halive =>
    simp only [Option.map_some', Option.some.injEq, Prod.mk.injEq] at hstep
    obtain ⟨rfl, rfl⟩ := hstep
    obtain ⟨rd, hrd, hu, hok, hlen⟩ := h.reader
    refine ⟨rfl, rfl, h.of_reader hinv h.fault rfl rfl rfl ⟨rfl, rfl, rfl, rfl, rfl, rfl⟩ ⟨_, rfl, hp⟩
      ⟨rd, hrd, hu, hok, hlen⟩, ?_⟩
    simp [replayWork, hrn, halive]
  · simp at hstep

/-- With `shutdown` open, the reader takes neither of its `shutdown` cases. -/
theorem replayOpen_readerShutdown (h : ReplayOpen p n0 «from» «to» lo s) :
    step s .readerShutdown = none ∧ step s .readerAbort = none := by
  obtain ⟨⟨u, pos, ph⟩, hrd, -⟩ := h.reader
  have hsh : s.core.shutdownClosed = false := by simp [Core.shutdownClosed, h.shutdown, Chan.empty]
  cases ph <;> simp [step, h.fault, readerShutdown, readerAbort, hrd, hsh]

/-- `PrepareRange`'s wait returns nil once the reader has buffered the first ledger. -/
theorem replayOpen_prepareWait (h : ReplayOpen p n0 «from» «to» lo s)
    (hpc : s.pc = .prepareWait (boundedRange «from» «to»)) {env : Env} {s' : Sys}
    {r : Option Ret} (hstep : step s (.resume env) = some (s', r)) :
    r = some (.prepareRange (boundedRange «from» «to») none) ∧
      ReplayOpen p n0 «from» «to» «from» s' := by
  have hinv := (ok_step h.inv (actionOk_false _) hstep).1
  have hc := h.consumer
  simp only [ConsumerOk, hpc] at hc
  obtain ⟨-, -, hacc⟩ := hc
  have hsh : s.core.shutdownClosed = false := by simp [Core.shutdownClosed, h.shutdown, Chan.empty]
  simp only [step, h.fault, Option.isSome_none, Bool.false_eq_true, ↓reduceIte, resume, hpc,
    prepareRangeWait, hsh, h.processExit] at hstep
  split at hstep
  · simp only [Option.some.injEq, Sys.finish, Prod.mk.injEq] at hstep
    obtain ⟨rfl, rfl⟩ := hstep
    refine ⟨rfl, ⟨hinv, h.fault, h.range, h.lastLedger, h.blocking, h.shutdown, h.processExit,
      h.start, h.pipe, h.reader, h.consumed, h.cache, ?_, h.streams⟩⟩
    have hn := h.nextLedger_toNat
    have hfrom := h.range.2.1
    rw [hacc, List.length_nil, Nat.add_zero] at hn
    simp only [u32_le_iff] at hfrom
    show «from» ≤ «from» ∧ «from» ≤ «to» ∧ s.core.nextLedger.toNat ≤ «from».toNat + 1 ∧
      («from» < s.core.nextLedger → _)
    exact ⟨UInt32.le_refl _, h.range.2.2, by omega, fun hlt ↦ absurd hlt (by
      simp only [u32_lt_iff]; omega)⟩
  · cases hstep

/-- Once the buffer's head is the range's last frame, the reader has returned after the
range's last read. -/
theorem ReplayOpen.reader_done (h : ReplayOpen p n0 «from» «to» lo s) {x : MetaResult}
    {rest : List MetaResult} (hm : s.core.metaC = some ⟨x :: rest, false⟩)
    (hlast : s.accepted.length + 1 = rangeReads n0 «to») :
    s.reader = some ⟨«to», rangeReads n0 «to», .done⟩ := by
  obtain ⟨⟨u, pos, ph⟩, hrd, hu, hok, hlen⟩ := h.reader
  simp only [takenWith_length, bufferOf, hm, List.length_cons] at hlen
  have hN := hok.pos_le
  cases ph <;> simp only [ReaderOk, heldOf, hrd, List.length_nil, List.length_singleton] at hok hlen hN
  all_goals first | omega | rw [hrd, hok, ← hu]

/-- `GetLedger`'s loop takes the frame at `nextLedger`: it returns it when it is the one
requested, closes the session when it is `to`, and waits again otherwise. -/
theorem replayOpen_getLedger (h : ReplayOpen p n0 «from» «to» lo s)
    (hpc : s.pc = .getLedger lo .user) {env : Env} {s' : Sys} {r : Option Ret}
    (hstep : step s (.resume env) = some (s', r)) :
    (r = none ∧ ReplayOpen p n0 «from» «to» lo s' ∧ s'.pc = .getLedger lo .user ∧
      replayWork (rangeReads n0 «to») s' < replayWork (rangeReads n0 «to») s) ∨
    (∃ m, r = some (.getLedger lo true m none) ∧ m.ledgerSequence = lo ∧ lo ≠ «to» ∧
      ReplayOpen p n0 «from» «to» lo s') ∨
    (lo = «to» ∧ r = none ∧ ReplayClosing n0 «to» s' ∧
      replayWork (rangeReads n0 «to») s' < replayWork (rangeReads n0 «to») s) := by
  have hinv := (ok_step h.inv (actionOk_false _) hstep).1
  have hc := h.consumer
  simp only [ConsumerOk, hpc] at hc
  obtain ⟨-, -, hfrom, hto, hle⟩ := hc
  rcases h.inv with hf | ⟨-, hb, -, -⟩
  · simp [h.fault] at hf
  obtain ⟨buf, hm⟩ := hb.metaC_of_shutdown (by simp [h.shutdown])
  simp only [step, h.fault, Option.isSome_none, Bool.false_eq_true, ↓reduceIte, resume, hpc,
    getLedgerLoop, h.blocking, hm, Bool.not_true, Bool.false_and] at hstep
  cases buf with
  | nil => simp at hstep
  | cons x rest =>
  obtain ⟨m, rfl, hseq⟩ := h.head hm
  have hn := h.nextLedger_toNat
  have hlt := u32_toNat_lt «to»
  have hcons := h.consumed
  obtain ⟨rd, hrd, hu, hok, hlen⟩ := h.reader
  have hlen' : (s.accepted ++ [m]).length + rest.length + (heldOf s.reader).length = rd.pos := by
    simp only [takenWith_length, bufferOf, hm, List.length_cons] at hlen
    simp only [List.length_append, List.length_singleton]
    omega
  simp only [rangeReads, u32_le_iff] at hcons hto hle hfrom
  simp only [Option.some.injEq, getLedgerReceive, Sys.modify_core, hseq, ne_eq,
    not_true_eq_false, ↓reduceIte] at hstep
  split at hstep
  · next hfound =>
    split at hstep
    · next hlast =>
      -- the range's last ledger: `Close` waits for the reader, which has returned
      rw [h.lastLedger, Option.some.injEq] at hlast
      subst hlast hfound
      refine .inr (.inr ⟨rfl, ?_⟩)
      simp only [closeBegin, Sys.modify_core, h.shutdown, Chan.empty, Bool.false_eq_true,
        ↓reduceIte, Sys.await, Prod.mk.injEq] at hstep
      obtain ⟨rfl, rfl⟩ := hstep
      refine ⟨rfl, ⟨hinv, h.fault, rfl, h.reader_done hm (by simp only [rangeReads]; omega),
        h.pipe.imp fun _ h ↦ h.1⟩, ?_⟩
      · simp only [replayWork, Sys.modify_core, Sys.modify_reader, Sys.modify_pc, hpc]
        omega
    · next hlast =>
      -- the requested ledger, before the range's last: `GetLedger` returns it
      have hne : s.core.nextLedger ≠ «to» := fun h' ↦ hlast (by rw [h.lastLedger, h'])
      subst hfound
      simp only [getLedgerReturn, Sys.finish, Prod.mk.injEq] at hstep
      obtain ⟨rfl, rfl⟩ := hstep
      refine .inr (.inl ⟨m, rfl, hseq, hne, hinv, h.fault, h.range, h.lastLedger, h.blocking,
        h.shutdown, h.processExit, h.start, h.pipe, ⟨rd, hrd, hu, hok, ?_⟩, ?_,
        fun m' hm' ↦ ?_, ?_, h.streams⟩)
      · simpa [takenWith_length, bufferOf] using hlen'
      · rw [u32_ne_iff] at hne
        simp only [Sys.modify_accepted, Sys.modify_core, List.length_append, List.length_singleton,
          rangeReads]
        omega
      · cases hm'
        rwa [hseq]
      · refine ⟨hfrom, hto, ?_, fun _ ↦ ⟨m, rfl, hseq⟩⟩
        simp only [Sys.modify_core, u32_toNat_add, u32_toNat_lit, Sys.modify_accepted]
        omega
  · next hfound =>
    -- an earlier ledger: the loop goes on
    simp only [Sys.await, Prod.mk.injEq] at hstep
    obtain ⟨rfl, rfl⟩ := hstep
    have hlt' : s.core.nextLedger.toNat < lo.toNat := by
      rw [u32_eq_iff] at hfound
      omega
    refine .inl ⟨rfl, ⟨hinv, h.fault, h.range, h.lastLedger, h.blocking, h.shutdown,
      h.processExit, h.start, h.pipe, ⟨rd, hrd, hu, hok, ?_⟩, ?_, h.cache, ?_, h.streams⟩, rfl, ?_⟩
    · simpa [takenWith_length, bufferOf] using hlen'
    · simp only [Sys.modify_accepted, List.length_append, List.length_singleton, rangeReads]
      omega
    · refine ⟨rfl, rfl, hfrom, hto, ?_⟩
      simp only [u32_le_iff, u32_toNat_add, u32_toNat_lit]
      omega
    · simp only [replayWork, Sys.modify_core, Sys.modify_reader, hpc, u32_toNat_add,
        u32_toNat_lit]
      omega
/-- The same open replay, after another request. -/
theorem ReplayOpen.with_consumer {lo' : UInt32} (h : ReplayOpen p n0 «from» «to» lo s)
    (hc : ConsumerOk «from» «to» lo' s) : ReplayOpen p n0 «from» «to» lo' s :=
  { h with consumer := hc }

/-- An idle call `GetLedger(sequence)`, from the last request on and not past `to`, is
answered by the cache or waits for the stream; it is never behind the stream. -/
theorem replayOpen_call (h : ReplayOpen p n0 «from» «to» lo s) (hpc : s.pc = .idle)
    {sequence : UInt32} (hlo : lo ≤ sequence) (hhi : sequence ≤ «to») {env : Env} {s' : Sys}
    {r : Option Ret} (hstep : step s (.call (.getLedger sequence) env) = some (s', r)) :
    (r = none ∧ ReplayOpen p n0 «from» «to» sequence s' ∧ s'.pc = .getLedger sequence .user) ∨
    (∃ m, r = some (.getLedger sequence true m none) ∧ m.ledgerSequence = sequence ∧
      sequence ≠ «to» ∧ ReplayOpen p n0 «from» «to» sequence s') := by
  have hinv := (ok_step h.inv (actionOk_false _) hstep).1
  have hc := h.consumer
  simp only [ConsumerOk, hpc] at hc
  obtain ⟨hfrom, -, hnl, hcache⟩ := hc
  have hn := h.nextLedger_toNat
  have hn0 := h.range.1
  simp only [step, h.fault, Option.isSome_none, Bool.false_eq_true, ↓reduceIte, hpc, call,
    getLedgerBegin, Option.some.injEq] at hstep
  have hfrom' : «from» ≤ sequence := UInt32.le_trans hfrom hlo
  split at hstep
  · next m hhit =>
    obtain ⟨hm, hseq⟩ := cacheHit_eq_some.mp hhit
    simp only [getLedgerReturn, Sys.finish, Prod.mk.injEq] at hstep
    obtain ⟨rfl, rfl⟩ := hstep
    have ht : ({ s with pc := .idle } : Sys) = s := by rw [← hpc]
    refine .inr ⟨m, rfl, hseq, hseq ▸ h.cache m hm, ht ▸ h.with_consumer ?_⟩
    simp only [ConsumerOk, hpc, u32_le_iff] at hlo ⊢
    exact ⟨hfrom', hhi, by omega, fun _ ↦ ⟨m, hm, hseq⟩⟩
  · next hhit =>
    have hopen : isClosed s.core = false := by
      simp only [isClosed, beq_eq_false_iff_ne, u32_ne_iff, UInt32.toNat_zero]
      omega
    simp only [hopen, Bool.false_eq_true, ↓reduceIte] at hstep
    split at hstep
    · next hlt =>
      -- behind the stream only at the last request, which the cache holds
      have hlo' : sequence = lo := by
        simp only [u32_lt_iff, u32_le_iff] at hlt hlo
        exact (u32_eq_iff _ _).mpr (by omega)
      obtain ⟨m, hm, hseq⟩ := hcache (hlo' ▸ hlt)
      exact absurd (cacheHit_eq_some.mpr ⟨hm, hseq.trans hlo'.symm⟩) (by simp [hhit])
    · next hge =>
      simp only [Sys.await, Prod.mk.injEq] at hstep
      obtain ⟨rfl, rfl⟩ := hstep
      refine .inl ⟨rfl, ⟨hinv, h.fault, h.range, h.lastLedger, h.blocking, h.shutdown,
        h.processExit, h.start, h.pipe, h.reader, h.consumed, h.cache, ?_, h.streams⟩, rfl⟩
      refine ⟨rfl, rfl, hfrom', hhi, ?_⟩
      simp only [u32_lt_iff, u32_le_iff, not_lt] at hge ⊢
      exact hge

end Open

end AuroraIngest.Captive.Replay
