import AuroraIngest.Captive.Step

/-!
# The invariant of the captive backend

Between calls, `nextLedger` tells whether a session is open: when it is not 0, `shutdown`
and `metaC` are the session's channels and are not closed, and a runner is present; when it
is 0, `shutdown` is nil. Inside a call the invariant depends on where the consumer is
blocked (`PcOk`): in `GetLedger`'s loop and in `PrepareRange`'s wait the session is open; in
`Close`'s wait `shutdown` is closed and `metaC` is not yet. `Base` is what holds whatever the
consumer does: a running reader has a runner and an open `metaC` to send to, and every item
it produces is a frame or an error.

A frame whose sequence is `2^32 - 1` makes `nextLedger++` wrap to 0, the value `isClosed`
reads as closed, while the session's channels stay open. The invariant is stated once for
both cases: under `below`, every frame the child writes is below `2^32 - 1` and an open
session has a nonzero `nextLedger`; without it, any pipe is allowed.

`Session` is the read-ahead buffer's FIFO law: while a session is open, the ledgers the
consumer accepted, the buffered items and the item the reader is sending are the items of
the pipe's first reads, in order, and the accepted ledgers carry consecutive sequences from
the session's first `nextLedger` on.
-/

namespace AuroraIngest.Captive.Invariant

open AuroraIngest.Captive.Ledger AuroraIngest.Captive.State AuroraIngest.Captive.Backend
open AuroraIngest.Captive.Step

/-- Under `below`, a frame after which `nextLedger + 1` does not wrap. -/
def FrameOk (below : Prop) (m : LedgerCloseMeta) : Prop :=
  below → m.ledgerSequence.toNat + 1 < 2 ^ 32

/-- An item the reader produces: a frame, or an error. -/
def ItemOk (below : Prop) (x : MetaResult) : Prop :=
  (∃ m, x = ⟨some m, none⟩ ∧ FrameOk below m) ∨ ∃ e, x = ⟨none, some e⟩

def PipeOk (below : Prop) (p : Pipe) : Prop := ∀ n m, p n = .frame m → FrameOk below m

/-- Every child the environment starts writes such frames. -/
def EnvOk (below : Prop) (env : Env) : Prop := ∀ p, env.start = .ok p → PipeOk below p

def ActionOk (below : Prop) : Action → Prop
  | .call _ env => EnvOk below env
  | .resume env => EnvOk below env
  | _ => True

theorem actionOk_false (a : Action) : ActionOk False a := by
  have henv : ∀ env, EnvOk False env := fun _ _ _ _ _ _ h ↦ h.elim
  cases a <;> first | exact henv _ | trivial

/-- What holds of the channels, the runner and the reader whatever the consumer does. -/
structure Base (below : Prop) (s : Sys) : Prop where
  runner_of_reader : s.readerRunning = true → ∃ rn, s.core.hcnetCoreRunner = some (.live rn)
  reader_of_shutdown : s.core.shutdown = none → s.readerRunning = false
  metaC_of_shutdown : s.core.shutdown ≠ none → ∃ buf, s.core.metaC = some ⟨buf, false⟩
  buffered : ∀ buf b x, s.core.metaC = some ⟨buf, b⟩ → x ∈ buf → ItemOk below x
  held : ∀ u pos x last, s.reader = some ⟨u, pos, .sending x last⟩ → ItemOk below x
  pipe : ∀ rn p, s.core.hcnetCoreRunner = some (.live rn) → rn.metaPipe = some p →
    PipeOk below p

/-- The fields `Close` leaves: no session, no bound, no `shutdown` channel. -/
def Closed (c : Core) : Prop := c.nextLedger = 0 ∧ c.lastLedger = none ∧ c.shutdown = none

/-- An open session: `shutdown` is open, a runner is present, and under `below` the
`nextLedger` is not 0. -/
def Opened (below : Prop) (c : Core) : Prop :=
  (below → c.nextLedger ≠ 0) ∧ c.shutdown = some .empty ∧
    ∃ rn, c.hcnetCoreRunner = some (.live rn)

/-- `Close` between `close(c.shutdown)` and `close(c.metaC)`. -/
def Closing (c : Core) : Prop :=
  c.nextLedger = 0 ∧ c.lastLedger = none ∧ c.shutdown = some ⟨[], true⟩

/-- What a `PrepareRange(r)` that returned nil leaves, for a range from ledger 2 on whose end,
when it is bounded, is not before its start: `IsPrepared(r)`, unless the online fast-forward
consumed `r.from` and left `nextLedger` one past it. -/
def PreparedFor (c : Core) (r : Range) : Prop :=
  2 ≤ r.«from» → (r.bounded = true → r.«from» ≤ r.«to») →
    isPrepared c r = true ∨ (r.bounded = false ∧ c.nextLedger = r.«from» + 1)

/-- The online fast-forward: the blocking `GetLedger(r.from)` in the online session just
opened for the unbounded `r`, which has not passed `r.from`. -/
def FastForwardOk (c : Core) (sequence : UInt32) (r : Range) : Prop :=
  c.lastLedger = none ∧ sequence = r.«from» ∧ r.bounded = false ∧ c.nextLedger ≠ 0 ∧
    c.nextLedger ≤ sequence

/-- `PrepareRange` opens an offline session for a bounded range and an online one for an
unbounded range. A `Close` that `GetLedger` makes after the last ledger of a bounded session
returns the cached ledger; the fast-forward `GetLedger` runs in an online session and never
makes one. -/
def CloseCallerOk (c : Core) : CloseCaller → Prop
  | .openOffline r => r.bounded = true
  | .openOnline r => r.bounded = false
  | .getLedgerLast sequence .user => ∃ m, c.cachedMeta = some m ∧ m.ledgerSequence = sequence
  | .getLedgerLast _ (.fastForward _) => False
  | _ => True

/-- What holds where the consumer is blocked. -/
def PcOk (below : Prop) (c : Core) : Pc → Prop
  | .idle => Closed c ∨ Opened below c
  | .getLedger _ .user => Opened below c
  | .getLedger sequence (.fastForward r) => Opened below c ∧ FastForwardOk c sequence r
  | .prepareWait r => Opened below c ∧ PreparedFor c r
  | .closeWait k => Closing c ∧ CloseCallerOk c k

def bufferOf (c : Core) : List MetaResult :=
  match c.metaC with
  | some ch => ch.buf
  | none => []

def heldOf : Option Reader → List MetaResult
  | some ⟨_, _, .sending x _⟩ => [x]
  | _ => []

/-- The session's items in the order the reader produced them: the accepted ledgers, the
items the consumer took and has not yet checked, the buffer and the item being sent. -/
def takenWith (s : Sys) (pending : List MetaResult) : List MetaResult :=
  s.accepted.map (fun m ↦ ⟨some m, none⟩) ++ pending ++ bufferOf s.core ++ heldOf s.reader

theorem takenWith_length (s : Sys) : (takenWith s []).length =
    s.accepted.length + (bufferOf s.core).length + (heldOf s.reader).length := by
  simp [takenWith, Nat.add_assoc]

/-- The item the `i`-th read of `p` gives: its frame, or an error where there is none. -/
def ItemOfRead (p : Pipe) (i : Nat) (x : MetaResult) : Prop :=
  (∃ m, p i = .frame m ∧ x = ⟨some m, none⟩) ∨ ((∀ m, p i ≠ .frame m) ∧ ∃ e, x = ⟨none, some e⟩)

/-- `xs` are the items of the reads of `p` from the `i`-th on. -/
def ReadsFrom (p : Pipe) : Nat → List MetaResult → Prop
  | _, [] => True
  | i, x :: xs => ItemOfRead p i x ∧ ReadsFrom p (i + 1) xs

/-- The ledgers `ms` carry the sequences `n0, n0 + 1, …` and `n` follows the last. -/
def Consecutive : UInt32 → List LedgerCloseMeta → UInt32 → Prop
  | n0, [], n => n = n0
  | n0, m :: ms, n => m.ledgerSequence = n0 ∧ Consecutive (n0 + 1) ms n

/-- The session reads the pipe `p` with the reader `rd`. -/
structure Stream (s : Sys) (pending : List MetaResult) (p : Pipe) (rd : Reader) : Prop where
  reads : ReadsFrom p 0 (takenWith s pending)
  count : rd.phase ≠ .done → (takenWith s pending).length = rd.pos
  consecutive : Consecutive s.sessionStart s.accepted s.core.nextLedger

/-- While a session's channels are open, it reads the pipe of its runner. -/
def SessionWith (pending : List MetaResult) (s : Sys) : Prop :=
  s.core.shutdown = some .empty → ∃ rn p rd, s.core.hcnetCoreRunner = some (.live rn) ∧
    rn.metaPipe = some p ∧ s.reader = some rd ∧ Stream s pending p rd

abbrev Session (s : Sys) : Prop := SessionWith [] s

/-! ## The invariant and what returns say -/

/-- The invariant of every reachable state: unless the program panicked on the nil runner,
`Base`, `PcOk` and `Session` hold. -/
def Inv (below : Prop) (s : Sys) : Prop :=
  s.fault = some .nilRunnerCall ∨
    (s.fault = none ∧ Base below s ∧ PcOk below s.core s.pc ∧ Session s)

/-- What a return says about the state the call leaves: `Close` leaves no session and no
runner; a ledger `GetLedger(sequence)` finds has that sequence and is the cached one;
`PrepareRange` leaves `PreparedFor` when it returns nil, and a closed backend when it fails,
unless the subprocess exited while it waited for the first ledger. -/
def RetOk (c : Core) : Ret → Prop
  | .close _ => Closed c ∧ c.hcnetCoreRunner = none
  | .prepareRange r none => PreparedFor c r
  | .prepareRange r (some _) =>
    Closed c ∨ (c.processExit = true ∧ c.shutdown = some .empty ∧ PreparedFor c r)
  | .getLedger sequence found meta err =>
    found = true → err = none → meta.ledgerSequence = sequence ∧ c.cachedMeta = some meta
  | _ => True

/-- The invariant after a stretch of code, and what its return says. -/
def OutOk (below : Prop) (o : Out) : Prop :=
  Inv below o.1 ∧ ∀ r, o.2 = some r → o.1.fault = none ∧ o.1.pc = .idle ∧ RetOk o.1.core r

/-- The states a fresh backend reaches when every child writes frames below `2^32 - 1`. -/
inductive ReachableBelow : Sys → Prop
  | fresh (configPath : String) : ReachableBelow (Sys.fresh configPath)
  | next {s s' : Sys} {a : Action} {r : Option Ret} :
      ReachableBelow s → ActionOk True a → step s a = some (s', r) → ReachableBelow s'

section Lists

variable {p : Pipe}

theorem readsFrom_append {i : Nat} {xs ys : List MetaResult} :
    ReadsFrom p i (xs ++ ys) ↔ ReadsFrom p i xs ∧ ReadsFrom p (i + xs.length) ys := by
  induction xs generalizing i with
  | nil => simp [ReadsFrom]
  | cons x xs ih =>
    rw [List.cons_append, ReadsFrom, ReadsFrom, ih, List.length_cons, and_assoc,
      Nat.add_assoc, Nat.add_comm 1]

theorem consecutive_append {n0 n : UInt32} {ms : List LedgerCloseMeta} {m : LedgerCloseMeta}
    (h : Consecutive n0 ms n) (hm : m.ledgerSequence = n) :
    Consecutive n0 (ms ++ [m]) (n + 1) := by
  induction ms generalizing n0 with
  | nil =>
    cases h
    exact ⟨hm, rfl⟩
  | cons m' ms ih => exact ⟨h.1, ih h.2⟩

/-- The accepted ledgers are the frames of the pipe's first reads. -/
theorem readsFrom_accepted {i : Nat} {ms : List LedgerCloseMeta} {ys : List MetaResult}
    (h : ReadsFrom p i (ms.map (fun m ↦ ⟨some m, none⟩) ++ ys)) :
    ∀ j (hj : j < ms.length), p (i + j) = .frame ms[j] := by
  induction ms generalizing i with
  | nil => exact fun j hj ↦ absurd hj (Nat.not_lt_zero j)
  | cons m ms ih =>
    obtain ⟨hx, hrest⟩ := h
    intro j hj
    cases j with
    | zero =>
      rcases hx with ⟨m', hp, hm⟩ | ⟨-, e, he⟩
      · simp only [MetaResult.mk.injEq, Option.some.injEq, and_true] at hm
        simpa [hm] using hp
      · simp at he
    | succ j =>
      have := ih hrest j (by simpa using hj)
      rwa [Nat.add_right_comm, Nat.add_assoc] at this

theorem consecutive_getElem {n0 n : UInt32} {ms : List LedgerCloseMeta}
    (h : Consecutive n0 ms n) :
    (∀ j (hj : j < ms.length), ms[j].ledgerSequence = n0 + UInt32.ofNat j) ∧
      n = n0 + UInt32.ofNat ms.length := by
  induction ms generalizing n0 with
  | nil =>
    cases h
    simp
  | cons m ms ih =>
    obtain ⟨hm, hrest⟩ := h
    obtain ⟨ih1, ih2⟩ := ih hrest
    refine ⟨fun j hj ↦ ?_, ?_⟩
    · cases j with
      | zero => simpa using hm
      | succ j =>
        rw [List.getElem_cons_succ, ih1 j (by simpa using hj), u32_eq_iff]
        simp only [u32_toNat_add, u32_toNat_ofNat, u32_toNat_lit]
        omega
    · rw [ih2, u32_eq_iff]
      simp only [List.length_cons, u32_toNat_add, u32_toNat_ofNat, u32_toNat_lit]
      omega

end Lists

section Primitive

variable {below : Prop}

/-- `Base` survives a change of the fields it does not read. -/
theorem Base.of_fields {s t : Sys} (h : Base below s) (hr : t.reader = s.reader)
    (hsh : t.core.shutdown = none ↔ s.core.shutdown = none) (hm : t.core.metaC = s.core.metaC)
    (hrn : t.core.hcnetCoreRunner = s.core.hcnetCoreRunner) : Base below t := by
  have hrun : t.readerRunning = s.readerRunning := by simp only [Sys.readerRunning, hr]
  refine ⟨?_, ?_, ?_, ?_, ?_, ?_⟩ <;> simp only [hrun, hsh, hm, hrn, hr, ne_eq]
  exacts [h.runner_of_reader, h.reader_of_shutdown, h.metaC_of_shutdown, h.buffered, h.held,
    h.pipe]

/-- With the reader returned, the runner can change to one whose pipe is allowed. -/
theorem Base.of_runner {s t : Sys} (h : Base below s) (hrun : s.readerRunning = false)
    (hr : t.reader = s.reader) (hsh : t.core.shutdown = s.core.shutdown)
    (hm : t.core.metaC = s.core.metaC)
    (hp : ∀ rn p, t.core.hcnetCoreRunner = some (.live rn) → rn.metaPipe = some p →
      PipeOk below p) : Base below t := by
  have hrun' : t.readerRunning = false := by simpa only [Sys.readerRunning, hr] using hrun
  refine ⟨?_, ?_, ?_, ?_, ?_, hp⟩ <;> simp only [hrun', hsh, hm, hr, ne_eq]
  exacts [fun h' ↦ absurd h' Bool.false_ne_true, fun _ ↦ trivial, h.metaC_of_shutdown, h.buffered,
    h.held]

theorem Base.shutdown_of_running {s : Sys} (h : Base below s) (hrun : s.readerRunning = true) :
    s.core.shutdown ≠ none := fun hsh ↦ by simp [h.reader_of_shutdown hsh] at hrun

/-- A running reader moves to another phase of its loop, holding no item or a good one. -/
theorem Base.of_reader {s : Sys} (h : Base below s) (hrun : s.readerRunning = true)
    (rd : Reader) (hheld : ∀ x last, rd.phase = .sending x last → ItemOk below x) :
    Base below { s with reader := some rd } := by
  refine ⟨fun _ ↦ h.runner_of_reader hrun, fun hsh ↦ absurd hsh (h.shutdown_of_running hrun),
    h.metaC_of_shutdown, h.buffered, fun u pos x last hr ↦ hheld x last ?_, h.pipe⟩
  simp only [Option.some.injEq] at hr
  rw [hr]

/-- The live runner can be replaced by one with the same pipe. -/
theorem Base.of_live {s : Sys} (h : Base below s) {rn : Runner}
    (hrn : s.core.hcnetCoreRunner = some (.live rn)) {c : Core}
    (hsh : c.shutdown = s.core.shutdown) (hm : c.metaC = s.core.metaC) {rn' : Runner}
    (hc : c.hcnetCoreRunner = some (.live rn')) (hp : rn'.metaPipe = rn.metaPipe) :
    Base below { s with core := c } := by
  refine ⟨fun _ ↦ ⟨rn', hc⟩, ?_, ?_, ?_, h.held, fun rn'' p h1 h2 ↦ ?_⟩
  · simpa only [hsh] using h.reader_of_shutdown
  · simpa only [hsh, hm] using h.metaC_of_shutdown
  · simpa only [hm] using h.buffered
  · rw [hc] at h1
    cases h1
    exact h.pipe rn p hrn (hp ▸ h2)

theorem Session.of_shutdown {s : Sys} (h : s.core.shutdown ≠ some .empty) : Session s :=
  fun h' ↦ absurd h' h

/-- `Session` survives a change of the fields it does not read. -/
theorem SessionWith.of_fields {s t : Sys} {pending : List MetaResult}
    (h : SessionWith pending s) (hsh : t.core.shutdown = s.core.shutdown)
    (hn : t.core.nextLedger = s.core.nextLedger) (hr : t.reader = s.reader)
    (hm : t.core.metaC = s.core.metaC) (hrn : t.core.hcnetCoreRunner = s.core.hcnetCoreRunner)
    (ha : t.accepted = s.accepted) (hss : t.sessionStart = s.sessionStart) :
    SessionWith pending t := by
  intro ht
  obtain ⟨rn, p, rd, h1, h2, h3, hst⟩ := h (hsh ▸ ht)
  have htk : takenWith t pending = takenWith s pending := by
    simp only [takenWith, bufferOf, hm, hr, ha]
  refine ⟨rn, p, rd, hrn ▸ h1, h2, hr ▸ h3, htk ▸ hst.reads, htk ▸ hst.count, ?_⟩
  rw [ha, hss, hn]
  exact hst.consecutive

theorem PreparedFor.of_core {c c' : Core} {r : Range} (h : PreparedFor c r)
    (hn : c'.nextLedger = c.nextLedger) (hl : c'.lastLedger = c.lastLedger) :
    PreparedFor c' r := by
  have hp : isPrepared c' r = isPrepared c r := by simp only [isPrepared, hn, hl]
  simpa only [PreparedFor, hp, hn] using h

theorem preparedFor_of_isPrepared {c : Core} {r : Range} (h : isPrepared c r = true) :
    PreparedFor c r :=
  fun _ _ ↦ .inl h

/-- An online session at or before `r.from` is prepared for the unbounded `r`. -/
theorem FastForwardOk.preparedFor {c : Core} {sequence : UInt32} {r : Range}
    (h : FastForwardOk c sequence r) : PreparedFor c r := by
  obtain ⟨hl, rfl, -, hn, hle⟩ := h
  exact preparedFor_of_isPrepared ((isPrepared_eq_true_iff c r).2 ⟨hn, hle, by simp [hl]⟩)

theorem PcOk.opened {c : Core} {sequence : UInt32} {k : GetCaller}
    (h : PcOk below c (.getLedger sequence k)) : Opened below c := by
  cases k with
  | user => exact h
  | fastForward => exact h.1

/-- `PcOk` reads `nextLedger`, `lastLedger`, `shutdown`, `cachedMeta` and whether a live
runner is present. -/
theorem PcOk.of_core {c c' : Core} {pc : Pc} (h : PcOk below c pc)
    (hn : c'.nextLedger = c.nextLedger) (hl : c'.lastLedger = c.lastLedger)
    (hsh : c'.shutdown = c.shutdown) (hcm : c'.cachedMeta = c.cachedMeta)
    (hrn : (∃ rn, c.hcnetCoreRunner = some (.live rn)) →
      ∃ rn, c'.hcnetCoreRunner = some (.live rn)) : PcOk below c' pc := by
  have hcl : Closed c → Closed c' := fun ⟨h1, h2, h3⟩ ↦ ⟨hn ▸ h1, hl ▸ h2, hsh ▸ h3⟩
  have hop : Opened below c → Opened below c' := fun ⟨h1, h2, h3⟩ ↦
    ⟨hn ▸ h1, hsh ▸ h2, hrn h3⟩
  cases pc with
  | idle => exact h.imp hcl hop
  | getLedger _ k =>
    cases k with
    | user => exact hop h
    | fastForward =>
      obtain ⟨ho, h1, h2, h3, h4, h5⟩ := h
      exact ⟨hop ho, hl ▸ h1, h2, h3, hn ▸ h4, hn ▸ h5⟩
  | prepareWait => exact ⟨hop h.1, h.2.of_core hn hl⟩
  | closeWait k =>
    refine ⟨⟨hn ▸ h.1.1, hl ▸ h.1.2.1, hsh ▸ h.1.2.2⟩, ?_⟩
    have hk := h.2
    cases k with
    | getLedgerLast _ k =>
      cases k with
      | user => simpa only [CloseCallerOk, hcm] using hk
      | fastForward => exact hk.elim
    | _ => exact hk

theorem OutOk.of_inv {s : Sys} (h : Inv below s) : OutOk below (s, none) :=
  ⟨h, fun _ h ↦ Option.noConfusion h⟩

theorem ok_crash_nilRunner (s : Sys) : OutOk below (s.crash .nilRunnerCall) :=
  .of_inv (.inl rfl)

theorem ok_finish {s : Sys} (hb : Base below s) (hf : s.fault = none)
    (hc : Closed s.core ∨ Opened below s.core) (hs : Session s) {r : Ret}
    (hr : RetOk s.core r) : OutOk below (s.finish r) :=
  ⟨.inr ⟨hf, hb.of_fields rfl Iff.rfl rfl rfl, hc, hs.of_fields rfl rfl rfl rfl rfl rfl rfl⟩,
    fun _ h ↦ by cases h; exact ⟨hf, rfl, hr⟩⟩

theorem ok_await {s : Sys} (hb : Base below s) (hf : s.fault = none) {pc : Pc}
    (hc : PcOk below s.core pc) (hs : Session s) : OutOk below (s.await pc) :=
  .of_inv (.inr ⟨hf, hb.of_fields rfl Iff.rfl rfl rfl, hc, hs.of_fields rfl rfl rfl rfl rfl rfl rfl⟩)

end Primitive

/-- A step of the reader or the child keeps the session's stream when it keeps the runner's
pipe and the accepted ledgers and moves the reader along the pipe. -/
theorem Session.of_step {s t : Sys} (h : Session s) (hsh : t.core.shutdown = s.core.shutdown)
    (hn : t.core.nextLedger = s.core.nextLedger) (ha : t.accepted = s.accepted)
    (hss : t.sessionStart = s.sessionStart)
    (hstep : ∀ rn p rd, s.core.hcnetCoreRunner = some (.live rn) → rn.metaPipe = some p →
      s.reader = some rd → Stream s [] p rd → ∃ rn' rd',
        t.core.hcnetCoreRunner = some (.live rn') ∧ rn'.metaPipe = some p ∧
        t.reader = some rd' ∧ ReadsFrom p 0 (takenWith t []) ∧
        (rd'.phase ≠ .done → (takenWith t []).length = rd'.pos)) : Session t := by
  intro hsh'
  obtain ⟨rn, p, rd, h1, h2, h3, hst⟩ := h (hsh ▸ hsh')
  obtain ⟨rn', rd', h1', h2', h3', hr, hc⟩ := hstep rn p rd h1 h2 h3 hst
  refine ⟨rn', p, rd', h1', h2', h3', hr, hc, ?_⟩
  rw [hss, ha, hn]
  exact hst.consecutive

theorem Session.of_enter {s : Sys} (h : Session s) {u : UInt32} {pos : Nat}
    (hrd : s.reader = some ⟨u, pos, .top⟩) :
    Session { s with reader := some ⟨u, pos, .reading⟩ } := by
  have htk : takenWith { s with reader := some ⟨u, pos, .reading⟩ } [] = takenWith s [] := by
    simp [takenWith, heldOf, hrd]
  refine h.of_step rfl rfl rfl rfl fun rn p rd h1 h2 h3 hst ↦
    ⟨rn, _, h1, h2, rfl, htk ▸ hst.reads, fun _ ↦ ?_⟩
  rw [hrd, Option.some.injEq] at h3
  subst h3
  exact htk ▸ hst.count nofun

theorem Session.of_done {s : Sys} (h : Session s) (u : UInt32) (pos : Nat) :
    Session { s with reader := some ⟨u, pos, .done⟩ } := by
  refine h.of_step rfl rfl rfl rfl fun rn p rd h1 h2 _ hst ↦
    ⟨rn, _, h1, h2, rfl, ?_, fun h ↦ absurd rfl h⟩
  have hsplit : takenWith s [] =
      takenWith { s with reader := some ⟨u, pos, .done⟩ } [] ++ heldOf s.reader := by
    simp [takenWith, heldOf]
  exact (readsFrom_append.mp (hsplit ▸ hst.reads)).1

/-- The reader's read at `pos` gives the item of the pipe's `pos`-th read; the runner may
change into one with the same pipe. -/
theorem Session.of_read {s : Sys} (h : Session s) {u : UInt32} {pos : Nat}
    (hrd : s.reader = some ⟨u, pos, .reading⟩) {rn : Runner}
    (hrn : s.core.hcnetCoreRunner = some (.live rn)) (c : Core) {rn' : Runner}
    (hc : c.hcnetCoreRunner = some (.live rn')) (hp : rn'.metaPipe = rn.metaPipe)
    (hsh : c.shutdown = s.core.shutdown) (hn : c.nextLedger = s.core.nextLedger)
    (hm : c.metaC = s.core.metaC) {x : MetaResult}
    (hx : ∀ p, rn.metaPipe = some p → ItemOfRead p pos x) (b : Bool) :
    Session { s with core := c, reader := some ⟨u, pos + 1, .sending x b⟩ } := by
  refine h.of_step hsh hn rfl rfl fun rn₀ p rd h1 h2 h3 hst ↦ ?_
  rw [hrn, Option.some.injEq, RunnerRef.live.injEq] at h1
  rw [hrd, Option.some.injEq] at h3
  subst h1 h3
  have htk : takenWith { s with core := c, reader := some ⟨u, pos + 1, .sending x b⟩ } [] =
      takenWith s [] ++ [x] := by
    simp [takenWith, heldOf, bufferOf, hrd, hm]
  have hlen := hst.count nofun
  refine ⟨rn', _, hc, hp ▸ h2, rfl, ?_, fun _ ↦ by simp [htk, hlen]⟩
  rw [htk, readsFrom_append]
  exact ⟨hst.reads, by simpa [ReadsFrom, hlen] using hx p h2⟩

/-- The reader's send moves its item to the end of the buffer. -/
theorem Session.of_send {s : Sys} (h : Session s) {u : UInt32} {pos : Nat} {x : MetaResult}
    {last : Bool} (hrd : s.reader = some ⟨u, pos, .sending x last⟩) {buf : List MetaResult}
    (hm : s.core.metaC = some ⟨buf, false⟩) :
    Session { s with
      core := { s.core with metaC := some { buf := buf ++ [x], closed := false } },
      reader := some ⟨u, pos, if last then .done else .top⟩ } := by
  refine h.of_step rfl rfl rfl rfl fun rn p rd h1 h2 h3 hst ↦ ?_
  rw [hrd, Option.some.injEq] at h3
  subst h3
  have htk : takenWith { s with
      core := { s.core with metaC := some { buf := buf ++ [x], closed := false } },
      reader := some ⟨u, pos, if last then .done else .top⟩ } [] = takenWith s [] := by
    cases last <;> simp [takenWith, heldOf, bufferOf, hrd, hm]
  exact ⟨rn, _, h1, h2, rfl, htk ▸ hst.reads, fun _ ↦ htk ▸ hst.count nofun⟩

theorem Session.of_runner {s : Sys} (h : Session s) {rn : Runner}
    (hrn : s.core.hcnetCoreRunner = some (.live rn)) {rn' : Runner}
    (hp : rn'.metaPipe = rn.metaPipe) :
    Session (s.modify fun c ↦ { c with hcnetCoreRunner := some (.live rn') }) := by
  refine h.of_step rfl rfl rfl rfl fun rn₀ p rd h1 h2 h3 hst ↦
    ⟨rn', rd, rfl, ?_, h3, hst.reads, hst.count⟩
  rw [hrn, Option.some.injEq, RunnerRef.live.injEq] at h1
  subst h1
  rwa [hp]

end AuroraIngest.Captive.Invariant
