import AuroraIngest.Captive.Invariant

/-!
# The consumer's code keeps the invariant

One lemma per function of the consumer, callee first: from the invariant of the state a
stretch of code starts in, the state it ends in satisfies the invariant, and its return says
what `RetOk` asks. Callers cite the lemma of the callee and never unfold it.

The lemmas for `Close` and the two `open…ReplaySubprocess` functions take no `Session`
hypothesis: they start from a state whose session is being torn down, and what they leave
is closed or a session just started.
-/

namespace AuroraIngest.Captive.Consumer

open AuroraIngest.Captive.Ledger AuroraIngest.Captive.State AuroraIngest.Captive.Backend
open AuroraIngest.Captive.Step AuroraIngest.Captive.Invariant

variable {below : Prop}

/-- `PrepareRange` fails only on a closed backend here. -/
theorem ok_prepareRangeFail {s : Sys} (hb : Base below s) (hf : s.fault = none)
    (hc : Closed s.core) (r : Range) (e : Err) : OutOk below (prepareRangeFail s r e) :=
  ok_finish hb hf (.inl hc) (.of_shutdown (by simp [hc.2.2])) (.inl hc)

/-- An open session has its runner's pipe, so `PrepareRange` goes on to wait. -/
theorem ok_prepareRangeAwait {s : Sys} (hb : Base below s) (hf : s.fault = none)
    (ho : Opened below s.core) (hs : Session s) {r : Range} (hp : PreparedFor s.core r) :
    OutOk below (prepareRangeAwait s r) := by
  obtain ⟨rn, p, -, hrn, hpipe, -⟩ := hs ho.2.1
  simp only [prepareRangeAwait, hrn, hpipe]
  exact ok_await hb hf ⟨ho, hp⟩ hs

theorem ok_getLedgerReturn {s : Sys} (hb : Base below s) (hf : s.fault = none)
    (hc : Closed s.core ∨ Opened below s.core) (hs : Session s) {k : GetCaller}
    {err : Option Err}
    (hkn : ∀ r, k = .fastForward r → err = none → Opened below s.core ∧ PreparedFor s.core r)
    (hke : ∀ r e, k = .fastForward r → err = some e → Closed s.core)
    {sequence : UInt32} {found : Bool} {meta : LedgerCloseMeta}
    (hm : found = true → err = none →
      meta.ledgerSequence = sequence ∧ s.core.cachedMeta = some meta) :
    OutOk below (getLedgerReturn s k sequence found meta err) := by
  unfold getLedgerReturn
  split
  · exact ok_finish hb hf hc hs hm
  · next r =>
    have hb' : Base below (s.modify fun c ↦ { c with blocking := false }) :=
      hb.of_fields rfl Iff.rfl rfl rfl
    have hs' : Session (s.modify fun c ↦ { c with blocking := false }) :=
      hs.of_fields rfl rfl rfl rfl rfl rfl rfl
    dsimp only
    split
    · next e => exact ok_prepareRangeFail hb' hf (hke r e rfl rfl) _ _
    · obtain ⟨ho, hp⟩ := hkn r rfl rfl
      exact ok_prepareRangeAwait hb' hf ho hs' hp

theorem ok_getLedgerBegin {s : Sys} (hb : Base below s) (hf : s.fault = none)
    (hc : Closed s.core ∨ Opened below s.core) (hs : Session s) {k : GetCaller}
    {sequence : UInt32}
    (hk : ∀ r, k = .fastForward r → Opened below s.core ∧ FastForwardOk s.core sequence r) :
    OutOk below (getLedgerBegin s k sequence) := by
  unfold getLedgerBegin cacheHit
  split
  · next m hm =>
    refine ok_getLedgerReturn hb hf hc hs (fun r h _ ↦ ⟨(hk r h).1, (hk r h).2.preparedFor⟩)
      (fun _ _ _ h ↦ Option.noConfusion h) fun _ _ ↦ ?_
    split at hm <;> simp_all
  · split
    · next hclosed =>
      refine ok_getLedgerReturn hb hf hc hs (fun _ _ h ↦ Option.noConfusion h)
        (fun r _ h _ ↦ absurd ?_ (hk r h).2.2.2.2.1) nofun
      simpa [isClosed] using hclosed
    · next hopen =>
      split
      · next hbehind =>
        refine ok_getLedgerReturn hb hf hc hs (fun _ _ h ↦ Option.noConfusion h)
          (fun r _ h _ ↦ absurd (hk r h).2.2.2.2.2 ?_) nofun
        simpa only [u32_le_iff, u32_lt_iff, not_le] using hbehind
      · refine ok_await hb hf ?_ hs
        have ho : Opened below s.core :=
          hc.resolve_left fun h ↦ hopen (by simp [isClosed, h.1])
        cases k with
        | user => exact ho
        | fastForward r => exact hk r rfl

/-- The runner `startRunner` returns writes the pipe the environment gives. -/
theorem startRunner_ok {rn rn' : Runner} {cmd : Command} {env : Env}
    (h : startRunner rn cmd env = .ok rn') : ∃ p, env.start = .ok p ∧ rn'.metaPipe = some p := by
  unfold startRunner at h
  split at h
  · cases h
  · split at h
    · cases h
    · next pipe hpipe =>
      cases h
      exact ⟨pipe, hpipe, rfl⟩

/-- A session just started is open, reads its runner's pipe from the start, and `Base`
holds of it. -/
theorem startSession_opened {s s' : Sys} {rn : Runner} {nextLedger u : UInt32}
    {lastLedger : Option UInt32} {blocking : Bool}
    (h : startSession s rn nextLedger lastLedger blocking u = some s') (hf : s.fault = none)
    {p : Pipe} (hpipe : rn.metaPipe = some p) (hp : PipeOk below p) (hn : nextLedger ≠ 0) :
    s'.fault = none ∧ Base below s' ∧ Opened below s'.core ∧ Session s' ∧
      s'.core.lastLedger = lastLedger ∧ s'.core.nextLedger = nextLedger := by
  unfold startSession at h
  split at h
  · cases h
  · cases h
    refine ⟨hf, ⟨?_, ?_, ?_, ?_, ?_, ?_⟩, ⟨fun _ ↦ hn, rfl, rn, rfl⟩,
      fun _ ↦ ⟨rn, p, _, rfl, hpipe, rfl, trivial, fun _ ↦ rfl, rfl⟩, rfl, rfl⟩
    · exact fun _ ↦ ⟨rn, rfl⟩
    · exact fun h ↦ Option.noConfusion h
    · exact fun _ ↦ ⟨[], rfl⟩
    · intro buf b x hm hx
      simp only [Option.some.injEq, Chan.empty, Chan.mk.injEq] at hm
      simp [← hm.1] at hx
    · intro u pos x last hr
      simp only [Option.some.injEq, Reader.mk.injEq] at hr
      exact absurd hr.2.2 (by simp)
    · intro rn' p' hr hp'
      simp only [Option.some.injEq, RunnerRef.live.injEq] at hr
      subst hr
      rw [hpipe, Option.some.injEq] at hp'
      exact hp' ▸ hp

theorem startSession_eq_none {s : Sys} {rn : Runner} {nextLedger u : UInt32}
    {lastLedger : Option UInt32} {blocking : Bool}
    (h : startSession s rn nextLedger lastLedger blocking u = none) : s.readerRunning = true := by
  unfold startSession at h
  split at h
  · assumption
  · cases h

/-- The offline session starts at the checkpoint of `from` and ends at `to`, capped at the
archive's latest checkpoint: it is prepared for `[from, to]`. -/
theorem ok_openOfflineReplaySubprocess {s : Sys} (hb : Base below s) (hf : s.fault = none)
    (hc : Closed s.core) (hrn : s.core.hcnetCoreRunner = none) {env : Env}
    (henv : EnvOk below env) {r : Range} (hk : r.bounded = true) :
    OutOk below (openOfflineReplaySubprocess s env r) := by
  have hrun : s.readerRunning = false := hb.reader_of_shutdown hc.2.2
  unfold openOfflineReplaySubprocess
  split
  · exact ok_prepareRangeFail hb hf hc _ _
  · next latest _ =>
    dsimp only
    split
    · exact ok_prepareRangeFail hb hf hc _ _
    · next hlatest =>
      simp only [ensureRunner, hrn]
      cases env.newRunnerErr with
      | some e =>
        have hb' : Base below { s with core := { s.core with
            hcnetCoreRunner := some .nilPointer } } :=
          hb.of_runner hrun rfl rfl rfl fun _ _ h ↦ by cases h
        exact ok_prepareRangeFail hb' hf hc _ _
      | none =>
        have hb' : Base below { s with core := { s.core with
            hcnetCoreRunner := some (.live Runner.new) } } :=
          hb.of_runner hrun rfl rfl rfl fun _ _ h hp ↦ by cases h; cases hp
        dsimp only
        split
        · exact ok_prepareRangeFail hb' hf hc _ _
        · next rn' hstart =>
          obtain ⟨p, hstartp, hpipe⟩ := startRunner_ok hstart
          split
          · next hnone => exact absurd (startSession_eq_none hnone) (by simpa using hrun)
          · next s' hs' =>
            obtain ⟨hf', hb'', ho, hss, hl, hn⟩ :=
              startSession_opened hs' hf hpipe (henv p hstartp) (roundDown_ne_zero _)
            refine ok_prepareRangeAwait hb'' hf' ho hss fun h2 hto ↦ .inl ?_
            have hrd := (roundDown_bounds _ h2).2
            have hto := hto hk
            rw [isPrepared_eq_true_iff, hn, hl]
            refine ⟨roundDown_ne_zero _, hrd, fun l hl' ↦ ⟨hk, ?_⟩⟩
            rw [Option.some.injEq] at hl'
            subst hl'
            simp only [gt_iff_lt, u32_lt_iff, u32_le_iff] at hlatest hrd hto ⊢
            split <;> simp only [u32_lt_iff] at * <;> omega

/-- The online session starts at or before `from`: it is prepared for `[from, ∞)`, or it
fast-forwards to `from` first. -/
theorem ok_openOnlineAfterClose {s : Sys} (hb : Base below s) (hf : s.fault = none)
    (hc : Closed s.core) (hrn : s.core.hcnetCoreRunner = none) {env : Env}
    (henv : EnvOk below env) {r : Range} (hk : r.bounded = false) :
    OutOk below (openOnlineAfterClose s env r) := by
  have hrun : s.readerRunning = false := hb.reader_of_shutdown hc.2.2
  unfold openOnlineAfterClose
  split
  · exact ok_prepareRangeFail hb hf hc _ _
  · dsimp only
    split
    · exact ok_prepareRangeFail hb hf hc _ _
    · split
      · exact ok_prepareRangeFail hb hf hc _ _
      · simp only [ensureRunner, hrn]
        cases env.newRunnerErr with
        | some e =>
          have hb' : Base below { s with core := { s.core with
              hcnetCoreRunner := some .nilPointer } } :=
            hb.of_runner hrun rfl rfl rfl fun _ _ h ↦ by cases h
          exact ok_prepareRangeFail hb' hf hc _ _
        | none =>
          have hb' : Base below { s with core := { s.core with
              hcnetCoreRunner := some (.live Runner.new) } } :=
            hb.of_runner hrun rfl rfl rfl fun _ _ h hp ↦ by cases h; cases hp
          dsimp only
          split
          · exact ok_prepareRangeFail hb' hf hc _ _
          · next runFrom ledgerHash nextLedger hparams =>
            split
            · exact ok_prepareRangeFail hb' hf hc _ _
            · next rn' hstart =>
              obtain ⟨p, hstartp, hpipe⟩ := startRunner_ok hstart
              split
              · next hnone => exact absurd (startSession_eq_none hnone) (by simpa using hrun)
              · next s' hs' =>
                have hn : nextLedger ≠ 0 := by
                  have := runFromParams_nextLedger hparams
                  intro h0
                  simp [h0] at this
                obtain ⟨hf', hb'', ho, hss, hl, hnext⟩ :=
                  startSession_opened hs' hf hpipe (henv p hstartp) hn
                split
                · next hlt =>
                  have hb3 : Base below (s'.modify fun c ↦ { c with blocking := true }) :=
                    hb''.of_fields rfl Iff.rfl rfl rfl
                  have hs3 : Session (s'.modify fun c ↦ { c with blocking := true }) :=
                    hss.of_fields rfl rfl rfl rfl rfl rfl rfl
                  refine ok_getLedgerBegin hb3 hf' (.inr ho) hs3 fun _ h ↦ ?_
                  cases h
                  refine ⟨ho, hl, rfl, hk, hnext ▸ hn, ?_⟩
                  simpa only [u32_lt_iff, u32_le_iff] using Nat.le_of_lt hlt
                · refine ok_prepareRangeAwait hb'' hf' ho hss fun h2 _ ↦ .inl ?_
                  rw [isPrepared_eq_true_iff, hnext, hl]
                  exact ⟨hn, runFromParams_nextLedger_le hparams h2, nofun⟩

/-! ## `Close` -/

theorem ok_closeReturn {s : Sys} (hb : Base below s) (hf : s.fault = none) (hc : Closed s.core)
    (hrn : s.core.hcnetCoreRunner = none) {env : Env} (henv : EnvOk below env)
    {k : CloseCaller} (hk : CloseCallerOk s.core k) (err : Option Err) :
    OutOk below (closeReturn s env k err) := by
  have hs : Session s := .of_shutdown (by simp [hc.2.2])
  unfold closeReturn
  split
  · exact ok_finish hb hf (.inl hc) hs ⟨hc, hrn⟩
  · split
    · exact ok_prepareRangeFail hb hf hc _ _
    · exact ok_openOfflineReplaySubprocess hb hf hc hrn henv hk
  · split
    · exact ok_prepareRangeFail hb hf hc _ _
    · exact ok_openOnlineAfterClose hb hf hc hrn henv hk
  · exact ok_getLedgerReturn hb hf (.inl hc) hs (fun _ _ h ↦ Option.noConfusion h)
      (fun _ _ _ _ ↦ hc) nofun
  · next sequence k =>
    cases k with
    | fastForward => exact hk.elim
    | user =>
      obtain ⟨m, hm, hseq⟩ := hk
      split
      · exact ok_getLedgerReturn hb hf (.inl hc) hs (fun _ h ↦ GetCaller.noConfusion h)
          (fun _ _ h ↦ GetCaller.noConfusion h) nofun
      · exact ok_getLedgerReturn hb hf (.inl hc) hs (fun _ h ↦ GetCaller.noConfusion h)
          (fun _ _ h ↦ GetCaller.noConfusion h) fun _ _ ↦ by simp [hm, hseq]

theorem ok_closeRunner {s : Sys} (hb : Base below s) (hf : s.fault = none) (hc : Closed s.core)
    {env : Env} (henv : EnvOk below env) {k : CloseCaller} (hk : CloseCallerOk s.core k) :
    OutOk below (closeRunner s env k) := by
  unfold closeRunner
  split
  · next hrn => exact ok_closeReturn hb hf hc hrn henv hk _
  · exact ok_crash_nilRunner s
  · have hb' : Base below (s.modify fun c ↦ { c with hcnetCoreRunner := none }) :=
      hb.of_runner (hb.reader_of_shutdown hc.2.2) rfl rfl rfl fun _ _ h ↦ by cases h
    exact ok_closeReturn hb' hf hc rfl henv hk _

theorem ok_closeBegin {s : Sys} (hb : Base below s) (hf : s.fault = none)
    (hc : Closed s.core ∨ Opened below s.core) {env : Env} (henv : EnvOk below env)
    {k : CloseCaller} (hk : CloseCallerOk s.core k) : OutOk below (closeBegin s env k) := by
  have hb' : Base below (s.modify fun c ↦ { c with nextLedger := 0, lastLedger := none }) :=
    hb.of_fields rfl Iff.rfl rfl rfl
  unfold closeBegin
  dsimp only
  split
  · next hsh => exact ok_closeRunner hb' hf ⟨rfl, rfl, hsh⟩ henv hk
  · next sh hsh =>
    simp only [Sys.modify_core] at hsh
    have hsh' : sh = .empty := by
      rcases hc with hc | hc
      · simp [hc.2.2] at hsh
      · simpa [hc.2.1] using hsh.symm
    subst hsh'
    split
    · next h => exact absurd h Bool.false_ne_true
    · refine ok_await ?_ ?_ ?_ ?_
      exacts [hb'.of_fields rfl (by simp [hsh]) rfl rfl, hf, ⟨⟨rfl, rfl, rfl⟩, hk⟩,
        .of_shutdown (by simp [Chan.empty])]

theorem ok_closeEnd {s : Sys} (hb : Base below s) (hf : s.fault = none) (hc : Closing s.core)
    (hrun : s.readerRunning = false) {env : Env} (henv : EnvOk below env) {k : CloseCaller}
    (hk : CloseCallerOk s.core k) : OutOk below (closeEnd s env k) := by
  obtain ⟨buf, hm⟩ := hb.metaC_of_shutdown (by simp [hc.2.2])
  unfold closeEnd
  simp only [hm, Bool.false_eq_true, ↓reduceIte]
  have hb' : Base below (s.modify fun c ↦
      { c with metaC := some { buf := buf, closed := true }, shutdown := none }) := by
    refine ⟨fun h ↦ absurd (hrun.symm.trans h) Bool.false_ne_true, fun _ ↦ hrun, ?_, ?_, hb.held,
      hb.pipe⟩
    · simp
    · intro buf' b x h hx
      simp only [Sys.modify_core, Option.some.injEq, Chan.mk.injEq] at h
      exact hb.buffered buf false x hm (h.1 ▸ hx)
  exact ok_closeRunner hb' hf ⟨hc.1, hc.2.1, rfl⟩ henv hk

/-- Under `below`, a frame at `nextLedger` moves `nextLedger` to a value that is not 0. -/
theorem nextLedger_succ_ne_zero {m : LedgerCloseMeta} {n : UInt32} (hm : FrameOk below m)
    (h : m.ledgerSequence = n) : below → n + 1 ≠ 0 := by
  intro hbl
  have := hm hbl
  subst h
  rw [u32_ne_iff, u32_toNat_add]
  simp only [u32_toNat_lit, UInt32.toNat_zero]
  omega

theorem ok_getLedgerReceive {s : Sys} (hb : Base below s) (hf : s.fault = none)
    {sequence : UInt32} {k : GetCaller} (hpc : PcOk below s.core (.getLedger sequence k))
    {x : MetaResult} (hs : SessionWith [x] s) {env : Env} (henv : EnvOk below env)
    (hx : ItemOk below x) : OutOk below (getLedgerReceive s env sequence k x) := by
  have ho := hpc.opened
  unfold getLedgerReceive
  split
  · exact ok_closeBegin hb hf (.inr ho) henv trivial
  · next hnone =>
    split
    · next hmeta =>
      rcases hx with ⟨m, rfl, -⟩ | ⟨e, rfl⟩
      exacts [Option.noConfusion hmeta, Option.noConfusion hnone]
    · next m hm =>
      split
      · exact ok_closeBegin hb hf (.inr ho) henv trivial
      · next heq =>
        have hseq : m.ledgerSequence = s.core.nextLedger := not_not.mp heq
        obtain ⟨hx', hfb⟩ : x = ⟨some m, none⟩ ∧ FrameOk below m := by
          rcases hx with ⟨m', rfl, hm'⟩ | ⟨e, rfl⟩
          · cases hm
            exact ⟨rfl, hm'⟩
          · exact Option.noConfusion hnone
        subst hx'
        have hb1 : Base below { s.modify (fun c ↦ { c with nextLedger := c.nextLedger + 1 }) with
            accepted := s.accepted ++ [m] } := hb.of_fields rfl Iff.rfl rfl rfl
        have ho1 : Opened below
            { s.modify (fun c ↦ { c with nextLedger := c.nextLedger + 1 }) with
              accepted := s.accepted ++ [m] }.core :=
          ⟨nextLedger_succ_ne_zero hfb hseq, ho.2⟩
        have hs1 : Session { s.modify (fun c ↦ { c with nextLedger := c.nextLedger + 1 }) with
            accepted := s.accepted ++ [m] } := by
          intro hsh
          obtain ⟨rn, p, rd, h1, h2, h3, hst⟩ := hs hsh
          have htk : takenWith { s.modify (fun c ↦ { c with nextLedger := c.nextLedger + 1 }) with
              accepted := s.accepted ++ [m] } [] = takenWith s [⟨some m, none⟩] := by
            simp [takenWith, bufferOf]
          exact ⟨rn, p, rd, h1, h2, h3, htk ▸ hst.reads, htk ▸ hst.count,
            consecutive_append hst.consecutive hseq⟩
        dsimp only
        split
        · next hseq' =>
          have hb2 : Base below ({ s.modify (fun c ↦ { c with nextLedger := c.nextLedger + 1 }) with
              accepted := s.accepted ++ [m] }.modify fun c ↦ { c with cachedMeta := some m }) :=
            hb1.of_fields rfl Iff.rfl rfl rfl
          have hs2 : Session ({ s.modify (fun c ↦ { c with nextLedger := c.nextLedger + 1 }) with
              accepted := s.accepted ++ [m] }.modify fun c ↦ { c with cachedMeta := some m }) :=
            hs1.of_fields rfl rfl rfl rfl rfl rfl rfl
          split
          · next hlast =>
            refine ok_closeBegin hb2 hf (.inr ho1) henv ?_
            cases k with
            | user => exact ⟨m, rfl, hseq'⟩
            | fastForward => simp [hpc.2.1] at hlast
          · refine ok_getLedgerReturn hb2 hf (.inr ho1) hs2 (fun r h _ ↦ ⟨ho1, fun _ _ ↦ .inr ?_⟩)
              (fun _ _ _ h ↦ Option.noConfusion h) fun _ _ ↦ ⟨hseq', rfl⟩
            subst h
            obtain ⟨-, rfl, hbd, -⟩ := hpc.2
            exact ⟨hbd, by rw [← hseq', hseq]; rfl⟩
        · next hne =>
          refine ok_await hb1 hf ?_ hs1
          cases k with
          | user => exact ho1
          | fastForward r =>
            obtain ⟨hl, hsq, hbd, -, hle⟩ := hpc.2
            exact ⟨ho1, hl, hsq, hbd, u32_succ_le hle (hseq ▸ hne)⟩

theorem ok_getLedgerLoop {s : Sys} (hb : Base below s) (hf : s.fault = none)
    {sequence : UInt32} {k : GetCaller} (hpc : PcOk below s.core (.getLedger sequence k))
    (hs : Session s) {env : Env} (henv : EnvOk below env) {o : Out}
    (h : getLedgerLoop s env sequence k = some o) : OutOk below o := by
  have ho := hpc.opened
  obtain ⟨buf, hm⟩ := hb.metaC_of_shutdown (by simp [ho.2.1])
  unfold getLedgerLoop at h
  split at h
  · cases h
    refine ok_getLedgerReturn hb hf (.inr ho) hs (fun r h _ ↦ ?_)
      (fun _ _ _ h ↦ Option.noConfusion h) nofun
    subst h
    exact ⟨ho, hpc.2.preparedFor⟩
  · simp only [hm, Option.some.injEq] at h
    split at h
    · next x rest =>
      cases h
      have hb' : Base below (s.modify fun c ↦ { c with metaC := some ⟨rest, false⟩ }) := by
        refine ⟨hb.runner_of_reader, hb.reader_of_shutdown, fun _ ↦ ⟨rest, rfl⟩, ?_, hb.held,
          hb.pipe⟩
        intro buf' b y h hy
        simp only [Sys.modify_core, Option.some.injEq, Chan.mk.injEq] at h
        exact hb.buffered _ false y hm (List.mem_cons_of_mem x (h.1 ▸ hy))
      have hs' : SessionWith [x] (s.modify fun c ↦ { c with metaC := some ⟨rest, false⟩ }) := by
        intro hsh
        obtain ⟨rn, p, rd, h1, h2, h3, hst⟩ := hs hsh
        have htk : takenWith (s.modify fun c ↦ { c with metaC := some ⟨rest, false⟩ }) [x] =
            takenWith s [] := by
          simp [takenWith, bufferOf, hm]
        exact ⟨rn, p, rd, h1, h2, h3, htk ▸ hst.reads, htk ▸ hst.count, hst.consecutive⟩
      exact ok_getLedgerReceive hb' hf hpc hs' henv (hb.buffered _ false x hm (by simp))
    · simp at h

/-- `PrepareRange`'s wait returns with the session as it found it: nil, or the exit of the
subprocess, which leaves the session open. -/
theorem ok_prepareRangeWait {s : Sys} (hb : Base below s) (hf : s.fault = none) {r : Range}
    (hpc : PcOk below s.core (.prepareWait r)) (hs : Session s) {o : Out}
    (h : prepareRangeWait s r = some o) : OutOk below o := by
  obtain ⟨ho, hp⟩ := hpc
  unfold prepareRangeWait at h
  split at h
  · cases h
    exact ok_finish hb hf (.inr ho) hs hp
  · split at h
    · cases h
      refine ok_finish hb hf (.inr ho) hs ?_
      cases hpe : s.core.processExit
      · simpa only [hpe, Bool.false_eq_true, ↓reduceIte] using hp
      · simp only [hpe, ↓reduceIte]
        split <;> exact Or.inr ⟨hpe, ho.2.1, hp⟩
    · cases h

theorem ok_prepareRange {s : Sys} (hb : Base below s) (hf : s.fault = none)
    (hc : Closed s.core ∨ Opened below s.core) (hs : Session s) {env : Env}
    (henv : EnvOk below env) (r : Range) : OutOk below (prepareRange s env r) := by
  unfold prepareRange
  split
  · next hp => exact ok_finish hb hf hc hs (preparedFor_of_isPrepared hp)
  · split
    · next hbd => exact ok_closeBegin hb hf hc henv hbd
    · next hbd =>
      split
      · next h =>
        simp only [Bool.and_eq_true, Option.isNone_iff_eq_none, bne_iff_ne, ne_eq,
          decide_eq_true_eq] at h
        obtain ⟨⟨hl, hn⟩, hle⟩ := h
        refine ok_prepareRangeAwait hb hf (hc.resolve_left fun hc' ↦ hn hc'.1) hs
          (preparedFor_of_isPrepared ((isPrepared_eq_true_iff _ _).2 ⟨hn, hle, by simp [hl]⟩))
      · exact ok_closeBegin hb hf hc henv (by simpa using hbd)

theorem ok_call {s : Sys} (hb : Base below s) (hf : s.fault = none)
    (hc : Closed s.core ∨ Opened below s.core) (hs : Session s) {env : Env}
    (henv : EnvOk below env) (op : Op) : OutOk below (call s env op) := by
  cases op with
  | prepareRange r => exact ok_prepareRange hb hf hc hs henv r
  | getLedger sequence => exact ok_getLedgerBegin hb hf hc hs fun _ h ↦ GetCaller.noConfusion h
  | isPrepared r => exact ok_finish hb hf hc hs trivial
  | getLatestLedgerSequence => exact ok_finish hb hf hc hs trivial
  | close => exact ok_closeBegin hb hf hc henv trivial

theorem ok_resume {s : Sys} (hb : Base below s) (hf : s.fault = none)
    (hpc : PcOk below s.core s.pc) (hs : Session s) {env : Env} (henv : EnvOk below env)
    {o : Out} (h : resume s env = some o) : OutOk below o := by
  unfold resume at h
  split at h
  · cases h
  · next hpc' =>
    rw [hpc'] at hpc
    exact ok_getLedgerLoop hb hf hpc hs henv h
  · next k hpc' =>
    rw [hpc'] at hpc
    split at h
    · cases h
    · next hrun =>
      cases h
      exact ok_closeEnd hb hf hpc.1 (by simpa using hrun) henv hpc.2
  · next hpc' =>
    rw [hpc'] at hpc
    exact ok_prepareRangeWait hb hf hpc hs h

end AuroraIngest.Captive.Consumer
