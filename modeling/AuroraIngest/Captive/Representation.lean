import AuroraIngest.Captive.Consumer

/-!
# Every reachable state of the captive backend

The reader goroutine and the child keep the invariant too, so every state a fresh backend
reaches satisfies it: for every pipe, and, when every frame is below `2^32 - 1`, with a
nonzero `nextLedger` in every open session. The only panic that can happen is the call of a
method on the nil `*hcnetCoreRunner` that `NewCaptive`'s factory returns when it fails.

Between calls this gives the representation invariant of the backend, and a `Close` that
returned leaves a state where a second `Close` changes nothing. The nil runner is reached: a
`PrepareRange` whose factory fails leaves it behind, and from then on `Close` and every
`PrepareRange` panic.
-/

namespace AuroraIngest.Captive.Representation

open AuroraIngest.Captive.Ledger AuroraIngest.Captive.State AuroraIngest.Captive.Backend
open AuroraIngest.Captive.Step AuroraIngest.Captive.Invariant AuroraIngest.Captive.Consumer

variable {below : Prop}

section Reader

variable {s : Sys} (hb : Base below s) (hf : s.fault = none) (hpc : PcOk below s.core s.pc)
  (hs : Session s)
include hb hf hpc hs

theorem inv_readerEnter {s' : Sys} (h : readerEnter s = some s') : Inv below s' := by
  unfold readerEnter at h
  split at h
  · next u pos hrd =>
    cases h
    have hrun : s.readerRunning = true := by simp [Sys.readerRunning, hrd]
    exact .inr ⟨hf, hb.of_reader hrun ⟨u, pos, .reading⟩ (fun _ _ h ↦ nomatch h), hpc,
      hs.of_enter hrd⟩
  · cases h

theorem inv_readerShutdown {s' : Sys} (h : readerShutdown s = some s') : Inv below s' := by
  unfold readerShutdown at h
  split at h
  · next u pos hrd =>
    split at h
    · cases h
      have hrun : s.readerRunning = true := by simp [Sys.readerRunning, hrd]
      exact .inr ⟨hf, hb.of_reader hrun ⟨u, pos, .done⟩ (fun _ _ h ↦ nomatch h), hpc,
        hs.of_done u pos⟩
    · cases h
  · cases h

theorem inv_readerAbort {s' : Sys} (h : readerAbort s = some s') : Inv below s' := by
  unfold readerAbort at h
  split at h
  · next u pos x last hrd =>
    split at h
    · cases h
      have hrun : s.readerRunning = true := by simp [Sys.readerRunning, hrd]
      exact .inr ⟨hf, hb.of_reader hrun ⟨u, pos, .done⟩ (fun _ _ h ↦ nomatch h), hpc,
        hs.of_done u pos⟩
    · cases h
  · cases h

/-- A read hands the reader the next item of the pipe: its frame, or an error. -/
theorem ok_readerRead {o : Out} (h : readerRead s = some o) : OutOk below o := by
  unfold readerRead at h
  split at h
  · next u pos hrd =>
    have hrun : s.readerRunning = true := by simp [Sys.readerRunning, hrd]
    split at h
    · next rn hrn =>
      split at h
      · cases h
      · next m hread =>
        cases h
        obtain ⟨p, hp, hframe⟩ := readLedgerMetaFromPipe_ok hread
        refine .of_inv (.inr ⟨hf, hb.of_reader hrun _ fun x last hx ↦ ?_, hpc,
          hs.of_read hrd hrn s.core hrn rfl rfl rfl rfl (fun p' hp' ↦ ?_) _⟩)
        · simp only [ReaderPhase.sending.injEq] at hx
          rw [← hx.1]
          exact .inl ⟨m, rfl, hb.pipe rn p hrn hp _ m hframe⟩
        · rw [hp, Option.some.injEq] at hp'
          exact .inl ⟨m, hp' ▸ hframe, rfl⟩
      · next e hread =>
        cases h
        have hx : ∀ e', ∀ p, rn.metaPipe = some p → ItemOfRead p pos ⟨none, some e'⟩ :=
          fun e' p hp ↦ .inr ⟨readLedgerMetaFromPipe_error hread hp, e', rfl⟩
        split
        · next pe hoffer =>
          have hb' : Base below { s with core := { s.core with
              processExit := true, processErr := pe,
              hcnetCoreRunner := some (.live { rn with exitOffer := none }) } } :=
            hb.of_live hrn rfl rfl rfl rfl
          refine .of_inv (.inr ⟨hf, hb'.of_reader hrun _ fun x last hx ↦ ?_,
            PcOk.of_core hpc rfl rfl rfl rfl fun _ ↦ ⟨_, rfl⟩,
            hs.of_read hrd hrn { s.core with
              processExit := true, processErr := pe,
              hcnetCoreRunner := some (.live { rn with exitOffer := none }) }
              rfl rfl rfl rfl rfl (hx _) true⟩)
          simp only [ReaderPhase.sending.injEq] at hx
          exact .inr ⟨_, hx.1.symm⟩
        · refine .of_inv (.inr ⟨hf, hb.of_reader hrun _ fun x last hx ↦ ?_, hpc,
            hs.of_read hrd hrn s.core hrn rfl rfl rfl rfl (hx e) true⟩)
          simp only [ReaderPhase.sending.injEq] at hx
          exact .inr ⟨e, hx.1.symm⟩
    · cases h
      exact ok_crash_nilRunner s
  · cases h

/-- The reader's send: `metaC` is open while the reader runs, so the send never panics. -/
theorem ok_readerSend {o : Out} (h : readerSend s = some o) : OutOk below o := by
  unfold readerSend at h
  split at h
  · next u pos x last hrd =>
    have hrun : s.readerRunning = true := by simp [Sys.readerRunning, hrd]
    obtain ⟨buf, hm⟩ := hb.metaC_of_shutdown (hb.shutdown_of_running hrun)
    simp only [hm, Bool.false_eq_true, ↓reduceIte] at h
    split at h
    · cases h
      have hx : ItemOk below x := hb.held u pos x last hrd
      refine .of_inv (.inr ⟨hf, ⟨fun _ ↦ hb.runner_of_reader hrun,
        fun hsh ↦ absurd hsh (hb.shutdown_of_running hrun), fun _ ↦ ⟨_, rfl⟩, ?_,
        fun _ _ _ _ h ↦ ?_, hb.pipe⟩, hpc, hs.of_send hrd hm⟩)
      · intro buf' b y h hy
        simp only [Option.some.injEq, Chan.mk.injEq] at h
        rw [← h.1, List.mem_append, List.mem_singleton] at hy
        rcases hy with hy | rfl
        exacts [hb.buffered buf false y hm hy, hx]
      · simp only [Option.some.injEq, Reader.mk.injEq] at h
        split at h <;> simp at h
    · cases h
  · cases h

theorem inv_childExit {e : Option Err} {s' : Sys} (h : childExit s e = some s') :
    Inv below s' := by
  unfold childExit at h
  split at h
  · next rn hrn =>
    split at h
    · cases h
      have hb' : Base below { s with core := { s.core with
          hcnetCoreRunner := some (.live { rn with alive := false, exitOffer := some e }) } } :=
        hb.of_live hrn rfl rfl rfl rfl
      exact .inr ⟨hf, hb', PcOk.of_core hpc rfl rfl rfl rfl fun _ ↦ ⟨_, rfl⟩,
        hs.of_runner hrn rfl⟩
    · cases h
  · cases h

end Reader

theorem ok_step {s : Sys} (hi : Inv below s) {a : Action} (ha : ActionOk below a) {o : Out}
    (h : step s a = some o) : OutOk below o := by
  rcases hi with hfault | ⟨hf, hb, hpc, hs⟩
  · simp [step, hfault] at h
  cases a <;> simp only [step, hf, Option.isSome_none, Bool.false_eq_true, ↓reduceIte] at h
  case call op env =>
    split at h
    · next hidle =>
      rw [← Option.some.inj h]
      exact ok_call hb hf (by simpa only [hidle] using hpc) hs ha op
    · cases h
  case resume env => exact ok_resume hb hf hpc hs ha h
  case readerRead => exact ok_readerRead hb hf hpc hs h
  case readerSend => exact ok_readerSend hb hf hpc hs h
  case readerEnter =>
    obtain ⟨s', hs', rfl⟩ := Option.map_eq_some'.mp h
    exact .of_inv (inv_readerEnter hb hf hpc hs hs')
  case readerShutdown =>
    obtain ⟨s', hs', rfl⟩ := Option.map_eq_some'.mp h
    exact .of_inv (inv_readerShutdown hb hf hpc hs hs')
  case readerAbort =>
    obtain ⟨s', hs', rfl⟩ := Option.map_eq_some'.mp h
    exact .of_inv (inv_readerAbort hb hf hpc hs hs')
  case childExit e =>
    obtain ⟨s', hs', rfl⟩ := Option.map_eq_some'.mp h
    exact .of_inv (inv_childExit hb hf hpc hs hs')

theorem inv_fresh (configPath : String) : Inv below (Sys.fresh configPath) :=
  .inr ⟨rfl, ⟨nofun, fun _ ↦ rfl, fun h ↦ absurd rfl h, nofun, nofun, nofun⟩,
    .inl ⟨rfl, rfl, rfl⟩, .of_shutdown nofun⟩

/-- Every reachable state, whatever the child writes. -/
theorem inv_of_reachable {s : Sys} (h : Reachable s) : Inv False s := by
  induction h with
  | fresh configPath => exact inv_fresh configPath
  | next _ hstep ih => exact (ok_step ih (actionOk_false _) hstep).1

/-- Every reachable state when the child's frames are below `2^32 - 1`. -/
theorem inv_of_reachableBelow {s : Sys} (h : ReachableBelow s) : Inv True s := by
  induction h with
  | fresh configPath => exact inv_fresh configPath
  | next _ ha hstep ih => exact (ok_step ih ha hstep).1

/-- The representation invariant between calls: a nonzero `nextLedger` means an open session
(open `shutdown` and `metaC`, a runner), a zero one means no `shutdown` channel. -/
def RepInv (c : Core) : Prop :=
  (c.nextLedger ≠ 0 → c.shutdown = some .empty ∧ (∃ buf, c.metaC = some ⟨buf, false⟩) ∧
    ∃ rn, c.hcnetCoreRunner = some (.live rn)) ∧
  (c.nextLedger = 0 → c.shutdown = none)

theorem repInv_of_idle {s : Sys} (hb : Base True s) (hc : Closed s.core ∨ Opened True s.core) :
    RepInv s.core := by
  rcases hc with hc | ho
  · exact ⟨fun h ↦ absurd hc.1 h, fun _ ↦ hc.2.2⟩
  · refine ⟨fun _ ↦ ⟨ho.2.1, hb.metaC_of_shutdown (by simp [ho.2.1]), ho.2.2⟩, ?_⟩
    exact fun h ↦ absurd h (ho.1 trivial)

/-- `Close` on a backend that `Close` left returns nil and changes nothing. -/
theorem close_of_closed {s : Sys} (hf : s.fault = none) (hpc : s.pc = .idle)
    (hc : Closed s.core) (hrn : s.core.hcnetCoreRunner = none) (env : Env) :
    step s (.call .close env) = some (s, some (.close none)) := by
  obtain ⟨hn, hl, hsh⟩ := hc
  obtain ⟨⟨⟩⟩ := s
  simp_all [step, call, closeBegin, closeRunner, closeReturn, Sys.finish, Sys.modify]

/-- Every reachable state either panicked on the nil runner or has none of the other panics
(closing a closed or nil channel, sending on a closed `metaC`, dereferencing the zero
`metaResult`, a second reader); after every return the representation invariant holds; and
a second `Close` after one that returned is a no-op that returns nil. -/
theorem representation_invariant :
    (∀ s, ReachableBelow s → s.fault = none ∨ s.fault = some .nilRunnerCall) ∧
    (∀ s a s' r, ReachableBelow s → ActionOk True a → step s a = some (s', some r) →
      RepInv s'.core) ∧
    (∀ s a s' err env, ReachableBelow s → ActionOk True a →
      step s a = some (s', some (.close err)) →
      step s' (.call .close env) = some (s', some (.close none))) := by
  refine ⟨fun s h ↦ ?_, fun s a s' r h ha hs ↦ ?_, fun s a s' err env h ha hs ↦ ?_⟩
  · rcases inv_of_reachableBelow h with h | h
    exacts [.inr h, .inl h.1]
  · obtain ⟨hi, hr⟩ := ok_step (inv_of_reachableBelow h) ha hs
    obtain ⟨hf, hpc, -⟩ : s'.fault = none ∧ s'.pc = .idle ∧ _ := hr r rfl
    rcases hi with h' | ⟨-, hb, hc, -⟩
    · simp [hf] at h'
    · exact repInv_of_idle hb (by simpa only [hpc] using hc)
  · obtain ⟨-, hr⟩ := ok_step (inv_of_reachableBelow h) ha hs
    obtain ⟨hf, hpc, hc, hrn⟩ : s'.fault = none ∧ s'.pc = .idle ∧ _ := hr _ rfl
    exact close_of_closed hf hpc hc hrn env

theorem representation_invariant_fresh :
    ((Sys.fresh "").fault = none ∨ (Sys.fresh "").fault = some .nilRunnerCall) ∧
    RepInv (Sys.fresh "").core ∧
    step (Sys.fresh "") (.call .close ⟨.ok 0, fun _ ↦ .error (.new ""), none, .error (.new ""), none⟩) =
      some (Sys.fresh "", some (.close none)) :=
  ⟨representation_invariant.1 _ (.fresh ""),
    representation_invariant.2.1 _ (.call .close ⟨.ok 0, fun _ ↦ .error (.new ""), none,
      .error (.new ""), none⟩) _ (.close none) (.fresh "") (fun _ h ↦ nomatch h) rfl,
    representation_invariant.2.2 _ (.call .close ⟨.ok 0, fun _ ↦ .error (.new ""), none,
      .error (.new ""), none⟩) _ none _ (.fresh "") (fun _ h ↦ nomatch h) rfl⟩

/-- A failing `hcnetCoreRunnerFactory` leaves the nil `*hcnetCoreRunner` it returned in
`c.hcnetCoreRunner`, inside a non-nil interface. In every reachable state that holds it between
calls the backend is closed, and `Close` and every `PrepareRange` call `close()` on it and
panic. -/
theorem nil_runner_panics {s : Sys} (h : Reachable s) (hf : s.fault = none) (hpc : s.pc = .idle)
    (hrn : s.core.hcnetCoreRunner = some .nilPointer) :
    Closed s.core ∧
    (∀ env, ∃ s', step s (.call .close env) = some (s', none) ∧ s'.fault = some .nilRunnerCall) ∧
    ∀ env r, ∃ s', step s (.call (.prepareRange r) env) = some (s', none) ∧
      s'.fault = some .nilRunnerCall := by
  have hc : Closed s.core := by
    rcases inv_of_reachable h with h' | ⟨-, -, hok, -⟩
    · simp [hf] at h'
    · rw [hpc] at hok
      rcases hok with hc | ⟨-, -, rn, hrn'⟩
      · exact hc
      · simp [hrn] at hrn'
  obtain ⟨hn, hl, hsh⟩ := hc
  let t : Sys :=
    { s.modify (fun c ↦ { c with nextLedger := 0, lastLedger := none }) with
      fault := some .nilRunnerCall }
  have hcl : ∀ env k, closeBegin s env k = (t, none) := fun env k ↦ by
    simp [t, closeBegin, hsh, closeRunner, hrn, Sys.crash]
  refine ⟨⟨hn, hl, hsh⟩, fun env ↦ ⟨t, ?_, rfl⟩, fun env r ↦ ⟨t, ?_, rfl⟩⟩
  · simp [step, hf, hpc, call, hcl]
  · simp [step, hf, hpc, call, prepareRange, isPrepared, hn, hcl]

/-- The error `newHcnetCoreRunner` returns when it cannot make its temporary directory. -/
def mkdirErr : Err :=
  .wrap (.new "mkdir /tmp/captive-hcnet-core-0: permission denied")
    "error creating subprocess tmpdir"

/-- `PrepareRange([65, 66])` on a fresh backend whose runner factory fails. -/
def failedFactoryRun : List Action :=
  [.call (.prepareRange (boundedRange 65 66))
    ⟨.ok 100, fun _ ↦ .ok ⟨""⟩, some mkdirErr, .error (.new ""), none⟩]

theorem nil_runner_panics_after_failed_factory :
    run (Sys.fresh "") failedFactoryRun = some (after (Sys.fresh "") failedFactoryRun,
      [.prepareRange (boundedRange 65 66)
        (some (.wrap (.wrap mkdirErr "error creating hcnet-core runner") "opening subprocess"))]) ∧
    (after (Sys.fresh "") failedFactoryRun).core.hcnetCoreRunner = some .nilPointer ∧
    Closed (after (Sys.fresh "") failedFactoryRun).core ∧
    (∀ env, ∃ s', step (after (Sys.fresh "") failedFactoryRun) (.call .close env) = some (s', none) ∧
      s'.fault = some .nilRunnerCall) ∧
    ∀ env r, ∃ s', step (after (Sys.fresh "") failedFactoryRun) (.call (.prepareRange r) env) =
      some (s', none) ∧ s'.fault = some .nilRunnerCall :=
  ⟨rfl, rfl, nil_runner_panics (.after _ (.fresh "") rfl) rfl rfl rfl⟩

end AuroraIngest.Captive.Representation
