import AuroraIngest.Captive.CoreRunner

/-!
# The runner's channels

What the channels `shutdown` and `processExit` and the `WaitGroup` see of the runner is a
small machine, `Chan`: the runner's flags, the counter, and how many reapers have been spawned
and have not returned. Every step of the runner is a move of this machine or one of its panics
(`step_chanMove`), and the machine keeps an invariant. From it, a runner panics in two ways
only: a reaper dereferencing a nil `r.cmd`, or after a second start, since `newHcnetCoreRunner`
makes the channels once and `close` closes them (`runner_panics`).
-/

namespace AuroraIngest.Captive.CoreRunner

open AuroraIngest.Go (filepathJoin)
open AuroraIngest.Captive.Ledger (Err)

/-- What the runner's channels see of a state: whether it is started, whether `shutdown` and
`processExit` are closed, whether a `close` blocks in `r.wg.Wait()`, the counter of the
`WaitGroup`, and how many reapers have not returned and have been spawned. -/
structure Chan where
  started : Bool
  shutdownClosed : Bool
  processExitClosed : Bool
  blocked : Bool
  wg : Nat
  live : Nat
  spawned : Nat
  deriving DecidableEq, Repr

def Sys.chan (s : Sys) : Chan :=
  ⟨s.runner.started, s.runner.shutdownClosed, s.runner.processExitClosed, s.closing.isSome,
    s.runner.wg, s.reapers.countP Reaper.live, s.reapers.length⟩

@[simp] theorem Sys.chan_started (s : Sys) : s.chan.started = s.runner.started := rfl
@[simp] theorem Sys.chan_shutdownClosed (s : Sys) :
    s.chan.shutdownClosed = s.runner.shutdownClosed := rfl
@[simp] theorem Sys.chan_processExitClosed (s : Sys) :
    s.chan.processExitClosed = s.runner.processExitClosed := rfl
@[simp] theorem Sys.chan_blocked (s : Sys) : s.chan.blocked = s.closing.isSome := rfl
@[simp] theorem Sys.chan_wg (s : Sys) : s.chan.wg = s.runner.wg := rfl
@[simp] theorem Sys.chan_live (s : Sys) : s.chan.live = s.reapers.countP Reaper.live := rfl
@[simp] theorem Sys.chan_spawned (s : Sys) : s.chan.spawned = s.reapers.length := rfl

/-- The moves of the protocol: a start spawns a reaper, a `close` of a started runner closes
`shutdown` and blocks, the blocked `close` resumes once the counter is zero and closes
`processExit`, and a reaper returns. -/
inductive Chan.Step : Chan → Chan → Prop
  | start {c : Chan} : c.started = false → c.blocked = false →
      Chan.Step c { c with
        started := true, wg := c.wg + 1, live := c.live + 1, spawned := c.spawned + 1 }
  | shutdown {c : Chan} : c.started = true → c.shutdownClosed = false → c.blocked = false →
      Chan.Step c { c with shutdownClosed := true, blocked := true }
  | resume {c : Chan} : c.blocked = true → c.wg = 0 → c.processExitClosed = false →
      Chan.Step c { c with blocked := false, processExitClosed := true, started := false }
  | retire {c : Chan} : 0 < c.live → Chan.Step c { c with wg := c.wg - 1, live := c.live - 1 }
  | stay (c : Chan) : Chan.Step c c

/-- The panics of the protocol: `close(r.shutdown)` or `close(r.processExit)` on a closed
channel, a reaper's send on the closed `processExit`, and a reaper's `c.cmd.Wait()` on a nil
`r.cmd`, which the protocol cannot rule out. -/
inductive Chan.Fails : Chan → Fault → Prop
  | shutdown {c : Chan} : c.started = true → c.shutdownClosed = true → c.blocked = false →
      Chan.Fails c .closeOfClosedChannel
  | processExit {c : Chan} : c.blocked = true → c.wg = 0 → c.processExitClosed = true →
      Chan.Fails c .closeOfClosedChannel
  | send {c : Chan} : 0 < c.live → c.processExitClosed = true → Chan.Fails c .sendOnClosedChannel
  | nilCmd {c : Chan} : 0 < c.live → Chan.Fails c .nilDereference

/-- The protocol's invariant. The reapers that have not returned are counted by `wg`, at most
one, and only while the runner is started; `shutdown` is closed only after a start, and a
started runner whose `shutdown` is closed and whose `close` does not block was started twice;
`processExit` is closed only after `shutdown`, by a `close` that has returned, and a reaper that
has not returned after that belongs to a second start. -/
structure Chan.Inv (c : Chan) : Prop where
  wg : c.wg = c.live
  live_le : c.live ≤ 1
  started_of_live : 0 < c.live → c.started = true
  spawned_of_started : c.started = true → 1 ≤ c.spawned
  spawned_of_shutdown : c.shutdownClosed = true → 1 ≤ c.spawned
  restarted : c.started = true → c.shutdownClosed = true → c.blocked = false → 2 ≤ c.spawned
  processExit : c.processExitClosed = true → c.shutdownClosed = true ∧ c.blocked = false
  restartedLive : c.processExitClosed = true → 0 < c.live → 2 ≤ c.spawned
  blocked : c.blocked = true → c.started = true ∧ c.shutdownClosed = true

theorem Chan.Inv.step {c c' : Chan} (hi : c.Inv) (h : Chan.Step c c') : c'.Inv := by
  obtain ⟨hwg, hle, hsl, hss, hsh, hre, hpe, hrl, hbl⟩ := hi
  cases h with
  | start hs hb =>
    have h0 : c.live = 0 := by
      by_contra h
      simp [hsl (Nat.pos_of_ne_zero h)] at hs
    refine ⟨by simp [hwg], by simp [h0], by simp, by simp, fun _ ↦ by simp, fun _ h _ ↦ ?_,
      hpe, fun h _ ↦ ?_, by simp [hb]⟩
    · have := hsh h; simp; omega
    · have := hsh (hpe h).1; simp; omega
  | shutdown hs hsc hb =>
    have hp : c.processExitClosed = false := by
      cases h : c.processExitClosed
      · rfl
      · simp [(hpe h).1] at hsc
    exact ⟨hwg, hle, hsl, hss, fun _ ↦ hss hs, by simp, by simp [hp], by simp [hp], by simp [hs]⟩
  | resume hb hw hp =>
    have := (hbl hb).2
    exact ⟨hwg, hle, by simp; omega, by simp, hsh, by simp, by simp [this], by simp; omega, by simp⟩
  | retire hl =>
    exact ⟨by simp; omega, by simp; omega, fun h ↦ hsl (by simp at h; omega), hss, hsh, hre, hpe,
      fun h h' ↦ hrl h (by simp at h'; omega), hbl⟩
  | stay => exact ⟨hwg, hle, hsl, hss, hsh, hre, hpe, hrl, hbl⟩

/-- Under the invariant, the protocol can only panic by a nil `r.cmd` or after a second
start. -/
theorem Chan.Inv.fails {c : Chan} {f : Fault} (hi : c.Inv) (h : Chan.Fails c f) :
    f = .nilDereference ∨ 2 ≤ c.spawned := by
  cases h with
  | shutdown hs hsc hb => exact .inr (hi.restarted hs hsc hb)
  | processExit hb _ hp => simp [(hi.processExit hp).2] at hb
  | send hl hp => exact .inr (hi.restartedLive hp hl)
  | nilCmd => exact .inl rfl

/-! ## The runner refines the protocol -/

/-- A step of the runner seen on its channels: a move of the protocol without a panic, or a
panic of the protocol that leaves the channels as they were. -/
def ChanMove (s s' : Sys) : Prop :=
  (s'.fault = none ∧ Chan.Step s.chan s'.chan) ∨
    ∃ f, s'.fault = some f ∧ Chan.Fails s.chan f ∧ s'.chan = s.chan

theorem ChanMove.stay {s s' : Sys} (hc : s'.chan = s.chan) (hf : s'.fault = none) :
    ChanMove s s' :=
  .inl ⟨hf, hc ▸ .stay _⟩

theorem ChanMove.fail {s : Sys} {f : Fault} (h : Chan.Fails s.chan f) :
    ChanMove s (s.crash f) :=
  .inr ⟨f, rfl, h, rfl⟩

@[simp] theorem Sys.chan_modifyCmd (s : Sys) (j : Nat) (f : Cmd → Cmd) :
    (s.modifyCmd j f).chan = s.chan := by
  simp [Sys.chan]

theorem killChild_chan (s : Sys) : (killChild s).chan = s.chan ∧ (killChild s).fault = s.fault ∧
    (killChild s).runner.tempDir = s.runner.tempDir := by
  unfold killChild
  split <;> simp [Sys.chan]

theorem startCmd_chanMove {s : Sys} (hs : s.runner.started = false) (hc : s.closing = none)
    (hf : s.fault = none) (cmd : Cmd) (env : StartEnv) (msg : String) :
    ChanMove s (startCmd s cmd env msg).1 := by
  by_cases herr : env.pipeErr.isSome ∨ env.startErr.isSome
  · obtain ⟨mp, e, heq⟩ := startCmd_of_err s cmd msg herr
    rw [heq]
    exact .stay rfl hf
  · simp only [not_or, Option.not_isSome_iff_eq_none] at herr
    rw [startCmd_of_ok herr.1 herr.2]
    refine .inl ⟨by simpa using hf, ?_⟩
    convert Chan.Step.start (c := s.chan) hs (by simp [Sys.chan, hc]) using 1
    simp [Sys.chan, Sys.setCmd, Reaper.live]

theorem catchup_chanMove {s : Sys} (hc : s.closing = none) (hf : s.fault = none)
    («from» «to» : UInt32) (env : CatchupEnv) : ChanMove s (catchup s «from» «to» env).1 := by
  unfold catchup
  split
  · exact .stay rfl hf
  · next hs =>
    split
    · exact .stay rfl hf
    · exact startCmd_chanMove (by simpa using hs) hc hf _ _ _

theorem runFrom_chanMove {s : Sys} (hc : s.closing = none) (hf : s.fault = none)
    («from» : UInt32) (hash : String) (env : StartEnv) :
    ChanMove s (runFrom s «from» hash env).1 := by
  unfold runFrom
  split
  · exact .stay rfl hf
  · next hs => exact startCmd_chanMove (by simpa using hs) hc hf _ _ _

theorem close_chanMove {s : Sys} (hc : s.closing = none) (hf : s.fault = none)
    (removeErr : Option Err) : ChanMove s (close s removeErr).1 := by
  have hk : (if processIsAlive s then killChild s else s).chan = s.chan ∧
      (if processIsAlive s then killChild s else s).fault = s.fault := by
    split
    · exact ⟨(killChild_chan s).1, (killChild_chan s).2.1⟩
    · exact ⟨rfl, rfl⟩
  unfold close
  generalize (if processIsAlive s then killChild s else s) = s1 at hk ⊢
  obtain ⟨hch, hf1⟩ := hk
  simp only [Sys.chan, Chan.mk.injEq] at hch
  obtain ⟨h1, h2, h3, h4, h5, h6, h7⟩ := hch
  dsimp only
  split
  · next hst =>
    split
    · next hsh =>
      refine .inr ⟨_, rfl, .shutdown (by simpa [Sys.chan, h1] using hst)
        (by simpa [Sys.chan, h2] using hsh) (by simp [Sys.chan, hc]), ?_⟩
      simp [Sys.chan, Sys.crash, h1, h2, h3, h4, h5, h6, h7]
    · next hsh =>
      refine .inl ⟨by simpa [hf1] using hf, ?_⟩
      convert Chan.Step.shutdown (c := s.chan) (by simpa [Sys.chan, h1] using hst)
        (by simpa [Sys.chan, h2] using hsh) (by simp [Sys.chan, hc]) using 1
      simp [Sys.chan, h1, h3, h5, h6, h7]
  · next hst =>
    refine .stay ?_ (by simpa [hf1] using hf)
    simp only [Bool.not_eq_true, h1] at hst
    simp [Sys.chan, h2, h3, h4, h5, h6, h7, hst]

theorem closeResume_chanMove {s : Sys} {ret : Option Err} (hc : s.closing = some ret)
    (hw : s.runner.wg = 0) (hf : s.fault = none) : ChanMove s (closeResume s ret).1 := by
  unfold closeResume
  split
  · next hp => exact .fail (.processExit (by simp [Sys.chan, hc]) hw hp)
  · next hp =>
    refine .inl ⟨hf, ?_⟩
    convert Chan.Step.resume (c := s.chan) (by simp [Sys.chan, hc]) hw (by simpa using hp) using 1

/-- Replacing the reaper at `i` of `rs`, when the state's reapers are `rs`, by one that has
returned exactly when it had keeps the channels. -/
theorem Sys.chan_setReaper {s : Sys} {rs : List Reaper} {i : Nat} {x y : Reaper}
    (hs : s.reapers = rs) (h : rs[i]? = some y) (hx : x.live = y.live) :
    { s with reapers := rs.set i x }.chan = s.chan := by
  have := countP_set_of_getElem? Reaper.live (x := x) h
  subst hs
  simp only [Sys.chan, List.length_set, Chan.mk.injEq, true_and, and_true]
  rw [hx] at this
  omega

/-- A reaper that returns: `c.wg.Done()`. -/
theorem Sys.chan_retire {s : Sys} {i : Nat} {y : Reaper} (h : s.reapers[i]? = some y)
    (hy : y.live = true) :
    { s with
        reapers := s.reapers.set i .done
        runner := { s.runner with wg := s.runner.wg - 1 } }.chan =
      { s.chan with wg := s.chan.wg - 1, live := s.chan.live - 1 } := by
  have := countP_set_of_getElem? Reaper.live (x := .done) h
  rw [hy] at this
  simp only [Sys.chan, List.length_set, Chan.mk.injEq, true_and, and_true]
  simp only [Reaper.live, Bool.false_eq_true, ↓reduceIte] at this
  omega

theorem reaperEnter_chanMove {s s' : Sys} {i : Nat} (hf : s.fault = none)
    (h : reaperEnter s i = some s') : ChanMove s s' := by
  unfold reaperEnter at h
  split at h
  · next hi =>
    have hl : 0 < s.chan.live := countP_live_pos hi rfl
    split at h
    · cases h
      exact .fail (.nilCmd hl)
    · split at h
      · cases h
      · split at h
        · cases h
          exact .stay (Sys.chan_setReaper rfl hi rfl) hf
        · split at h
          · cases h
            exact .stay (Sys.chan_setReaper rfl hi rfl) hf
          · cases h
            exact .stay ((Sys.chan_setReaper (x := .waiting _) (Sys.modifyCmd_reapers _ _ _) hi
              rfl).trans
              (Sys.chan_modifyCmd _ _ _)) (by simpa using hf)
  · cases h

theorem reaperReap_chanMove {s s' : Sys} {i : Nat} (hf : s.fault = none)
    (h : reaperReap s i = some s') : ChanMove s s' := by
  unfold reaperReap at h
  split at h
  · next j hi =>
    split at h
    · cases h
      exact .stay ((Sys.chan_setReaper (x := .offering _) (Sys.modifyCmd_reapers _ _ _) hi
        rfl).trans
        (Sys.chan_modifyCmd _ _ _)) (by simpa using hf)
    · cases h
  · cases h

theorem reaperShutdown_chanMove {s s' : Sys} {i : Nat} (hf : s.fault = none)
    (h : reaperShutdown s i = some s') : ChanMove s s' := by
  unfold reaperShutdown at h
  split at h
  · next hi =>
    split at h
    · cases h
      exact .inl ⟨hf, Sys.chan_retire hi rfl ▸ .retire (countP_live_pos hi rfl)⟩
    · cases h
  · cases h

theorem reaperSendClosed_chanMove {s s' : Sys} {i : Nat}
    (h : reaperSendClosed s i = some s') : ChanMove s s' := by
  unfold reaperSendClosed at h
  split at h
  · next hi =>
    split at h
    · cases h
      exact .fail (.send (countP_live_pos hi rfl) ‹_›)
    · cases h
  · cases h

theorem receive_chanMove {s s' : Sys} {i : Nat} {result : Option Err} (hf : s.fault = none)
    (h : receive s i = some (s', result)) : ChanMove s s' := by
  unfold receive at h
  split at h
  · next hi =>
    split at h
    · cases h
    · cases h
      exact .inl ⟨hf, Sys.chan_retire hi rfl ▸ .retire (countP_live_pos hi rfl)⟩
  · cases h

theorem childExit_chanMove {s s' : Sys} {j : Nat} {result : Option Err} (hf : s.fault = none)
    (h : childExit s j result = some s') : ChanMove s s' := by
  unfold childExit at h
  split at h
  · split at h
    · cases h
      exact .stay (Sys.chan_modifyCmd _ _ _) (by simpa using hf)
    · cases h
  · cases h

/-- Every step of the runner is a move of its channel protocol. -/
theorem step_chanMove {s s' : Sys} {a : Action} {r : Option Ret} (hf : s.fault = none)
    (h : step s a = some (s', r)) : ChanMove s s' := by
  cases a <;> simp only [step, hf, Option.isSome_none, Bool.false_eq_true, ↓reduceIte] at h
  case catchup f t env =>
    split at h
    · next hc => cases h; exact catchup_chanMove (by simpa using hc) hf f t env
    · cases h
  case runFrom f hash env =>
    split at h
    · next hc => cases h; exact runFrom_chanMove (by simpa using hc) hf f hash env
    · cases h
  case close removeErr =>
    split at h
    · next hc => cases h; exact close_chanMove (by simpa using hc) hf removeErr
    · cases h
  case closeResume =>
    split at h
    · next ret hc =>
      split at h
      · next hw => cases h; exact closeResume_chanMove hc hw hf
      · cases h
    · cases h
  case childExit j result =>
    obtain ⟨t, ht, ⟨⟩⟩ := Option.map_eq_some'.mp h
    exact childExit_chanMove hf ht
  case reaperEnter i =>
    obtain ⟨t, ht, ⟨⟩⟩ := Option.map_eq_some'.mp h
    exact reaperEnter_chanMove hf ht
  case reaperReap i =>
    obtain ⟨t, ht, ⟨⟩⟩ := Option.map_eq_some'.mp h
    exact reaperReap_chanMove hf ht
  case reaperShutdown i =>
    obtain ⟨t, ht, ⟨⟩⟩ := Option.map_eq_some'.mp h
    exact reaperShutdown_chanMove hf ht
  case reaperSendClosed i =>
    obtain ⟨t, ht, ⟨⟩⟩ := Option.map_eq_some'.mp h
    exact reaperSendClosed_chanMove ht
  case receive i =>
    obtain ⟨⟨t, e⟩, ht, h⟩ := Option.map_eq_some'.mp h
    cases h
    exact receive_chanMove hf ht
  case receiveClosed =>
    split at h
    · cases h; exact .stay rfl hf
    · cases h

theorem chan_init (r : HcnetCoreRunner) (h : r.started = false ∧ r.wg = 0 ∧
    r.shutdownClosed = false ∧ r.processExitClosed = false ∧ r.cmd = none) :
    (Sys.init r).chan.Inv := by
  obtain ⟨h1, h2, h3, h4, -⟩ := h
  constructor <;> simp [Sys.init, Sys.chan, h1, h2, h3, h4]

/-- The channel invariant holds in every state of a runner `newHcnetCoreRunner` made. -/
theorem Reachable.chanInv {s : Sys} (h : Reachable s) : s.chan.Inv := by
  induction h with
  | new hnew => exact chan_init _ (newHcnetCoreRunner_fresh hnew)
  | next _ hstep ih =>
    rcases step_chanMove (fault_none_of_step hstep) hstep with ⟨-, hs⟩ | ⟨f, -, -, hc⟩
    · exact ih.step hs
    · exact hc ▸ ih

/-- A runner that `newHcnetCoreRunner` made panics only by a reaper dereferencing a nil
`r.cmd`, or after `catchup` or `runFrom` started it a second time: every other panic of its
channels, closing `shutdown` or `processExit` twice or sending on a closed `processExit`,
needs two spawned reapers. -/
theorem runner_panics {s : Sys} {f : Fault} (h : Reachable s) (hf : s.fault = some f) :
    f = .nilDereference ∨ 2 ≤ s.reapers.length := by
  induction h with
  | new => simp [Sys.init] at hf
  | next hs hstep _ =>
    rcases step_chanMove (fault_none_of_step hstep) hstep with ⟨hn, -⟩ | ⟨f', hf', hfails, hc⟩
    · simp [hn] at hf
    · rw [hf] at hf'
      cases hf'
      have := (congrArg Chan.spawned hc).symm ▸ hs.chanInv.fails hfails
      simpa [Sys.chan] using this

/-- A `runFrom` whose `close` comes before the reaper's `select`: the reaper panics. -/
theorem runner_panics_close_race :
    ∃ r s, newHcnetCoreRunner "hcnet-core" "" "pass" [] ⟨"/tmp", 0, none, none⟩ = .ok r ∧
      run (Sys.init r) [.runFrom 2 "hash" ⟨none, none, closedPipe⟩, .close none, .reaperEnter 0] =
        some (s, [.runFrom none]) ∧
      Reachable s ∧ s.fault = some .nilDereference ∧
      (Fault.nilDereference = .nilDereference ∨ 2 ≤ s.reapers.length) := by
  have hnew : newHcnetCoreRunner "hcnet-core" "" "pass" [] ⟨"/tmp", 0, none, none⟩ =
      .ok ⟨"hcnet-core", "", "pass", [], false, 0, false, none, false, none,
      filepathJoin ["/tmp", "captive-hcnet-core-" ++ formatHex 0]⟩ := rfl
  have hrun : run (Sys.init ⟨"hcnet-core", "", "pass", [], false, 0, false, none, false, none,
      filepathJoin ["/tmp", "captive-hcnet-core-" ++ formatHex 0]⟩)
      [.runFrom 2 "hash" ⟨none, none, closedPipe⟩, .close none, .reaperEnter 0] =
      some (after (Sys.init ⟨"hcnet-core", "", "pass", [], false, 0, false, none, false, none,
      filepathJoin ["/tmp", "captive-hcnet-core-" ++ formatHex 0]⟩)
        [.runFrom 2 "hash" ⟨none, none, closedPipe⟩, .close none, .reaperEnter 0], [.runFrom none]) :=
    rfl
  have hs := (Reachable.new hnew).of_run hrun
  exact ⟨_, _, hnew, hrun, hs, rfl, runner_panics hs rfl⟩

end AuroraIngest.Captive.CoreRunner
