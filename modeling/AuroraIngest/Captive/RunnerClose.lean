import AuroraIngest.Captive.RunnerChannels

/-!
# The runner's `close` and its reaper

`close` kills the live child and sets `r.cmd` to nil before it waits for the reaper, and whether
it returns depends on where the reaper is. A reaper inside its `select` is in `c.cmd.Wait()` for
the child `close` killed: it reaps the child and takes the closed `shutdown`, and `close`
returns (`close_after_select_returns`). A reaper that has not entered its `select` evaluates
`c.cmd.Wait()` with `r.cmd` already nil and panics, so on every schedule `close` never returns
(`close_before_select_never_returns`). `ReaperInv` says where the reapers stand against the
commands in every state a runner reaches. When `close` does return, it returns the error of
removing the temporary directory, fixed at the call: that is the `closeErr` the backend's
one-step `Close` stands for (`closeRunner_refines_close`).
-/

namespace AuroraIngest.Captive.CoreRunner

open AuroraIngest.Go (filepathJoin)
open AuroraIngest.Captive.Ledger (Err)

/-- Where a reaper that has not returned stands against the commands. Before its `select` it
belongs to `r.cmd`, whose `Wait` has not been called and whose child has not been reaped,
unless a blocked `close` has dropped `r.cmd`. Inside `Wait` it waits for the child of `r.cmd`,
not yet reaped, or, once `close` killed that child and dropped `r.cmd`, for a child that has
exited. -/
structure ReaperInv (s : Sys) : Prop where
  spawned : ∀ i : Nat, s.reapers[i]? = some .spawned →
    (s.closing.isSome ∧ s.runner.cmd = none) ∨
    ∃ j c p, s.runner.cmd = some j ∧ s.cmds[j]? = some c ∧ c.finished = false ∧
      c.process = some p ∧ p.signalZero = true
  waiting : ∀ i j : Nat, s.reapers[i]? = some (.waiting j) → ∃ c, s.cmds[j]? = some c ∧
    c.finished = true ∧
    ((s.runner.cmd = some j ∧ ∃ p, c.process = some p ∧ p.signalZero = true) ∨
      (s.runner.cmd = none ∧ ∃ e, c.process = some (.exited e)))

/-- Under the channel invariant, two reapers that have not returned are the same. -/
theorem Chan.Inv.unique {s : Sys} (hc : s.chan.Inv) {i k : Nat} {x y : Reaper}
    (hi : s.reapers[i]? = some x) (hx : x.live = true) (hk : s.reapers[k]? = some y)
    (hy : y.live = true) : i = k :=
  countP_live_unique hc.live_le hi hk hx hy

/-- A runner that is not started has no reaper that has not returned. -/
theorem Chan.Inv.not_live {s : Sys} (hc : s.chan.Inv) (hs : s.runner.started = false) {i : Nat}
    {x : Reaper} (h : s.reapers[i]? = some x) : x.live = false := by
  by_contra hx
  have := hc.started_of_live (countP_live_pos h (by simpa using hx))
  simp [Sys.chan, hs] at this

theorem ReaperInv.of_not_started {s : Sys} (hc : s.chan.Inv) (hs : s.runner.started = false) :
    ReaperInv s :=
  ⟨fun _ h ↦ absurd (hc.not_live hs h) (by decide),
    fun _ _ h ↦ absurd (hc.not_live hs h) (by simp [Reaper.live])⟩

/-- A reaper that moves to a place `ReaperInv` does not track, when it was the one that had not
returned: nothing is left to track. -/
theorem ReaperInv.of_unique {s s' : Sys} (hc : s.chan.Inv) {i : Nat} {x y : Reaper}
    (hi : s.reapers[i]? = some y) (hy : y.live = true) (hs : s'.reapers = s.reapers.set i x)
    (hx : x ≠ .spawned ∧ ∀ j, x ≠ .waiting j) : ReaperInv s' := by
  have hk : ∀ k z, s'.reapers[k]? = some z → z.live = true → z = x := fun k z hz hl ↦ by
    rw [hs, getElem?_set_of_some hi] at hz
    split at hz
    · exact (Option.some.inj hz).symm
    · next h => exact absurd (hc.unique hi hy hz hl) h
  exact ⟨fun k h ↦ absurd (hk k _ h rfl) (Ne.symm hx.1),
    fun k j h ↦ absurd (hk k _ h rfl) (Ne.symm (hx.2 j))⟩

theorem reaperInv_startCmd {s : Sys} (hc : s.chan.Inv) (hs : s.runner.started = false)
    {cmd : Cmd} (hcmd : cmd.finished = false) (env : StartEnv) (msg : String) :
    ReaperInv (startCmd s cmd env msg).1 := by
  by_cases herr : env.pipeErr.isSome ∨ env.startErr.isSome
  · obtain ⟨mp, e, heq⟩ := startCmd_of_err s cmd msg herr
    rw [heq]
    exact ReaperInv.of_not_started hc hs
  simp only [not_or, Option.not_isSome_iff_eq_none] at herr
  rw [startCmd_of_ok herr.1 herr.2]
  constructor
  · intro i h
    rcases getElem?_append_singleton h with h | ⟨rfl, -⟩
    · exact absurd (hc.not_live hs h) (by decide)
    · exact .inr ⟨_, { cmd with process := some .running }, _, rfl,
        by rw [Sys.getElem?_modifyCmd, if_pos rfl]; simp [Sys.setCmd], hcmd, rfl, rfl⟩
  · intro i j h
    rcases getElem?_append_singleton h with h | ⟨-, h⟩
    · exact absurd (hc.not_live hs h) (by simp [Reaper.live])
    · cases h

theorem reaperInv_close {s : Sys} (hi : ReaperInv s) (hcl : s.closing = none)
    (hst : s.runner.started = true) (hsh : s.runner.shutdownClosed = false)
    (removeErr : Option Err) : ReaperInv (close s removeErr).1 := by
  rw [close_of_started hst hsh]
  dsimp only
  by_cases ha : processIsAlive s = true
  · rw [if_pos ha]
    constructor
    · intro i h
      exact .inl ⟨rfl, killChild_cmd s⟩
    · intro i j h
      obtain ⟨c, hc, hfin, ⟨hcmd, p, hp, hz⟩ | ⟨hcmd, hex⟩⟩ := hi.waiting i j (by simpa using h)
      · obtain ⟨e, he⟩ := Proc.kill_of_signalZero hz
        exact ⟨_, killChild_cmds hcmd hc hfin, hfin, .inr ⟨killChild_cmd s, e, by simp [hp, he]⟩⟩
      · rw [killChild_of_none hcmd]
        exact ⟨c, hc, hfin, .inr ⟨hcmd, hex⟩⟩
  · rw [if_neg ha]
    constructor
    · intro i h
      rcases hi.spawned i h with ⟨hs, -⟩ | ⟨j, c, p, hcmd, hc, -, hp, hz⟩
      · simp [hcl] at hs
      · exact absurd (processIsAlive_of hcmd hc hp hz) ha
    · intro i j h
      obtain ⟨c, hc, hfin, ⟨hcmd, p, hp, hz⟩ | hright⟩ := hi.waiting i j h
      · exact absurd (processIsAlive_of hcmd hc hp hz) ha
      · exact ⟨c, hc, hfin, .inr hright⟩

theorem reaperInv_childExit {s s' : Sys} (hi : ReaperInv s) {j : Nat} {result : Option Err}
    (h : childExit s j result = some s') : ReaperInv s' := by
  unfold childExit at h
  split at h
  · next c hc =>
    split at h
    · next hrun =>
      cases h
      have hj : (s.modifyCmd j fun c ↦ { c with process := some (.exited result) }).cmds[j]? =
          some { c with process := some (.exited result) } := by
        rw [Sys.getElem?_modifyCmd, if_pos rfl, hc]; rfl
      constructor
      · intro i hsp
        rcases hi.spawned i (by simpa using hsp) with hl | ⟨k, d, p, hcmd, hd, hfin, hp, hz⟩
        · exact .inl (by simpa using hl)
        · by_cases hjk : j = k
          · subst hjk
            rw [hc] at hd; cases hd
            exact .inr ⟨j, _, _, by simpa using hcmd, hj, hfin, rfl, rfl⟩
          · exact .inr ⟨k, d, p, by simpa using hcmd,
              by rw [Sys.getElem?_modifyCmd, if_neg hjk, hd], hfin, hp, hz⟩
      · intro i k hw
        obtain ⟨d, hd, hfin, hrest⟩ := hi.waiting i k (by simpa using hw)
        by_cases hjk : j = k
        · subst hjk
          rw [hc] at hd; cases hd
          rcases hrest with ⟨hcmd, -⟩ | ⟨-, e, he⟩
          · exact ⟨_, hj, hfin, .inl ⟨by simpa using hcmd, _, rfl, rfl⟩⟩
          · simp [he] at hrun
        · exact ⟨d, by rw [Sys.getElem?_modifyCmd, if_neg hjk, hd], hfin, by simpa using hrest⟩
    · cases h
  · cases h

theorem reaperInv_reaperEnter {s s' : Sys} (hc : s.chan.Inv) (hi : ReaperInv s) {i : Nat}
    (hf' : s'.fault = none) (h : reaperEnter s i = some s') : ReaperInv s' := by
  unfold reaperEnter at h
  split at h
  · next hsp =>
    split at h
    · cases h; simp [Sys.crash] at hf'
    · next j hcmd =>
      split at h
      · cases h
      · next c hcj =>
        split at h
        · cases h
          exact ReaperInv.of_unique hc hsp rfl rfl ⟨by decide, fun _ ↦ by simp⟩
        · split at h
          · cases h
            exact ReaperInv.of_unique hc hsp rfl rfl ⟨by decide, fun _ ↦ by simp⟩
          · next hnone hfin =>
            cases h
            have hp : ∃ p, c.process = some p ∧ p.signalZero = true := by
              rcases hi.spawned i hsp with ⟨-, h⟩ | ⟨j', c', p, hcmd', hc', -, hp, hz⟩
              · simp [hcmd] at h
              · rw [hcmd] at hcmd'; cases hcmd'; rw [hcj] at hc'; cases hc'; exact ⟨p, hp, hz⟩
            have hk : ∀ k x, s.reapers[k]? = some x → x.live = true → k = i := fun k x hx hl ↦
              (hc.unique hsp rfl hx hl).symm
            constructor
            · intro k hk'
              rw [getElem?_set_of_some hsp] at hk'
              split at hk'
              · simp at hk'
              · next hne => exact absurd (hk k _ hk' rfl) (Ne.symm hne)
            · intro k j' hk'
              rw [getElem?_set_of_some hsp] at hk'
              split at hk'
              · simp only [Option.some.injEq, Reaper.waiting.injEq] at hk'
                subst hk'
                refine ⟨{ c with finished := true }, ?_, rfl, .inl ⟨by simpa using hcmd, hp⟩⟩
                rw [Sys.getElem?_modifyCmd, if_pos rfl, hcj]
                rfl
              · next hne => exact absurd (hk k _ hk' rfl) (Ne.symm hne)
  · cases h

theorem reaperInv_reaperReap {s s' : Sys} (hc : s.chan.Inv) {i : Nat}
    (h : reaperReap s i = some s') : ReaperInv s' := by
  unfold reaperReap at h
  split at h
  · next j hw =>
    split at h
    · cases h
      exact ReaperInv.of_unique (x := .offering _) hc hw rfl rfl ⟨by simp, fun _ ↦ by simp⟩
    · cases h
  · cases h

theorem reaperInv_retire {s : Sys} (hc : s.chan.Inv) {i : Nat} {result : Option Err}
    (hi : s.reapers[i]? = some (.offering result)) (wg : Nat) :
    ReaperInv { s with
      reapers := s.reapers.set i .done
      runner := { s.runner with wg := wg } } :=
  ReaperInv.of_unique (x := .done) hc hi rfl rfl ⟨by decide, fun _ ↦ by simp⟩

/-- `ReaperInv` holds after every step that does not panic. -/
theorem reaperInv_step {s s' : Sys} {a : Action} {r : Option Ret} (hc : s.chan.Inv)
    (hi : ReaperInv s) (hf : s.fault = none) (h : step s a = some (s', r))
    (hf' : s'.fault = none) : ReaperInv s' := by
  have hc' : s'.chan.Inv := by
    rcases step_chanMove hf h with ⟨-, hs⟩ | ⟨f, hf'', -⟩
    · exact hc.step hs
    · simp [hf'] at hf''
  cases a <;> simp only [step, hf, Option.isSome_none, Bool.false_eq_true, ↓reduceIte] at h
  case catchup f t env =>
    split at h
    · cases h
      unfold catchup
      split
      · exact hi
      · next hs =>
        split
        · exact hi
        · exact reaperInv_startCmd hc (by simpa using hs) rfl _ _
    · cases h
  case runFrom f hash env =>
    split at h
    · cases h
      unfold runFrom
      split
      · exact hi
      · next hs => exact reaperInv_startCmd hc (by simpa using hs) rfl _ _
    · cases h
  case close removeErr =>
    split at h
    · next hcl =>
      cases h
      cases hst : s.runner.started
      · rw [close_of_not_started hst] at hc' ⊢
        exact ReaperInv.of_not_started hc' rfl
      · cases hsh : s.runner.shutdownClosed
        · exact reaperInv_close hi (by simpa using hcl) hst hsh removeErr
        · simp [(close_of_shutdown hst hsh removeErr).1] at hf'
    · cases h
  case closeResume =>
    split at h
    · split at h
      · cases h
        unfold closeResume at hc' hf' ⊢
        split
        · next hp => simp [hp, Sys.crash] at hf'
        · next hp => simp only [hp] at hc'; exact ReaperInv.of_not_started hc' rfl
      · cases h
    · cases h
  case childExit j result =>
    obtain ⟨t, ht, ⟨⟩⟩ := Option.map_eq_some'.mp h
    exact reaperInv_childExit hi ht
  case reaperEnter i =>
    obtain ⟨t, ht, ⟨⟩⟩ := Option.map_eq_some'.mp h
    exact reaperInv_reaperEnter hc hi hf' ht
  case reaperReap i =>
    obtain ⟨t, ht, ⟨⟩⟩ := Option.map_eq_some'.mp h
    exact reaperInv_reaperReap hc ht
  case reaperShutdown i =>
    obtain ⟨t, ht, ⟨⟩⟩ := Option.map_eq_some'.mp h
    unfold reaperShutdown at ht
    split at ht
    · next hi' =>
      split at ht
      · cases ht; exact reaperInv_retire hc hi' _
      · cases ht
    · cases ht
  case reaperSendClosed i =>
    obtain ⟨t, ht, ⟨⟩⟩ := Option.map_eq_some'.mp h
    unfold reaperSendClosed at ht
    split at ht
    · split at ht
      · cases ht; simp [Sys.crash] at hf'
      · cases ht
    · cases ht
  case receive i =>
    obtain ⟨⟨t, e⟩, ht, ⟨⟩⟩ := Option.map_eq_some'.mp h
    unfold receive at ht
    split at ht
    · next hi' =>
      split at ht
      · cases ht
      · cases ht; exact reaperInv_retire hc hi' _
    · cases ht
  case receiveClosed =>
    split at h
    · cases h; exact hi
    · cases h

/-- `ReaperInv` holds in every state of a runner `newHcnetCoreRunner` made, until it panics. -/
theorem Reachable.reaperInv {s : Sys} (h : Reachable s) (hf : s.fault = none) : ReaperInv s := by
  induction h with
  | new hnew =>
    exact ReaperInv.of_not_started (chan_init _ (newHcnetCoreRunner_fresh hnew))
      (newHcnetCoreRunner_fresh hnew).1
  | next hs hstep ih =>
    have hf0 := fault_none_of_step hstep
    exact reaperInv_step hs.chanInv (ih hf0) hf0 hstep hf

/-! ## A `close` before the reaper's `select` -/

/-- Some schedule of the reaper and of the blocked `close` makes `close` return `ret`, leaving
a runner that is not started, has no reaper that has not returned, and has not panicked. -/
def Returns (s : Sys) (ret : Option Err) : Prop :=
  ∃ as t, run s as = some (t, [.close ret]) ∧ t.fault = none ∧ t.runner.started = false ∧
    t.runner.wg = 0 ∧ t.closing = none

theorem Returns.cons {s : Sys} {a : Action} {ret : Option Err} (s' : Sys)
    (h : step s a = some (s', none))
    (h' : Returns s' ret) : Returns s ret := by
  obtain ⟨as, t, hr, ht⟩ := h'
  exact ⟨a :: as, t, by simp [run_cons h, hr], ht⟩

/-- The blocked `close` resumes once the counter is zero. -/
theorem returns_of_wg {s : Sys} {ret : Option Err} (hf : s.fault = none)
    (hc : s.closing = some ret) (hw : s.runner.wg = 0) (hp : s.runner.processExitClosed = false) :
    Returns s ret :=
  ⟨[.closeResume], { s with
      closing := none
      runner := { s.runner with processExitClosed := true, started := false } },
    by simp [run, step, hf, hc, hw, closeResume, hp], hf, rfl, hw, rfl⟩

/-- A reaper that offers its result takes the closed `shutdown`. -/
theorem returns_of_offering {s : Sys} {ret : Option Err} (i : Nat) (result : Option Err)
    (hf : s.fault = none) (hc : s.closing = some ret) (hw : s.runner.wg = 1)
    (hp : s.runner.processExitClosed = false) (hsh : s.runner.shutdownClosed = true)
    (hi : s.reapers[i]? = some (.offering result)) : Returns s ret :=
  .cons (a := .reaperShutdown i)
    { s with
      reapers := s.reapers.set i .done
      runner := { s.runner with wg := s.runner.wg - 1 } }
    (by simp [step, hf, reaperShutdown, hi, hsh]) (returns_of_wg hf hc (by simp [hw]) hp)

/-- A reaper waiting for a child that has exited reaps it and offers its result. -/
theorem returns_of_waiting {s : Sys} {ret : Option Err} {i j : Nat} {c : Cmd} {e : Option Err}
    (hf : s.fault = none) (hc : s.closing = some ret) (hw : s.runner.wg = 1)
    (hp : s.runner.processExitClosed = false) (hsh : s.runner.shutdownClosed = true)
    (hi : s.reapers[i]? = some (.waiting j)) (hcj : s.cmds[j]? = some c)
    (hex : c.process = some (.exited e)) : Returns s ret := by
  obtain ⟨path, args, dir, process, finished⟩ := c
  subst hex
  refine .cons (a := .reaperReap i)
    { s.modifyCmd j (fun c ↦ { c with process := some .reaped }) with
      reapers := s.reapers.set i (.offering e) }
    (by simp [step, hf, reaperReap, hi, hcj])
    (returns_of_offering i e (by simpa using hf) (by simpa using hc) (by simpa using hw)
      (by simpa using hp) (by simpa using hsh) ?_)
  simp [getElem?_set_of_some hi]

/-- The state `close` leaves before it tests `r.started`: the live child killed and dropped. -/
theorem close_kill_frame (s : Sys) :
    (if processIsAlive s then killChild s else s).fault = s.fault ∧
    (if processIsAlive s then killChild s else s).closing = s.closing ∧
    (if processIsAlive s then killChild s else s).reapers = s.reapers ∧
    (if processIsAlive s then killChild s else s).runner.wg = s.runner.wg ∧
    (if processIsAlive s then killChild s else s).runner.processExitClosed =
      s.runner.processExitClosed := by
  split
  · exact ⟨(killChild_chan s).2.1, by simp⟩
  · exact ⟨rfl, rfl, rfl, rfl, rfl⟩

/-- A `close` of a runner started once, once its reaper has entered its `select` (or when it
is not started): some schedule of the reaper lets `r.wg.Wait()` return, and `close` returns the
error of removing the temporary directory, leaving a runner that is not started, has no
reaper that has not returned, and has not panicked. -/
theorem close_after_select_returns {s : Sys} (hs : Reachable s) (hf : s.fault = none)
    (hc : s.closing = none) (hsh : s.runner.shutdownClosed = false)
    (hns : ∀ i : Nat, s.reapers[i]? ≠ some .spawned) (removeErr : Option Err) :
    ∃ as t, run s (.close removeErr :: as) = some (t, [.close ((removeAll s.runner.tempDir
        removeErr).map fun e ↦ .wrap e "error removing subprocess tmpdir")]) ∧
      t.fault = none ∧ t.runner.started = false ∧ t.runner.wg = 0 ∧ t.closing = none := by
  have hci := hs.chanInv
  have hwg : s.runner.wg = s.reapers.countP Reaper.live := hci.wg
  obtain ⟨hkf, hkc, hkr, hkw, hkp⟩ := close_kill_frame s
  cases hst : s.runner.started
  · have h0 : s.reapers.countP Reaper.live = 0 := by
      by_contra h
      simpa [hst] using hci.started_of_live (Nat.pos_of_ne_zero h)
    refine ⟨[], (close s removeErr).1, by simp [run, step, hf, hc, close_of_not_started hst],
      ?_⟩
    simp [close_of_not_started hst, hkf, hkw, hkc, hf, hwg, h0, hc]
  · have hp : s.runner.processExitClosed = false := by
      cases hp : s.runner.processExitClosed
      · rfl
      · simpa [hsh] using (hci.processExit hp).1
    suffices hr : Returns (close s removeErr).1 ((removeAll s.runner.tempDir removeErr).map
        fun e ↦ .wrap e "error removing subprocess tmpdir") by
      obtain ⟨as, t, hr, ht⟩ := hr
      refine ⟨as, t, ?_, ht⟩
      have hstep : step s (.close removeErr) = some ((close s removeErr).1, none) := by
        simp [step, hf, hc, close_of_started hst hsh]
      rw [run_cons hstep, hr]
      rfl
    rw [close_of_started hst hsh]
    by_cases h0 : s.reapers.countP Reaper.live = 0
    · exact returns_of_wg (by simpa using hkf.trans hf) rfl (by simpa [hkw, hwg] using h0)
        (by simpa [hkp] using hp)
    obtain ⟨x, hxm, hx⟩ := List.countP_pos_iff.mp (Nat.pos_of_ne_zero h0)
    obtain ⟨i, hi⟩ := List.mem_iff_getElem?.mp hxm
    have hw1 : s.runner.wg = 1 := by
      have := hci.live_le; simp only [Sys.chan_live] at this; omega
    cases x with
    | spawned => exact absurd hi (hns i)
    | done => cases hx
    | offering result =>
      exact returns_of_offering i result (by simpa using hkf.trans hf) rfl
        (by simpa [hkw] using hw1) (by simpa [hkp] using hp) rfl (by simpa [hkr] using hi)
    | waiting j =>
      obtain ⟨c, hcj, hfin, ⟨hcmd, p, hpc, hz⟩ | ⟨hcmd, e, hex⟩⟩ := (hs.reaperInv hf).waiting i j hi
      · obtain ⟨e, he⟩ := Proc.kill_of_signalZero hz
        rw [if_pos (processIsAlive_of hcmd hcj hpc hz)] at hkf hkr hkw hkp ⊢
        exact returns_of_waiting (e := e) (by simpa using hkf.trans hf) rfl
          (by simpa [hkw] using hw1) (by simpa [hkp] using hp) rfl (by simpa [hkr] using hi) (killChild_cmds hcmd hcj hfin)
          (by simp [hpc, he])
      · have hk : (if processIsAlive s then killChild s else s) = s := by
          split
          · exact killChild_of_none hcmd
          · rfl
        rw [hk]
        exact returns_of_waiting hf rfl (by simpa using hw1) (by simpa using hp) rfl
          (by simpa using hi) hcj hex

/-- A `runFrom` whose reaper has entered its `select`, then a `close`. -/
theorem close_after_select_returns_runFrom :
    ∃ r s, newHcnetCoreRunner "hcnet-core" "" "pass" [] ⟨"/tmp", 0, none, none⟩ = .ok r ∧
      run (Sys.init r) [.runFrom 2 "hash" ⟨none, none, closedPipe⟩, .reaperEnter 0] = some (s, [.runFrom none]) ∧
      Reachable s ∧ s.fault = none ∧ s.closing = none ∧ s.runner.shutdownClosed = false ∧
      (∀ i : Nat, s.reapers[i]? ≠ some .spawned) ∧
      ∃ as t, run s (.close none :: as) = some (t, [.close ((removeAll s.runner.tempDir
          none).map fun e ↦ .wrap e "error removing subprocess tmpdir")]) ∧
        t.fault = none ∧ t.runner.started = false ∧ t.runner.wg = 0 ∧ t.closing = none := by
  have hnew : newHcnetCoreRunner "hcnet-core" "" "pass" [] ⟨"/tmp", 0, none, none⟩ =
      .ok ⟨"hcnet-core", "", "pass", [], false, 0, false, none, false, none,
      filepathJoin ["/tmp", "captive-hcnet-core-" ++ formatHex 0]⟩ := rfl
  have hrun : run (Sys.init ⟨"hcnet-core", "", "pass", [], false, 0, false, none, false, none,
      filepathJoin ["/tmp", "captive-hcnet-core-" ++ formatHex 0]⟩)
      [.runFrom 2 "hash" ⟨none, none, closedPipe⟩, .reaperEnter 0] =
      some (after (Sys.init ⟨"hcnet-core", "", "pass", [], false, 0, false, none, false, none,
      filepathJoin ["/tmp", "captive-hcnet-core-" ++ formatHex 0]⟩)
        [.runFrom 2 "hash" ⟨none, none, closedPipe⟩, .reaperEnter 0], [.runFrom none]) := rfl
  have hs := (Reachable.new hnew).of_run hrun
  have hns : ∀ i : Nat, (after (Sys.init ⟨"hcnet-core", "", "pass", [], false, 0, false, none, false, none,
      filepathJoin ["/tmp", "captive-hcnet-core-" ++ formatHex 0]⟩)
      [.runFrom 2 "hash" ⟨none, none, closedPipe⟩, .reaperEnter 0]).reapers[i]? ≠ some .spawned := by
    intro i
    rw [show (after (Sys.init ⟨"hcnet-core", "", "pass", [], false, 0, false, none, false, none,
      filepathJoin ["/tmp", "captive-hcnet-core-" ++ formatHex 0]⟩)
      [.runFrom 2 "hash" ⟨none, none, closedPipe⟩, .reaperEnter 0]).reapers = [.waiting 0] from rfl]
    cases i <;> simp
  exact ⟨_, _, hnew, hrun, hs, rfl, rfl, rfl, hns,
    close_after_select_returns hs rfl rfl rfl hns none⟩

/-! ## What the backend takes of `close` -/

/-- A call of one of the runner's methods. -/
def Action.isCall : Action → Bool
  | .catchup .. | .runFrom .. | .close _ => true
  | _ => false

/-- A step that is not a method call leaves `close`'s error alone; only the resume of a blocked
`close` returns from it, with the error it blocked with. -/
theorem closing_step {s s' : Sys} {a : Action} {r : Option Ret} (ha : a.isCall = false)
    (h : step s a = some (s', r)) :
    (s'.closing = s.closing ∧ ∀ e, r ≠ some (.close e)) ∨
      ∃ ret, s.closing = some ret ∧ r = some (.close ret) ∧ s'.closing = none := by
  have hf := fault_none_of_step h
  cases a <;> simp only [Action.isCall, Bool.true_eq_false] at ha <;>
    simp only [step, hf, Option.isSome_none, Bool.false_eq_true, ↓reduceIte] at h
  case closeResume =>
    split at h
    · next ret hc =>
      split at h
      · unfold closeResume at h
        split at h
        · cases h
          exact .inl ⟨rfl, fun _ h ↦ nomatch h⟩
        · cases h
          exact .inr ⟨ret, hc, rfl, rfl⟩
      · cases h
    · cases h
  case receiveClosed =>
    split at h
    · cases h
      exact .inl ⟨rfl, fun _ h ↦ nomatch h⟩
    · cases h
  case receive i =>
    obtain ⟨p, h1, h2⟩ := Option.map_eq_some'.mp h
    cases h2
    refine .inl ⟨?_, fun _ h ↦ nomatch h⟩
    simp only [receive] at h1
    repeat' split at h1
    all_goals first | (cases h1; rfl) | cases h1
  all_goals
    obtain ⟨s'', h1, h2⟩ := Option.map_eq_some'.mp h
    cases h2
    refine .inl ⟨?_, fun _ h ↦ nomatch h⟩
    simp only [childExit, reaperEnter, reaperReap, reaperShutdown, reaperSendClosed] at h1
    repeat' split at h1
    all_goals first | (cases h1; simp [Sys.crash]) | cases h1

/-- On a run in which nothing calls the runner, every return of `close` is the error a `close`
was blocked with at the start. -/
theorem closing_run {s t : Sys} {as : List Action} {rs : List Ret}
    (hno : ∀ a ∈ as, a.isCall = false) (hrun : run s as = some (t, rs)) :
    ∀ e, .close e ∈ rs → s.closing = some e := by
  induction as generalizing s rs with
  | nil =>
    simp only [run, Option.some.injEq, Prod.mk.injEq] at hrun
    simp [← hrun.2]
  | cons a as ih =>
    simp only [run] at hrun
    split at hrun
    · cases hrun
    · next s₁ r hs =>
      obtain ⟨⟨t', rs₂⟩, hr₂, ⟨⟩⟩ := Option.map_eq_some'.mp hrun
      intro e he
      rcases closing_step (hno a (.head _)) hs with ⟨hc, hr⟩ | ⟨ret, hc, rfl, hc₁⟩
      · rcases List.mem_append.mp he with he | he
        · exact absurd (Option.mem_toList.mp he) (hr e)
        · exact hc ▸ ih (fun b hb ↦ hno b (.tail _ hb)) hr₂ e he
      · rcases List.mem_append.mp he with he | he
        · have h := Option.mem_toList.mp he
          simp only [Option.mem_def, Option.some.injEq, Ret.close.injEq] at h
          simp [hc, h]
        · simpa [hc₁] using ih (fun b hb ↦ hno b (.tail _ hb)) hr₂ e he

/-- A `close` called with no `close` blocked returns, on every run in which nothing else calls
the runner, the error of removing the temporary directory, fixed at the call. -/
theorem close_returns_removal_error {s : Sys} (hc : s.closing = none) (removeErr : Option Err)
    {as : List Action} (hno : ∀ a ∈ as, a.isCall = false) {t : Sys} {rs : List Ret}
    (hrun : run s (.close removeErr :: as) = some (t, rs)) :
    ∀ e, .close e ∈ rs → e = (removeAll s.runner.tempDir removeErr).map
      fun e ↦ .wrap e "error removing subprocess tmpdir" := by
  intro e he
  simp only [run] at hrun
  split at hrun
  · cases hrun
  · next s₁ r hs =>
    obtain ⟨⟨t', rs₂⟩, hr₂, ⟨⟩⟩ := Option.map_eq_some'.mp hrun
    have hf := fault_none_of_step hs
    simp only [step, hf, hc, Option.isSome_none, Option.isNone_none, Bool.false_eq_true,
      ↓reduceIte, Option.some.injEq] at hs
    obtain ⟨rfl, rfl⟩ := Prod.mk.inj hs
    have hrest := closing_run hno hr₂ e
    cases hst : s.runner.started
    · rw [close_of_not_started hst] at hrest he
      rcases List.mem_append.mp he with he | he
      · simpa using (Option.mem_toList.mp he).symm
      · simpa [close_kill_frame, hc] using hrest he
    · cases hsh : s.runner.shutdownClosed
      · rw [close_of_started hst hsh] at hrest he
        rcases List.mem_append.mp he with he | he
        · simp at he
        · simpa using (hrest he).symm
      · obtain ⟨hcf, hcr⟩ := close_of_shutdown hst hsh removeErr
        rw [hcr] at he
        simp only [Option.map_none, Option.toList_none, List.nil_append] at he
        obtain ⟨-, rfl⟩ := run_of_fault (by simp [hcf]) hr₂
        cases he

/-- The backend's `Close` takes `hcnetCoreRunner.close()` as one step, `closeRunner`, whose
error is its environment's `closeErr`. Every return of the runner's `close`, on a run in which
nothing else calls the runner, is the error of removing the temporary directory; with that
error for `closeErr`, `closeRunner` drops the runner and hands the error, wrapped, to the caller
of `Close`. What the one step leaves out is that `close` may not return at all
(`close_before_select_never_returns`). -/
theorem closeRunner_refines_close {s : Sys} (hc : s.closing = none) (removeErr : Option Err)
    {as : List Action} (hno : ∀ a ∈ as, a.isCall = false) {t : Sys} {rs : List Ret}
    (hrun : run s (.close removeErr :: as) = some (t, rs)) {err : Option Err}
    (he : .close err ∈ rs) (b : State.Sys) {rn : State.Runner}
    (hb : b.core.hcnetCoreRunner = some (.live rn)) (env : State.Env) (k : State.CloseCaller) :
    err = (removeAll s.runner.tempDir removeErr).map
      (fun e ↦ .wrap e "error removing subprocess tmpdir") ∧
    Backend.closeRunner b { env with closeErr := err } k =
      Backend.closeReturn (b.modify fun c ↦ { c with hcnetCoreRunner := none })
        { env with closeErr := err } k
        (err.map fun e ↦ .wrap e "error closing hcnet-core subprocess") :=
  ⟨close_returns_removal_error hc removeErr hno hrun err he, by simp [Backend.closeRunner, hb]⟩

end AuroraIngest.Captive.CoreRunner
