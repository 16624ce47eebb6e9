import AuroraIngest.Captive.Ledger

/-!
# The remote captive core client

`RemoteCaptiveHcnetCore` declares every method on the value receiver, so each call works on
a copy of the caller's struct. `createContext` stores the cancel function of the context it
makes in `c.cancel` of its own copy, which is dropped when it returns, and the caller's value
keeps the nil `cancel` that `NewRemoteCaptive` gave it. `Close`, and the `createContext` of a
second `PrepareRange`, therefore never find a cancel function to call: no context is ever
cancelled, the `ctx.Done()` case of `PrepareRange`'s `select` is never taken, and a
`PrepareRange` polling a server that is not ready keeps polling whatever else the caller
does.

The shared `lock` makes `Close` and `createContext` atomic steps. The HTTP client's and the
server's answers reach the model as labels of the steps; `url.Parse` is given by its result.
-/

namespace AuroraIngest.Captive.Remote

open AuroraIngest.Captive.Ledger

/-- The fields of `RemoteCaptiveHcnetCore` that `Close`, `createContext` and `PrepareRange`
read: `cancel` is the context its `context.CancelFunc` cancels, and the poll interval is in
nanoseconds. -/
structure RemoteCaptiveHcnetCore where
  cancel : Option Nat
  prepareRangePollInterval : Nat
  deriving DecidableEq, Repr

/-- The options of `NewRemoteCaptive`: `PrepareRangePollInterval` is the only one the package
defines, and the fields it could set are unexported. -/
inductive RemoteCaptiveOption where
  | prepareRangePollInterval (d : Nat)
  deriving DecidableEq, Repr

def RemoteCaptiveOption.apply :
    RemoteCaptiveOption → RemoteCaptiveHcnetCore → RemoteCaptiveHcnetCore
  | .prepareRangePollInterval d, c => { c with prepareRangePollInterval := d }

/-- `NewRemoteCaptive`, given what `url.Parse` made of the URL. -/
def newRemoteCaptive (parsedURL : Except Err Unit) (options : List RemoteCaptiveOption) :
    Except Err RemoteCaptiveHcnetCore :=
  match parsedURL with
  | .error e => .error (.wrap e "unparseable url")
  | .ok () => .ok (options.foldl (fun c option ↦ option.apply c) ⟨none, 1000000000⟩)

/-- `context.Canceled`, the error of a cancelled context. -/
def canceled : Err := .new "context canceled"

/-- `createContext` on its copy `c` of the receiver, under the lock: call the copy's cancel
function, if any, make a new context and store its cancel function in the copy. It returns
the context, the copy (which its caller drops) and the contexts' cancelled flags. -/
def createContext (c : RemoteCaptiveHcnetCore) (contexts : List Bool) :
    Nat × RemoteCaptiveHcnetCore × List Bool :=
  let contexts := match c.cancel with
    | some f => contexts.set f true
    | none => contexts
  (contexts.length, { c with cancel := some contexts.length }, contexts ++ [false])

/-- `Close` on its copy `c`, under the lock: call the copy's cancel function, if any. -/
def close (c : RemoteCaptiveHcnetCore) (contexts : List Bool) : List Bool × Option Err :=
  match c.cancel with
  | some f => (contexts.set f true, none)
  | none => (contexts, none)

/-- What one request of the loop meets: `c.client.Do` fails, `decodeResponse` meets a status
other than OK (with a body it cannot read, or with its body) or an OK body that does not
decode, or the decoded `PrepareRangeResponse.Ready`. -/
inductive Answer where
  | requestFailed (e : Err)
  | readFailed (e : Err)
  | notOK (body : String)
  | badJSON (e : Err)
  | ok (ready : Bool)

/-- `decodeResponse`'s error, or the decoded `Ready`. -/
def decodeResponse : Answer → Except Err Bool
  | .requestFailed e => .error e
  | .readFailed e => .error (.wrap e "failed to read response body")
  | .notOK body => .error (.new body)
  | .badJSON e => .error (.wrap e "failed to decode json payload")
  | .ok ready => .ok ready

/-- Where a `PrepareRange` call stands: before its request, in its `select`, or returned. -/
inductive Phase where
  | polling
  | waiting
  | returned (err : Option Err)
  deriving DecidableEq, Repr

/-- A `PrepareRange` call and the context its `createContext` made. -/
structure Call where
  ctx : Nat
  phase : Phase
  deriving DecidableEq, Repr

/-- The caller's client value, the contexts made so far (whether each is cancelled), and the
`PrepareRange` calls in the order they began. -/
structure Sys where
  client : RemoteCaptiveHcnetCore
  contexts : List Bool
  calls : List Call
  deriving DecidableEq, Repr

def Sys.init (c : RemoteCaptiveHcnetCore) : Sys := ⟨c, [], []⟩

/-- The caller starts `PrepareRange` or calls `Close`; call `i` sends its request, or its
`select` takes the timer or `ctx.Done()`. -/
inductive Action where
  | prepareRange
  | close
  | poll (i : Nat) (a : Answer)
  | timer (i : Nat)
  | done (i : Nat)

/-- Call `i`'s request: a request on a cancelled context fails in `Do`. -/
def pollResult (cancelled : Bool) (a : Answer) : Phase :=
  if cancelled then .returned (some (.wrap canceled "failed to execute request"))
  else
    match a with
    | .requestFailed e => .returned (some (.wrap e "failed to execute request"))
    | a =>
      match decodeResponse a with
      | .error e => .returned (some e)
      | .ok true => .returned none
      | .ok false => .waiting

/-- Move call `i` from phase `p` to the phase `f` gives, when it is in phase `p`. -/
def Sys.advance (s : Sys) (i : Nat) (p : Phase) (f : Call → Option Phase) : Option Sys :=
  match s.calls[i]? with
  | some call => if call.phase = p then (f call).map fun q ↦
      { s with calls := s.calls.set i { call with phase := q } } else none
  | none => none

/-- One step; `none` when it is not enabled. Every method gets a copy of `s.client`. -/
def step (s : Sys) : Action → Option Sys
  | .prepareRange =>
    let (ctx, _, contexts) := createContext s.client s.contexts
    some { s with contexts := contexts, calls := s.calls ++ [⟨ctx, .polling⟩] }
  | .close => some { s with contexts := (close s.client s.contexts).1 }
  | .poll i a => s.advance i .polling fun call ↦ some (pollResult (s.contexts.getD call.ctx false) a)
  | .timer i => s.advance i .waiting fun _ ↦ some .polling
  | .done i => s.advance i .waiting fun call ↦
      if s.contexts.getD call.ctx false then some (.returned (some (.wrap canceled "shutting down")))
      else none

def run (s : Sys) : List Action → Option Sys
  | [] => some s
  | a :: as => (step s a).bind (run · as)

/-- The states a client value reaches. -/
inductive Reachable (c : RemoteCaptiveHcnetCore) : Sys → Prop
  | init : Reachable c (Sys.init c)
  | next {s s' : Sys} {a : Action} : Reachable c s → step s a = some s' → Reachable c s'

theorem newRemoteCaptive_cancel {parsedURL : Except Err Unit}
    {options : List RemoteCaptiveOption} {c : RemoteCaptiveHcnetCore}
    (h : newRemoteCaptive parsedURL options = .ok c) : c.cancel = none := by
  have key : ∀ (os : List RemoteCaptiveOption) (c : RemoteCaptiveHcnetCore), c.cancel = none →
      (os.foldl (fun c option ↦ option.apply c) c).cancel = none := by
    intro os
    induction os with
    | nil => exact fun _ h ↦ h
    | cons o os ih =>
      intro c hc
      cases o
      exact ih _ hc
  unfold newRemoteCaptive at h
  split at h
  · cases h
  · cases h
    exact key _ _ rfl

/-- What holds of every state: the client has no cancel function, no context is cancelled,
and no call has returned from `ctx.Done()`. -/
structure NoCancel (s : Sys) : Prop where
  client : s.client.cancel = none
  contexts : ∀ b ∈ s.contexts, b = false
  calls : ∀ call ∈ s.calls, call.phase ≠ .returned (some (.wrap canceled "shutting down"))

theorem getD_of_noCancel {s : Sys} (h : NoCancel s) (i : Nat) : s.contexts.getD i false = false := by
  rw [List.getD_eq_getElem?_getD]
  cases hi : s.contexts[i]? with
  | none => rfl
  | some b => exact h.contexts b (List.getElem?_mem hi)

theorem pollResult_ne (a : Answer) :
    pollResult false a ≠ .returned (some (.wrap canceled "shutting down")) := by
  cases a <;> simp [pollResult, decodeResponse, canceled]
  case ok ready => cases ready <;> simp

theorem advance_eq_some {s s' : Sys} {i : Nat} {p : Phase} {f : Call → Option Phase}
    (hs : s.advance i p f = some s') :
    ∃ call q, s.calls[i]? = some call ∧ call.phase = p ∧ f call = some q ∧
      s' = { s with calls := s.calls.set i { call with phase := q } } := by
  unfold Sys.advance at hs
  split at hs
  · next call hcall =>
    split at hs
    · next hp =>
      obtain ⟨q, hq, rfl⟩ := Option.map_eq_some'.mp hs
      exact ⟨call, q, hcall, hp, hq, rfl⟩
    · cases hs
  · cases hs

theorem noCancel_step {s s' : Sys} {a : Action} (h : NoCancel s) (hs : step s a = some s') :
    NoCancel s' := by
  have hset : ∀ (call : Call) (i : Nat) (q : Phase),
      q ≠ .returned (some (.wrap canceled "shutting down")) →
      ∀ x ∈ s.calls.set i { call with phase := q },
        x.phase ≠ .returned (some (.wrap canceled "shutting down")) := by
    intro call i q hq x hx
    rcases List.mem_or_eq_of_mem_set hx with hx | rfl
    exacts [h.calls x hx, hq]
  cases a with
  | prepareRange =>
    simp only [step, createContext, h.client, Option.some.injEq] at hs
    subst hs
    refine ⟨h.client, fun b hb ↦ ?_, fun x hx ↦ ?_⟩
    · rcases List.mem_append.mp hb with hb | hb
      exacts [h.contexts b hb, List.eq_of_mem_singleton hb]
    · rcases List.mem_append.mp hx with hx | hx
      · exact h.calls x hx
      · rw [List.eq_of_mem_singleton hx]
        nofun
  | close =>
    simp only [step, close, h.client, Option.some.injEq] at hs
    subst hs
    exact h
  | poll i a =>
    obtain ⟨call, q, -, -, hq, rfl⟩ := advance_eq_some hs
    simp only [getD_of_noCancel h, Option.some.injEq] at hq
    exact ⟨h.client, h.contexts, hset call i q (hq ▸ pollResult_ne a)⟩
  | timer i =>
    obtain ⟨call, q, -, -, hq, rfl⟩ := advance_eq_some hs
    cases hq
    exact ⟨h.client, h.contexts, hset call i _ nofun⟩
  | done i =>
    obtain ⟨call, q, -, -, hq, -⟩ := advance_eq_some hs
    simp only [getD_of_noCancel h, Bool.false_eq_true, ↓reduceIte] at hq
    cases hq

theorem noCancel_of_reachable {c : RemoteCaptiveHcnetCore} (hc : c.cancel = none) {s : Sys}
    (h : Reachable c s) : NoCancel s := by
  induction h with
  | init => exact ⟨hc, nofun, nofun⟩
  | next _ hs ih => exact noCancel_step ih hs

theorem Reachable.of_run {c : RemoteCaptiveHcnetCore} {s s' : Sys} (h : Reachable c s) :
    ∀ {as : List Action}, run s as = some s' → Reachable c s'
  | [], hrun => by cases hrun; exact h
  | a :: as, hrun => by
    obtain ⟨s₁, hs, h₁⟩ := Option.bind_eq_some.mp hrun
    exact (h.next hs).of_run h₁

/-- No state takes the `ctx.Done()` case. -/
theorem done_disabled {s : Sys} (h : NoCancel s) (i : Nat) : step s (.done i) = none := by
  cases hs : step s (.done i) with
  | none => rfl
  | some s' =>
    obtain ⟨call, q, -, -, hq, -⟩ := advance_eq_some hs
    simp only [getD_of_noCancel h, Bool.false_eq_true, ↓reduceIte] at hq
    cases hq

/-- Call `i` has not returned. -/
def Active (s : Sys) (i : Nat) : Prop :=
  ∃ call, s.calls[i]? = some call ∧ (call.phase = .polling ∨ call.phase = .waiting)

/-- A call that the server keeps answering "not ready" stays in its loop through every other
step. -/
theorem active_step {s s' : Sys} {a : Action} {i : Nat} (h : NoCancel s) (hact : Active s i)
    (ha : ∀ ans, a = .poll i ans → ans = .ok false) (hs : step s a = some s') : Active s' i := by
  obtain ⟨call, hcall, hphase⟩ := hact
  have hmove : ∀ j (q : Phase) (c' : Call), (j = i → c' = call ∧ (q = .polling ∨ q = .waiting)) →
      Active { s with calls := s.calls.set j { c' with phase := q } } i := by
    intro j q c' hj
    by_cases hji : j = i
    · obtain ⟨rfl, hq⟩ := hj hji
      subst hji
      exact ⟨_, List.getElem?_set_self (List.getElem?_eq_some_iff.mp hcall).1, hq⟩
    · exact ⟨call, by rw [List.getElem?_set_ne hji]; exact hcall, hphase⟩
  cases a with
  | prepareRange =>
    simp only [step, Option.some.injEq] at hs
    subst hs
    have hi : i < s.calls.length := (List.getElem?_eq_some_iff.mp hcall).1
    exact ⟨call, by rw [List.getElem?_append_left hi]; exact hcall, hphase⟩
  | close =>
    simp only [step, Option.some.injEq] at hs
    subst hs
    exact ⟨call, hcall, hphase⟩
  | poll j ans =>
    obtain ⟨c', q, hc', -, hq, rfl⟩ := advance_eq_some hs
    refine hmove j q c' fun hji ↦ ?_
    subst hji
    rw [hcall, Option.some.injEq] at hc'
    subst hc'
    simp only [getD_of_noCancel h, ha ans rfl, Option.some.injEq] at hq
    exact ⟨rfl, .inr (by simp [← hq, pollResult, decodeResponse])⟩
  | timer j =>
    obtain ⟨c', q, hc', -, hq, rfl⟩ := advance_eq_some hs
    cases hq
    refine hmove j _ c' fun hji ↦ ?_
    subst hji
    rw [hcall, Option.some.injEq] at hc'
    exact ⟨hc'.symm, .inl rfl⟩
  | done j => simp [done_disabled h] at hs

theorem active_run {c : RemoteCaptiveHcnetCore} {s s' : Sys} {i : Nat} (hc : c.cancel = none)
    (h : Reachable c s) (hact : Active s i) :
    ∀ {as : List Action}, (∀ a ∈ as, ∀ ans, a = .poll i ans → ans = .ok false) →
      run s as = some s' → Active s' i
  | [], _, hrun => by cases hrun; exact hact
  | a :: as, has, hrun => by
    obtain ⟨s₁, hs, h₁⟩ := Option.bind_eq_some.mp hrun
    exact active_run hc (h.next hs)
      (active_step (noCancel_of_reachable hc h) hact (has a (.head _)) hs)
      (fun b hb ↦ has b (.tail _ hb)) h₁

/-- For every client `NewRemoteCaptive` returns and every interleaving of `PrepareRange`
calls, `Close` calls and answers: no context is ever cancelled, no `select` takes
`ctx.Done()`, and a `PrepareRange` call that the server keeps answering "not ready" never
returns. -/
theorem remote_close_cancels_nothing {parsedURL : Except Err Unit}
    {options : List RemoteCaptiveOption} {c : RemoteCaptiveHcnetCore}
    (hc : newRemoteCaptive parsedURL options = .ok c) {s : Sys} (hs : Reachable c s) :
    (∀ b ∈ s.contexts, b = false) ∧ (∀ i, step s (.done i) = none) ∧
      ∀ i, Active s i → ∀ as s', (∀ a ∈ as, ∀ ans, a = .poll i ans → ans = .ok false) →
        run s as = some s' → Active s' i :=
  have hcancel := newRemoteCaptive_cancel hc
  have h := noCancel_of_reachable hcancel hs
  ⟨h.contexts, done_disabled h, fun _ hact _ _ has hrun ↦ active_run hcancel hs hact has hrun⟩

/-- `PrepareRange` polls once and waits; then `Close` and a second `PrepareRange`. -/
def closeWhilePolling : List Action := [.prepareRange, .poll 0 (.ok false), .close, .prepareRange]

theorem remote_close_while_polling :
    ∃ s, newRemoteCaptive (.ok ()) [] = .ok ⟨none, 1000000000⟩ ∧
      run (Sys.init ⟨none, 1000000000⟩) closeWhilePolling = some s ∧
      s.calls = [⟨0, .waiting⟩, ⟨1, .polling⟩] ∧ s.contexts = [false, false] ∧
      step s (.done 0) = none ∧
      run s [.timer 0, .poll 0 (.ok false), .timer 0] = some ⟨s.client, s.contexts, [⟨0, .polling⟩, ⟨1, .polling⟩]⟩ :=
  have h := Reachable.of_run .init (rfl : run (Sys.init ⟨none, 1000000000⟩) closeWhilePolling = _)
  ⟨_, rfl, rfl, rfl, rfl, (remote_close_cancels_nothing
    (show newRemoteCaptive (.ok ()) [] = .ok ⟨none, 1000000000⟩ from rfl) h).2.1 0, rfl⟩

end AuroraIngest.Captive.Remote
