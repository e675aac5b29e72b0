import OpenVpn.Server.Clients

/-!
# The client-connect handlers and the disconnect script

When a client is authenticated the handlers of `client_connect_handlers` are called one
after the other. A handler may defer its answer; then the chain goes on with it at the next
wake-up of the instance. The disconnect script tells the outside that a client for which a
handler has succeeded is gone.

* `connectionEstablished`, `instanceStep` — one instance from its creation to its end, with
  the calls it makes; `connectionEstablished_state` says that the counters of
  `multiConnectionEstablished` follow it.
* `ChainTrace` — the calls of a chain that may go on.
* `connect_chain_in_order` — the calls of every run.
* `disconnect_paired_iff` — when the disconnect script runs exactly once.
-/

namespace OpenVpn

open Base List Option Bool Nat

/-! ## The model -/

/-- How a call of a handler ends. A handler imports options only when it succeeds; they
may have the `disable` directive. -/
inductive HandlerResult
  | failed
  | succeeded (disable : Bool)
  | deferred
  | skipped
  deriving DecidableEq

def HandlerResult.ret : HandlerResult → ConnectReturn
  | .failed => .failed
  | .succeeded _ => .succeeded
  | .deferred => .deferred
  | .skipped => .skipped

def HandlerResult.disables (r : HandlerResult) : Bool := decide (r = .succeeded true)

structure HandlerCall where
  index : Nat
  fromDeferred : Bool
  result : HandlerResult
  deriving DecidableEq

/-- What the handlers and the checks after them answer at a wake-up of the instance. -/
structure ConnectWakeup where
  result : Nat → HandlerResult
  /-- whether `override_locked_username` accepts the user name, if there is one -/
  overrideUsername : Option Bool
  dcoOptions : Bool
  /-- `check_compression_settings_valid` -/
  compression : Bool
  protocolOptions : Bool
  dcoInitial : Bool
  tlsKeys : Bool

/-- The checks after the loop. -/
def ConnectWakeup.accepted (w : ConnectWakeup) : Bool :=
  w.overrideUsername.getD true && w.dcoOptions && w.compression

/-- The steps of `multi_client_connect_late_setup` that can fail. -/
def ConnectWakeup.lateSetup (w : ConnectWakeup) : Bool :=
  w.protocolOptions && w.dcoInitial && w.tlsKeys

/-- An instance. -/
structure ConnectInstance where
  multiState : MultiStatus
  curHandlerIndex : Nat
  disable : Bool
  doUpRan : Bool
  halt : Bool
  deriving DecidableEq

def ConnectInstance.fresh : ConnectInstance := ⟨.notConnected, 0, false, false, false⟩

/-- What the outside sees of an instance: its calls of handlers, that
`multi_client_connect_late_setup` ran and whether it failed, and the disconnect script. -/
inductive ConnectAction
  | call (c : HandlerCall)
  | lateSetup (ok : Bool)
  | disconnectScript
  deriving DecidableEq

/-- The state after a handler with a final result. -/
def ConnectInstance.afterHandler (s : ConnectInstance) (r : HandlerResult) : ConnectInstance :=
  { s with
    multiState := if r.ret = .succeeded then .pendingDeferredPartial else s.multiState
    disable := s.disable || r.disables
    curHandlerIndex := s.curHandlerIndex + 1 }

/-- The loop over the handlers, with the calls: `cc_succeeded`, or nothing if a handler is
deferred. Only the first call can be one of a handler that deferred before. -/
def handlerLoop (w : ConnectWakeup) : (left : Nat) → (fromDeferred : Bool) → ConnectInstance →
    ConnectInstance × Option Bool × List HandlerCall
  | 0, _, s => (s, some true, [])
  | left + 1, fromDeferred, s =>
    let r := w.result s.curHandlerIndex
    let call : HandlerCall := ⟨s.curHandlerIndex, fromDeferred, r⟩
    if r.ret = .deferred then (s, none, [call])
    else
      let s := s.afterHandler r
      if r.ret = .failed ∨ s.disable then (s, some false, [call])
      else
        let (s, ok, calls) := handlerLoop w left false s
        (s, ok, call :: calls)

def ConnectInstance.startHandlers (s : ConnectInstance) : ConnectInstance :=
  if s.multiState = .pending then
    { s with curHandlerIndex := 0, multiState := .pendingDeferred }
  else s

/-- The end of `multi_connection_established`. -/
def endHandlers (w : ConnectWakeup) (s : ConnectInstance) (ccSucceeded : Bool) :
    ConnectInstance × List ConnectAction :=
  if ccSucceeded && w.accepted then
    if w.lateSetup then ({ s with multiState := .connectDone }, [.lateSetup true])
    else ({ s with multiState := .failed }, [.lateSetup false])
  else
    ({ s with multiState := .failed },
      if s.multiState = .pendingDeferredPartial then [.disconnectScript] else [])

/-- `multi_connection_established`. -/
def connectionEstablished (w : ConnectWakeup) (s : ConnectInstance) :
    ConnectInstance × List ConnectAction :=
  let fromDeferred := decide (s.multiState ≠ .pending)
  let s := s.startHandlers
  match handlerLoop w (N_CONNECT_HANDLERS - s.curHandlerIndex) fromDeferred s with
  | (s, none, calls) => (s, calls.map .call)
  | (s, some ccSucceeded, calls) =>
    let (s, actions) := endHandlers w s ccSucceeded
    (s, calls.map .call ++ actions)

/-- `check_connection_established` of an instance: `do_up` ends a reconnect. -/
def checkConnectionEstablished (s : ConnectInstance) : ConnectInstance :=
  if s.multiState = .waitingOptionsImport ∨ s.multiState = .reconnectPending ∨
      s.multiState = .connectDone then
    if s.doUpRan = false ∨ s.multiState = .reconnectPending then
      { s with doUpRan := true, multiState := .connectDone }
    else s
  else s

inductive InstanceEvent
  /-- The TLS layer of the instance moves on. -/
  | tls
  /-- `multi_process_post` of the instance. -/
  | post (w : ConnectWakeup)
  /-- The timer `wait_for_connect`. -/
  | connectTimer
  | close

/-- One instance; nothing happens to it after it is closed. -/
def instanceStep (s : ConnectInstance) :
    InstanceEvent → Option (ConnectInstance × List ConnectAction)
  | .tls => if s.halt then none else some ({ s with multiState := s.multiState.advance }, [])
  | .post w =>
    if s.halt then none
    else if s.multiState.isPending then some (connectionEstablished w s)
    else some (s, [])
  | .connectTimer => if s.halt then none else some (checkConnectionEstablished s, [])
  | .close =>
    if s.halt then none
    else
      some ({ s with halt := true },
        if s.multiState = .connectDone then [.disconnectScript] else [])

theorem instanceStep_open {s : ConnectInstance} {e : InstanceEvent}
    {r : ConnectInstance × List ConnectAction} (h : instanceStep s e = some r) :
    s.halt = false := by
  cases hhalt : s.halt with
  | false => rfl
  | true => cases e <;> rw [instanceStep, hhalt, if_pos rfl] at h <;> cases h

/-! ## One round of the loop -/

/-- The chain goes on after this result. -/
def HandlerResult.Continues (r : HandlerResult) : Prop := r = .skipped ∨ r = .succeeded false

/-- The chain ends with this result. -/
def HandlerResult.Stops (r : HandlerResult) : Prop := r = .failed ∨ r = .succeeded true

theorem HandlerResult.Continues.ne_deferred {r : HandlerResult} (h : r.Continues) :
    r ≠ .deferred := by
  rcases h with rfl | rfl <;> decide

theorem HandlerResult.deferred_or (r : HandlerResult) : r = .deferred ∨ r.Stops ∨ r.Continues := by
  cases r with
  | failed => exact .inr (.inl (.inl rfl))
  | succeeded disable =>
    cases disable with
    | false => exact .inr (.inr (.inr rfl))
    | true => exact .inr (.inl (.inr rfl))
  | deferred => exact .inl rfl
  | skipped => exact .inr (.inr (.inl rfl))

section Round

variable {w : ConnectWakeup} {left : Nat} {fromDeferred : Bool} {s : ConnectInstance}
  {r : HandlerResult}

theorem handlerLoop_deferred (hr : w.result s.curHandlerIndex = .deferred) :
    handlerLoop w (left + 1) fromDeferred s =
      (s, none, [⟨s.curHandlerIndex, fromDeferred, .deferred⟩]) := by
  unfold handlerLoop
  dsimp only
  rw [hr]
  rfl

theorem handlerLoop_stops (hr : w.result s.curHandlerIndex = r) (hstop : r.Stops) :
    handlerLoop w (left + 1) fromDeferred s =
      (s.afterHandler r, some false, [⟨s.curHandlerIndex, fromDeferred, r⟩]) := by
  unfold handlerLoop
  dsimp only
  rw [hr]
  rcases hstop with rfl | rfl
  · rfl
  · have hdis : (s.afterHandler (.succeeded true)).disable = true := or_true _
    rw [if_neg (by decide), if_pos (.inr hdis)]

theorem afterHandler_disable (hs : s.disable = false) (hnext : r.Continues) :
    (s.afterHandler r).disable = false := by
  show (s.disable || r.disables) = false
  rcases hnext with rfl | rfl
  · rw [hs]
    rfl
  · rw [hs]
    rfl

theorem handlerLoop_continues (hs : s.disable = false) (hr : w.result s.curHandlerIndex = r)
    (hnext : r.Continues) :
    handlerLoop w (left + 1) fromDeferred s =
      ((handlerLoop w left false (s.afterHandler r)).1,
        (handlerLoop w left false (s.afterHandler r)).2.1, ⟨s.curHandlerIndex, fromDeferred, r⟩ ::
          (handlerLoop w left false (s.afterHandler r)).2.2) := by
  have hdis := afterHandler_disable hs hnext
  have hgo : ¬(r.ret = .failed ∨ (s.afterHandler r).disable = true) := by
    rw [hdis]
    rcases hnext with rfl | rfl <;> decide
  have hdefer : ¬r.ret = .deferred := by
    rcases hnext with rfl | rfl <;> decide
  rw [handlerLoop]
  dsimp only
  rw [hr, if_neg hdefer, if_neg hgo]

end Round

/-! ## The model of the counters -/

def ConnectWakeup.outcome (w : ConnectWakeup) : ConnectOutcome :=
  { handler := fun i => (w.result i).ret
    disable := fun i => (w.result i).disables
    optionsValid := w.accepted
    lateSetup := w.lateSetup }

def ConnectInstance.connectState (s : ConnectInstance) (nClientsDelta : Int) : ConnectState :=
  ⟨nClientsDelta, s.multiState, s.curHandlerIndex⟩

theorem connectHandlers_final {w : ConnectWakeup} {s : ConnectInstance} {r : HandlerResult}
    (left : Nat) (d : Int) (hr : w.result s.curHandlerIndex = r) (hfin : r ≠ .deferred) :
    connectHandlers w.outcome (left + 1) (s.connectState d) =
      if r.ret = .failed ∨ r.disables = true then ((s.afterHandler r).connectState d, some false)
      else connectHandlers w.outcome left ((s.afterHandler r).connectState d) := by
  have hret : w.outcome.handler (s.connectState d).curHandlerIndex = r.ret :=
    congrArg HandlerResult.ret hr
  have hdis : w.outcome.disable (s.connectState d).curHandlerIndex = r.disables :=
    congrArg HandlerResult.disables hr
  rw [connectHandlers]
  dsimp only
  rw [hret, hdis]
  cases r with
  | deferred => exact absurd rfl hfin
  | failed => rfl
  | skipped => rfl
  | succeeded disable => rfl

/-- The two models of the loop agree. -/
theorem handlerLoop_state (w : ConnectWakeup) (left : Nat) (fromDeferred : Bool)
    (s : ConnectInstance) (d : Int) (hs : s.disable = false) :
    connectHandlers w.outcome left (s.connectState d) =
      ((handlerLoop w left fromDeferred s).1.connectState d,
        (handlerLoop w left fromDeferred s).2.1) := by
  induction left generalizing s fromDeferred with
  | zero => rfl
  | succ left ih =>
    rcases (w.result s.curHandlerIndex).deferred_or with hr | hstop | hnext
    · have hret : w.outcome.handler (s.connectState d).curHandlerIndex = .deferred :=
        congrArg HandlerResult.ret hr
      rw [handlerLoop_deferred hr, connectHandlers]
      dsimp only
      rw [if_pos hret]
    · rw [handlerLoop_stops rfl hstop, connectHandlers_final left d rfl]
      · rcases hstop with hr | hr <;> rw [hr] <;> rfl
      · rcases hstop with hr | hr <;> rw [hr] <;> decide
    · rw [handlerLoop_continues hs rfl hnext, connectHandlers_final left d rfl]
      · rw [← ih false _ (afterHandler_disable hs hnext)]
        rcases hnext with hr | hr <;> rw [hr] <;> rfl
      · rcases hnext with hr | hr <;> rw [hr] <;> decide

/-- The loop by itself does not end the chain. -/
theorem handlerLoop_pending {w : ConnectWakeup} (left : Nat) (fromDeferred : Bool)
    {s : ConnectInstance} (hs : s.multiState.isPending = true) :
    (handlerLoop w left fromDeferred s).1.multiState.isPending = true := by
  induction left generalizing s fromDeferred with
  | zero => exact hs
  | succ left ih =>
    have haft : ∀ r, (s.afterHandler r).multiState.isPending = true := by
      intro r
      unfold ConnectInstance.afterHandler
      dsimp only
      split
      · rfl
      · exact hs
    unfold handlerLoop
    dsimp only
    split
    · exact hs
    · split
      · exact haft _
      · exact ih false (haft _)

/-- The chain of an instance has run to its end. -/
def ConnectInstance.chainEnded (s : ConnectInstance) : Bool := !s.multiState.isPending

/-- **The counters follow the chain.** Both models agree on the state of the instance. It is
counted, once, exactly when its chain ends, and no other instance changes. -/
theorem connectionEstablished_state {cfg : MultiConfig} (server : ClientServer cfg) (id : Nat)
    (w : ConnectWakeup) (s : ConnectInstance) (d : Int) (hs : s.disable = false)
    (hpending : s.multiState.isPending = true) (hserver : server.connects id = s.connectState d) :
    (multiConnectionEstablished server id w.outcome).2 =
        (connectionEstablished w s).1.chainEnded ∧
      (multiConnectionEstablished server id w.outcome).1.nClients =
        server.nClients + (connectionEstablished w s).1.chainEnded.toNat ∧
      (multiConnectionEstablished server id w.outcome).1.connects =
        Function.update server.connects id ((connectionEstablished w s).1.connectState
          (d - (connectionEstablished w s).1.chainEnded.toNat)) := by
  have hstart : (server.connects id).startHandlers = s.startHandlers.connectState d := by
    rw [hserver]
    unfold ConnectState.startHandlers ConnectInstance.startHandlers
    by_cases hfirst : s.multiState = .pending
    · rw [if_pos hfirst]
      exact if_pos hfirst
    · rw [if_neg hfirst]
      exact if_neg hfirst
  obtain ⟨hdisable, hstarted⟩ : s.startHandlers.disable = false ∧
      s.startHandlers.multiState.isPending = true := by
    unfold ConnectInstance.startHandlers
    split
    · exact ⟨hs, rfl⟩
    · exact ⟨hs, hpending⟩
  have hloop := handlerLoop_state w (N_CONNECT_HANDLERS - s.startHandlers.curHandlerIndex)
    (decide (s.multiState ≠ .pending)) s.startHandlers d hdisable
  have hgoes := handlerLoop_pending (w := w) (N_CONNECT_HANDLERS - s.startHandlers.curHandlerIndex)
    (decide (s.multiState ≠ .pending)) hstarted
  unfold multiConnectionEstablished connectionEstablished
  dsimp only
  rw [hstart]
  have hindex : (s.startHandlers.connectState d).curHandlerIndex =
    s.startHandlers.curHandlerIndex := rfl
  rw [hindex, hloop]
  generalize handlerLoop w (N_CONNECT_HANDLERS - s.startHandlers.curHandlerIndex)
    (decide (s.multiState ≠ .pending)) s.startHandlers = r at hgoes ⊢
  obtain ⟨s', ok, calls⟩ := r
  cases ok with
  | none =>
    have hopen : s'.chainEnded = false := by
      rw [ConnectInstance.chainEnded, hgoes]
      rfl
    simp [hopen, ClientServer.setConnect]
  | some ok =>
    have hended : (endHandlers w s' ok).1.chainEnded = true := by
      unfold endHandlers
      split
      · split <;> rfl
      · rfl
    simp only [hended, ClientServer.setConnect]
    refine ⟨trivial, rfl, congrArg _ ?_⟩
    cases ok <;> cases haccepted : w.accepted <;> cases hsetup : w.lateSetup <;>
      simp [ConnectWakeup.outcome, endHandlers, ConnectInstance.connectState, haccepted, hsetup]

/-! ## The calls of a chain -/

/-- The calls of a chain that may go on, with the next handler and whether it has
deferred. -/
inductive ChainTrace : List HandlerCall → Nat → Bool → Prop
  | start : ChainTrace [] 0 false
  | deferred {calls i d} : ChainTrace calls i d → i < N_CONNECT_HANDLERS →
      ChainTrace (calls ++ [⟨i, d, .deferred⟩]) i true
  | done {calls i d r} : ChainTrace calls i d → i < N_CONNECT_HANDLERS → r.Continues →
      ChainTrace (calls ++ [⟨i, d, r⟩]) (i + 1) false

def ChainStopped (calls : List HandlerCall) : Prop :=
  ∃ before i d r, ChainTrace before i d ∧ i < N_CONNECT_HANDLERS ∧
    calls = before ++ [⟨i, d, r⟩] ∧ r.Stops

/-- The calls of a chain in which every handler was called. -/
def ChainDone (calls : List HandlerCall) : Prop := ∃ d, ChainTrace calls N_CONNECT_HANDLERS d

def anySucceeded (calls : List HandlerCall) : Bool :=
  calls.any fun c => decide (c.result.ret = .succeeded)

theorem anySucceeded_concat (calls : List HandlerCall) (c : HandlerCall) :
    anySucceeded (calls ++ [c]) = (anySucceeded calls || decide (c.result.ret = .succeeded)) := by
  unfold anySucceeded
  rw [any_append, any_cons, any_nil, Bool.or_false]

/-- The state says whether a handler has succeeded. -/
def loopStatus (calls : List HandlerCall) : MultiStatus :=
  if anySucceeded calls then .pendingDeferredPartial else .pendingDeferred

theorem loopStatus_concat (calls : List HandlerCall) (c : HandlerCall) :
    loopStatus (calls ++ [c]) =
      if c.result.ret = .succeeded then .pendingDeferredPartial else loopStatus calls := by
  unfold loopStatus
  rw [anySucceeded_concat]
  by_cases h : c.result.ret = .succeeded
  · rw [if_pos h, decide_eq_true h, Bool.or_true, if_pos rfl]
  · rw [if_neg h, decide_eq_false h, Bool.or_false]

/-- How the loop ends, with all calls of the instance. -/
inductive LoopEnds (s : ConnectInstance) (calls : List HandlerCall) : Option Bool → Prop
  | deferred : ChainTrace calls s.curHandlerIndex true → s.disable = false → LoopEnds s calls none
  | succeeded : ChainDone calls → LoopEnds s calls (some true)
  | stopped : ChainStopped calls → LoopEnds s calls (some false)

/-- The state an instance is in after the loop. -/
structure AfterLoop (s s' : ConnectInstance) (calls : List HandlerCall) (ok : Option Bool) :
    Prop where
  status : s'.multiState = loopStatus calls
  halt : s'.halt = s.halt
  ends : LoopEnds s' calls ok

/-- **The loop** continues a chain. -/
theorem handlerLoop_trace (w : ConnectWakeup) {left : Nat} {fromDeferred : Bool}
    {s : ConnectInstance} {calls : List HandlerCall}
    (hleft : s.curHandlerIndex + left = N_CONNECT_HANDLERS) (hs : s.disable = false)
    (hst : s.multiState = loopStatus calls)
    (htr : ChainTrace calls s.curHandlerIndex fromDeferred) :
    AfterLoop s (handlerLoop w left fromDeferred s).1
      (calls ++ (handlerLoop w left fromDeferred s).2.2)
      (handlerLoop w left fromDeferred s).2.1 := by
  induction left generalizing s calls fromDeferred with
  | zero =>
    unfold handlerLoop
    rw [append_nil]
    exact ⟨hst, rfl, .succeeded ⟨fromDeferred, hleft ▸ htr⟩⟩
  | succ left ih =>
    have hlt : s.curHandlerIndex < N_CONNECT_HANDLERS := by omega
    have haft : ∀ r, (s.afterHandler r).multiState =
        loopStatus (calls ++ [⟨s.curHandlerIndex, fromDeferred, r⟩]) := by
      intro r
      rw [loopStatus_concat, ← hst]
      rfl
    rcases (w.result s.curHandlerIndex).deferred_or with hr | hstop | hnext
    · rw [handlerLoop_deferred hr]
      refine ⟨?_, rfl, .deferred (htr.deferred hlt) hs⟩
      rw [loopStatus_concat, hst]
      rfl
    · rw [handlerLoop_stops rfl hstop]
      exact ⟨haft _, rfl, .stopped ⟨calls, _, _, _, htr, hlt, rfl, hstop⟩⟩
    · rw [handlerLoop_continues hs rfl hnext]
      have hleft' : (s.afterHandler (w.result s.curHandlerIndex)).curHandlerIndex + left =
          N_CONNECT_HANDLERS := by
        show s.curHandlerIndex + 1 + left = _
        omega
      have hrest := ih hleft' (afterHandler_disable hs hnext) (haft _)
        (htr.done hlt hnext)
      rw [append_assoc, singleton_append] at hrest
      exact ⟨hrest.status, hrest.halt, hrest.ends⟩

/-! ## One instance -/

theorem ChainTrace.le {calls : List HandlerCall} {i : Nat} {d : Bool} (h : ChainTrace calls i d) :
    i ≤ N_CONNECT_HANDLERS := by
  cases h with
  | start => exact zero_le _
  | deferred _ hlt => exact le_of_lt hlt
  | done _ hlt _ => exact hlt

/-- What an instance has done so far, by its state. -/
inductive InstanceOk : ConnectInstance → List ConnectAction → Prop
  | early {s} : (s.multiState = .notConnected ∨ s.multiState = .waitingAuth ∨
      s.multiState = .pending) → s.disable = false → InstanceOk s []
  | waiting {s calls} : s.multiState = loopStatus calls →
      ChainTrace calls s.curHandlerIndex true → s.disable = false → InstanceOk s (calls.map .call)
  | refused {s calls} : s.multiState = .failed → ChainStopped calls ∨ ChainDone calls →
      InstanceOk s (calls.map .call ++ if anySucceeded calls then [.disconnectScript] else [])
  | setupFailed {s calls} : s.multiState = .failed → ChainDone calls →
      InstanceOk s (calls.map .call ++ [.lateSetup false])
  | established {s calls} : s.multiState = .reconnectPending ∨ s.multiState = .connectDone →
      ChainDone calls → InstanceOk s (calls.map .call ++ [.lateSetup true])

theorem loopStatus_ne {calls : List HandlerCall} {st : MultiStatus}
    (h : st ≠ .pendingDeferred ∧ st ≠ .pendingDeferredPartial) : loopStatus calls ≠ st := by
  unfold loopStatus
  split
  · exact Ne.symm h.2
  · exact Ne.symm h.1

variable {acts : List ConnectAction} {s : ConnectInstance} {w : ConnectWakeup} {ok : Bool}

section

variable (h : InstanceOk s acts)

include h

theorem InstanceOk.resume (hpend : s.multiState.isPending = true) :
    ∃ calls, acts = calls.map .call ∧ s.startHandlers.multiState = loopStatus calls ∧
      ChainTrace calls s.startHandlers.curHandlerIndex (decide (s.multiState ≠ .pending)) ∧
      s.startHandlers.disable = false ∧ s.startHandlers.halt = s.halt := by
  cases h with
  | early hsta hdis =>
    have hst : s.multiState = .pending := by
      rcases hsta with hst | hst | hst
      · rw [hst] at hpend
        cases hpend
      · rw [hst] at hpend
        cases hpend
      · exact hst
    have hstart : s.startHandlers =
      { s with curHandlerIndex := 0, multiState := .pendingDeferred } := if_pos hst
    rw [hstart, hst]
    exact ⟨[], rfl, rfl, .start, hdis, rfl⟩
  | @waiting calls hsta htr hdis =>
    have hst : s.multiState ≠ .pending := by
      rw [hsta]
      exact loopStatus_ne (by decide)
    have hstart : s.startHandlers = s := if_neg hst
    rw [hstart, decide_eq_true hst]
    exact ⟨calls, rfl, hsta, htr, hdis, rfl⟩
  | refused hsta _ | setupFailed hsta _ =>
    rw [hsta] at hpend
    cases hpend
  | established hsta _ =>
    rcases hsta with hst | hst <;> rw [hst] at hpend <;> cases hpend

omit h in
theorem endHandlers_ok {calls : List HandlerCall} (hst : s.multiState = loopStatus calls)
    (hends : LoopEnds s calls (some ok)) :
    InstanceOk (endHandlers w s ok).1 (calls.map .call ++ (endHandlers w s ok).2) ∧
      (endHandlers w s ok).1.halt = s.halt := by
  have hscript : (if s.multiState = .pendingDeferredPartial then [ConnectAction.disconnectScript]
      else []) = if anySucceeded calls then [.disconnectScript] else [] := by
    rw [hst, loopStatus]
    cases anySucceeded calls <;> rfl
  have hch : ChainStopped calls ∨ ChainDone calls := by
    cases hends with
    | succeeded hdone => exact .inr hdone
    | stopped hstopped => exact .inl hstopped
  unfold endHandlers
  by_cases hgo : (ok && w.accepted) = true
  · have hdone : ChainDone calls := by
      rw [(and_eq_true_iff.mp hgo).1] at hends
      cases hends with
      | succeeded hdone => exact hdone
    rw [if_pos hgo]
    split
    · exact ⟨.established (.inr rfl) hdone, rfl⟩
    · exact ⟨.setupFailed rfl hdone, rfl⟩
  · rw [if_neg hgo]
    dsimp only
    rw [hscript]
    exact ⟨.refused rfl hch, rfl⟩

/-- **Handlers.** A call of `multi_connection_established` continues the chain. -/
theorem connectionEstablished_ok (hpend : s.multiState.isPending = true) :
    InstanceOk (connectionEstablished w s).1 (acts ++ (connectionEstablished w s).2) ∧
      (connectionEstablished w s).1.halt = s.halt := by
  obtain ⟨calls, rfl, hst, htr, hdis, hhalt⟩ := h.resume hpend
  have hleft : s.startHandlers.curHandlerIndex +
      (N_CONNECT_HANDLERS - s.startHandlers.curHandlerIndex) = N_CONNECT_HANDLERS :=
    Nat.add_sub_cancel' htr.le
  have hloop := handlerLoop_trace w hleft hdis hst htr
  unfold connectionEstablished
  dsimp only
  generalize handlerLoop w (N_CONNECT_HANDLERS - s.startHandlers.curHandlerIndex)
    (decide (s.multiState ≠ .pending)) s.startHandlers = r at hloop
  obtain ⟨s', ok, more⟩ := r
  dsimp only at hloop
  cases ok with
  | none =>
    dsimp only
    rw [← map_append]
    cases hloop.ends with
    | deferred htr hdis =>
      exact ⟨.waiting hloop.status htr hdis, hloop.halt.trans hhalt⟩
  | some ok =>
    obtain ⟨hok, hhalt'⟩ := endHandlers_ok (w := w) hloop.status hloop.ends
    dsimp only
    rw [← append_assoc, ← map_append]
    exact ⟨hok, hhalt'.trans (hloop.halt.trans hhalt)⟩

theorem InstanceOk.advance : InstanceOk { s with multiState := s.multiState.advance } acts := by
  cases h with
  | early hsta hdis =>
    refine .early ?_ hdis
    rcases hsta with hst | hst | hst <;> rw [hst]
    · exact .inr (.inl rfl)
    · exact .inr (.inr rfl)
    · exact .inr (.inr rfl)
  | @waiting calls hsta htr hdis =>
    refine .waiting ?_ htr hdis
    show s.multiState.advance = _
    rw [hsta, loopStatus]
    split <;> rfl
  | refused hsta hch => exact .refused (by rw [hsta]; rfl) hch
  | setupFailed hsta hch => exact .setupFailed (by rw [hsta]; rfl) hch
  | established hsta hch =>
    refine .established (.inl ?_) hch
    rcases hsta with hst | hst <;> rw [hst] <;> rfl

theorem InstanceOk.established_of
    (hsta : s.multiState = .waitingOptionsImport ∨ s.multiState = .reconnectPending ∨
      s.multiState = .connectDone) :
    ∃ calls, ChainDone calls ∧ acts = calls.map .call ++ [.lateSetup true] := by
  cases h with
  | established _ hch => exact ⟨_, hch, rfl⟩
  | early hearly _ =>
    rcases hearly with hst | hst | hst <;> rw [hst] at hsta <;>
      exact absurd hsta (by decide)
  | waiting hwaiting _ _ =>
    rw [hwaiting] at hsta
    rcases hsta with hst | hst | hst <;> exact absurd hst (loopStatus_ne (by decide))
  | refused hfail _ | setupFailed hfail _ =>
    rw [hfail] at hsta
    exact absurd hsta (by decide)

theorem InstanceOk.connectTimer : InstanceOk (checkConnectionEstablished s) acts := by
  unfold checkConnectionEstablished
  split
  case isFalse => exact h
  case isTrue hst =>
    split
    case isFalse => exact h
    case isTrue =>
      obtain ⟨calls, hch, rfl⟩ := h.established_of hst
      exact .established (.inr rfl) hch

/-- What closing an instance does. -/
def closing (s : ConnectInstance) : List ConnectAction :=
  if s.multiState = .connectDone then [.disconnectScript] else []

omit h in
theorem closing_eq_nil (h : s.multiState ≠ .connectDone) : closing s = [] :=
  if_neg h

/-- An instance after the outputs `outs`. -/
def InstanceInv (s : ConnectInstance) (outs : List (List ConnectAction)) : Prop :=
  ∃ acts, InstanceOk s acts ∧ outs.flatten = acts ++ if s.halt then closing s else []

theorem InstanceOk.setHalt (halt : Bool) : InstanceOk { s with halt := halt } acts := by
  cases h with
  | early hst hdis => exact .early hst hdis
  | waiting hst htr hdis => exact .waiting hst htr hdis
  | refused hst hch => exact .refused hst hch
  | setupFailed hst hch => exact .setupFailed hst hch
  | established hst hch => exact .established hst hch

end

/-- **One event** of an instance. -/
theorem InstanceInv.step {s' : ConnectInstance} {outs : List (List ConnectAction)}
    {e : InstanceEvent} {out : List ConnectAction} (h : InstanceInv s outs)
    (hstep : instanceStep s e = some (s', out)) : InstanceInv s' (outs ++ [out]) := by
  obtain ⟨acts, hok, houts⟩ := h
  have hopen := instanceStep_open hstep
  rw [hopen, if_neg Bool.false_ne_true, append_nil] at houts
  have hflat : (outs ++ [out]).flatten = acts ++ out := by
    rw [flatten_append, houts, flatten_singleton]
  have hstill : ∀ {t : ConnectInstance}, t.halt = s.halt →
      (acts ++ out) = (acts ++ out) ++ if t.halt then closing t else [] := by
    intro t ht
    rw [ht, hopen, if_neg Bool.false_ne_true, append_nil]
  cases e with rw [instanceStep, hopen, if_neg Bool.false_ne_true] at hstep
  | tls =>
    cases hstep
    refine ⟨acts ++ [], ?_, hflat.trans (hstill hopen.symm)⟩
    rw [append_nil]
    exact hopen ▸ hok.advance
  | post w =>
    split at hstep
    case isTrue hpend =>
      obtain ⟨hok', hhalt⟩ := connectionEstablished_ok (w := w) hok hpend
      cases hpair : connectionEstablished w s with
      | mk t o =>
        rw [hpair] at hstep hok' hhalt
        cases hstep
        exact ⟨acts ++ out, hok', hflat.trans (hstill hhalt)⟩
    case isFalse =>
      cases hstep
      refine ⟨acts ++ [], ?_, hflat.trans (hstill rfl)⟩
      rw [append_nil]
      exact hok
  | connectTimer =>
    cases hstep
    have hhalt : (checkConnectionEstablished s).halt = s.halt := by
      unfold checkConnectionEstablished
      split
      · split <;> rfl
      · rfl
    refine ⟨acts ++ [], ?_, hflat.trans (hstill hhalt)⟩
    rw [append_nil]
    exact hok.connectTimer
  | close =>
    cases hstep
    exact ⟨acts, hok.setHalt true, hflat⟩

/-- **Every run** of an instance. -/
theorem run_instanceInv {es : List InstanceEvent} {outs : List (List ConnectAction)}
    (h : run instanceStep .fresh es = some (s, outs)) : InstanceInv s outs := by
  have hstart : InstanceInv .fresh [] := ⟨[], .early (.inl rfl) rfl, rfl⟩
  have hrun := run_history (I := InstanceInv) (G := fun _ => True)
    (fun _ _ _ _ _ hI _ hstep => hI.step hstep) hstart (fun _ _ => trivial) h
  rwa [nil_append] at hrun

/-! ## The order of the calls -/

/-- The handlers that have returned a final result, in the order of their calls. -/
def completed (calls : List HandlerCall) : List Nat :=
  (calls.filter fun c => decide (c.result ≠ .deferred)).map HandlerCall.index

theorem completed_concat (calls : List HandlerCall) (c : HandlerCall) :
    completed (calls ++ [c]) =
      completed calls ++ if c.result = .deferred then [] else [c.index] := by
  unfold completed
  rw [filter_append, map_append]
  by_cases h : c.result = .deferred
  · rw [if_pos h, filter_cons_of_neg (by simp [h])]
    rfl
  · rw [if_neg h, filter_cons_of_pos (by simp [h])]
    rfl

variable {c : HandlerCall}

theorem concat_eq_split {calls before after : List HandlerCall} {x : HandlerCall}
    (h : calls ++ [x] = before ++ c :: after) :
    (calls = before ∧ x = c) ∨ ∃ rest, calls = before ++ c :: rest := by
  rcases eq_nil_or_concat' after with rfl | ⟨rest, y, rfl⟩
  · obtain ⟨rfl, hc⟩ := append_inj' h rfl
    exact .inl ⟨rfl, head_eq_of_cons_eq hc⟩
  · rw [← cons_append, ← append_assoc] at h
    exact .inr ⟨rest, (append_inj' h rfl).1⟩

namespace ChainTrace

variable {calls : List HandlerCall} {i : Nat} {d : Bool}

section

variable (h : ChainTrace calls i d)

include h

theorem completed_eq : completed calls = range i := by
  induction h with
  | start => rfl
  | deferred _ _ ih => rw [completed_concat, if_pos rfl, append_nil, ih]
  | done _ _ hnext ih =>
    rw [completed_concat, if_neg hnext.ne_deferred, ih, range_succ]

theorem results : ∀ c ∈ calls, c.result = .deferred ∨ c.result.Continues := by
  induction h with
  | start => exact forall_mem_nil _
  | deferred _ _ ih => exact forall_mem_append.mpr ⟨ih, forall_mem_singleton.mpr (.inl rfl)⟩
  | done _ _ hnext ih => exact forall_mem_append.mpr ⟨ih, forall_mem_singleton.mpr (.inr hnext)⟩

theorem last_deferred :
    (∀ c ∈ calls.getLast?, c.result = .deferred → i = c.index ∧ d = true) ∧
      (d = true → i ∈ calls.map HandlerCall.index) := by
  cases h with
  | start => exact ⟨fun c hc => (nomatch hc), fun h => (nomatch h)⟩
  | deferred _ _ =>
    constructor
    · intro c hc _
      rw [getLast?_concat, mem_some_iff] at hc
      rw [← hc]
      exact ⟨rfl, rfl⟩
    · intro _
      rw [map_append, mem_append]
      exact .inr mem_cons_self
  | done _ _ hnext =>
    constructor
    · intro c hc hdef
      rw [getLast?_concat, mem_some_iff] at hc
      rw [← hc] at hdef
      exact absurd hdef hnext.ne_deferred
    · intro h
      cases h

theorem split {before after : List HandlerCall} (hspl : calls = before ++ c :: after) :
    ChainTrace before c.index c.fromDeferred := by
  induction h generalizing after with
  | start => exact absurd hspl.symm (by simp)
  | deferred htr _ ih | done htr _ _ ih =>
    rcases concat_eq_split hspl with ⟨rfl, rfl⟩ | ⟨rest, hrest⟩
    · exact htr
    · exact ih hrest

end

end ChainTrace

/-- The calls of a chain, whether it may go on or not. -/
def ChainCalls (calls : List HandlerCall) : Prop :=
  (∃ i d, ChainTrace calls i d) ∨ ChainStopped calls

theorem ChainCalls.split {calls before after : List HandlerCall} (h : ChainCalls calls)
    (hspl : calls = before ++ c :: after) : ChainTrace before c.index c.fromDeferred := by
  rcases h with ⟨i, d, htr⟩ | ⟨begun, i, d, r, htr, -, rfl, -⟩
  · exact htr.split hspl
  · rcases concat_eq_split hspl with ⟨rfl, rfl⟩ | ⟨rest, hrest⟩
    · exact htr
    · exact htr.split hrest

theorem ChainCalls.completed_eq {calls : List HandlerCall} (h : ChainCalls calls) :
    ∃ n ≤ N_CONNECT_HANDLERS, completed calls = range n := by
  rcases h with ⟨i, d, htr⟩ | ⟨begun, i, d, r, htr, hlt, rfl, hstop⟩
  · exact ⟨i, htr.le, htr.completed_eq⟩
  · have hfin : ¬r = .deferred := by
      rcases hstop with rfl | rfl <;> decide
    refine ⟨i + 1, hlt, ?_⟩
    rw [completed_concat, if_neg hfin, htr.completed_eq, range_succ]

def ConnectAction.call? : ConnectAction → Option HandlerCall
  | .call c => some c
  | _ => none

def callsOf (acts : List ConnectAction) : List HandlerCall := acts.filterMap ConnectAction.call?

variable {rest : List ConnectAction}

theorem callsOf_append {calls : List HandlerCall} (hrest : callsOf rest = []) :
    callsOf (calls.map .call ++ rest) = calls := by
  unfold callsOf at hrest ⊢
  rw [filterMap_append, hrest, append_nil, filterMap_map]
  exact filterMap_some

theorem callsOf_lateSetup {calls : List HandlerCall} (hrest : callsOf rest = []) :
    callsOf (calls.map .call ++ [.lateSetup ok] ++ rest) = calls := by
  rw [append_assoc]
  exact callsOf_append hrest

theorem callsOf_closing (s : ConnectInstance) :
    callsOf (if s.halt then closing s else []) = [] := by
  unfold closing
  split
  · split <;> rfl
  · rfl

theorem InstanceOk.calls (h : InstanceOk s acts) (hrest : callsOf rest = []) :
    ChainCalls (callsOf (acts ++ rest)) := by
  cases h with
  | early _ _ =>
    rw [nil_append, hrest]
    exact .inl ⟨0, false, .start⟩
  | waiting _ htr _ =>
    rw [callsOf_append hrest]
    exact .inl ⟨_, _, htr⟩
  | @refused calls _ hch =>
    rw [append_assoc, callsOf_append]
    · rcases hch with hstopped | ⟨d, hdone⟩
      · exact .inr hstopped
      · exact .inl ⟨_, d, hdone⟩
    · cases anySucceeded calls <;> exact hrest
  | setupFailed _ hch | established _ hch =>
    obtain ⟨d, hdone⟩ := hch
    rw [callsOf_lateSetup hrest]
    exact .inl ⟨_, d, hdone⟩

theorem lateSetup_not_mem {calls : List HandlerCall} :
    .lateSetup ok ∉ calls.map ConnectAction.call := by
  intro hmem
  obtain ⟨c, -, hc⟩ := mem_map.mp hmem
  cases hc

theorem lateSetup_not_mem_closing (ok : Bool) :
    .lateSetup ok ∉ if s.halt then closing s else [] := by
  unfold closing
  intro hmem
  split at hmem
  · split at hmem
    · cases mem_singleton.mp hmem
    · cases hmem
  · cases hmem

theorem accepted_checks (h : w.accepted = true) :
    w.overrideUsername ≠ some false ∧ w.compression = true := by
  unfold ConnectWakeup.accepted at h
  rw [and_eq_true_iff, and_eq_true_iff] at h
  refine ⟨?_, h.2⟩
  intro huser
  rw [huser] at h
  cases h.1.1

theorem InstanceOk.lateSetup_mem (h : InstanceOk s acts) (hdone : s.multiState = .connectDone) :
    .lateSetup true ∈ acts := by
  obtain ⟨calls, -, rfl⟩ := h.established_of (.inr (.inr hdone))
  exact mem_append_right _ mem_cons_self

theorem InstanceOk.done (h : InstanceOk s acts) (hrest : callsOf rest = [])
    (hnone : ∀ ok, .lateSetup ok ∉ rest) (hlate : .lateSetup ok ∈ acts ++ rest) :
    ChainDone (callsOf (acts ++ rest)) := by
  have hin : .lateSetup ok ∈ acts := (mem_append.mp hlate).resolve_right (hnone ok)
  cases h with
  | early _ _ => cases hin
  | waiting _ _ _ => exact absurd hin (lateSetup_not_mem)
  | @refused calls _ _ =>
    rcases mem_append.mp hin with hmem | hmem
    · exact absurd hmem (lateSetup_not_mem)
    · split at hmem
      · cases mem_singleton.mp hmem
      · cases hmem
  | setupFailed _ hch | established _ hch =>
    rw [callsOf_lateSetup hrest]
    exact hch

theorem connectionEstablished_lateSetup (h : .lateSetup ok ∈ (connectionEstablished w s).2) :
    w.accepted = true := by
  unfold connectionEstablished at h
  dsimp only at h
  generalize handlerLoop w (N_CONNECT_HANDLERS - s.startHandlers.curHandlerIndex)
    (decide (s.multiState ≠ .pending)) s.startHandlers = r at h
  obtain ⟨s', result, calls⟩ := r
  cases result with
  | none => exact absurd h (lateSetup_not_mem)
  | some ccSucceeded =>
    have hend := (mem_append.mp h).resolve_left (lateSetup_not_mem)
    unfold endHandlers at hend
    split at hend
    case isTrue hgo => exact (and_eq_true_iff.mp hgo).2
    case isFalse =>
      dsimp only at hend
      split at hend
      · cases mem_singleton.mp hend
      · cases hend

theorem instanceStep_lateSetup {s' : ConnectInstance} {e : InstanceEvent} {out : List ConnectAction}
    (h : instanceStep s e = some (s', out)) (hlate : .lateSetup ok ∈ out) :
    ∃ w, e = .post w ∧ w.accepted = true := by
  have hopen := instanceStep_open h
  cases e with rw [instanceStep, hopen, if_neg Bool.false_ne_true] at h
  | tls | connectTimer =>
    cases h
    cases hlate
  | close =>
    cases h
    split at hlate
    · cases mem_singleton.mp hlate
    · cases hlate
  | post w =>
    refine ⟨w, rfl, ?_⟩
    split at h
    case isFalse =>
      cases h
      cases hlate
    case isTrue =>
      have hout : out = (connectionEstablished w s).2 :=
        (congrArg Prod.snd (some.inj h)).symm
      rw [hout] at hlate
      exact connectionEstablished_lateSetup hlate

/-- **The chain.** Over every run of an instance: the handlers complete in the order of the
table; no handler is called after its final result; one that was deferred is called next,
with the flag, and first calls are without it; nothing is called after a failure or after
the `disable` directive was imported. The connection is done only if every handler
succeeded or skipped, without the directive, and the user name and the compression were
accepted. -/
theorem connect_chain_in_order {es : List InstanceEvent} {s : ConnectInstance}
    {outs : List (List ConnectAction)} (h : run instanceStep .fresh es = some (s, outs)) :
    let calls := callsOf outs.flatten
    (∃ n ≤ N_CONNECT_HANDLERS, completed calls = range n) ∧
    (∀ before c after, calls = before ++ c :: after →
      c.index ∉ completed before ∧
      (∀ b ∈ before.getLast?, b.result = .deferred → c.index = b.index ∧ c.fromDeferred = true) ∧
      (c.index ∉ before.map HandlerCall.index → c.fromDeferred = false) ∧
      ∀ b ∈ before, b.result ≠ .failed ∧ b.result ≠ .succeeded true) ∧
    (s.multiState = .connectDone → .lateSetup true ∈ outs.flatten) ∧
    (∀ ok, .lateSetup ok ∈ outs.flatten → completed calls = range N_CONNECT_HANDLERS ∧
      ∀ c ∈ calls, c.result = .deferred ∨ c.result = .skipped ∨ c.result = .succeeded false) ∧
    ∀ e out, (e, out) ∈ es.zip outs → ∀ ok, .lateSetup ok ∈ out →
      ∃ w, e = .post w ∧ w.overrideUsername ≠ some false ∧ w.compression = true := by
  obtain ⟨acts, hok, houts⟩ := run_instanceInv h
  have hrest := callsOf_closing s
  have hcalls := hok.calls hrest
  rw [← houts] at hcalls
  refine ⟨hcalls.completed_eq, ?_, ?_, ?_, ?_⟩
  · intro before c after hsplit
    have htrace := hcalls.split hsplit
    obtain ⟨hlast, hflag⟩ := htrace.last_deferred
    refine ⟨?_, hlast, ?_, ?_⟩
    · rw [htrace.completed_eq, mem_range]
      exact lt_irrefl _
    · intro hfirst
      exact eq_false_of_not_eq_true fun hset => hfirst (hflag hset)
    · intro b hb
      rcases htrace.results b hb with hr | hr | hr <;> rw [hr] <;> decide
  · intro hdone
    rw [houts]
    exact mem_append_left _ (hok.lateSetup_mem hdone)
  · intro ok hlate
    obtain ⟨d, htrace⟩ : ChainDone (callsOf outs.flatten) := by
      rw [houts] at hlate ⊢
      exact hok.done hrest (lateSetup_not_mem_closing) hlate
    exact ⟨htrace.completed_eq, htrace.results⟩
  · intro e out hmem ok hlate
    have hstep := run_outputs (Q := fun e out => ∀ ok, ConnectAction.lateSetup ok ∈ out →
      ∃ w, e = .post w ∧ w.accepted = true) (fun _ _ _ _ _ hstep _ => instanceStep_lateSetup hstep)
      (runGuard_true ..) h
    obtain ⟨w, rfl, haccepted⟩ := hstep e out hmem ok hlate
    obtain ⟨huser, hcomp⟩ := accepted_checks haccepted
    exact ⟨w, rfl, huser, hcomp⟩

/-- A wake-up at which every handler that is called skips, except the first. -/
def plainWakeup : ConnectWakeup :=
  { result := fun i => if i = 0 then .succeeded false else .skipped
    overrideUsername := none, dcoOptions := true, compression := true
    protocolOptions := true, dcoInitial := true, tlsKeys := true }

/-- A server with one instance, whose client is authenticated. -/
def pendingServer : ClientServer sampleConfig :=
  (ClientServer.start sampleServer).setConnect 0 ⟨0, .pending, 0⟩

theorem connectionEstablished_state_plain :
    (multiConnectionEstablished pendingServer 0 plainWakeup.outcome).1.nClients = 1 ∧
      (multiConnectionEstablished pendingServer 0 plainWakeup.outcome).1.connects 0 =
        ⟨-1, .connectDone, N_CONNECT_HANDLERS⟩ := by
  obtain ⟨-, hclients, hconnects⟩ := connectionEstablished_state pendingServer 0 plainWakeup
    { ConnectInstance.fresh with multiState := .pending } 0 rfl rfl rfl
  rw [hclients, hconnects, Function.update_self]
  exact ⟨rfl, rfl⟩

/-- The events of a client that connects and goes. -/
def plainEvents (w : ConnectWakeup) : List InstanceEvent := [.tls, .tls, .post w, .close]

theorem connect_chain_in_order_plain :
    ∃ s outs, run instanceStep .fresh (plainEvents plainWakeup) = some (s, outs) ∧
      completed (callsOf outs.flatten) = range N_CONNECT_HANDLERS := by
  have hrun : (run instanceStep .fresh (plainEvents plainWakeup)).isSome = true := by decide
  obtain ⟨⟨s, outs⟩, hsome⟩ := isSome_iff_exists.mp hrun
  have hlate : ((run instanceStep .fresh (plainEvents plainWakeup)).map fun r =>
      decide (.lateSetup true ∈ r.2.flatten)) = some true := by decide
  rw [hsome, map_some, some.injEq, decide_eq_true_iff] at hlate
  exact ⟨s, outs, hsome, ((connect_chain_in_order hsome).2.2.2.1 true hlate).1⟩

/-! ## The disconnect script -/

/-- How often the script has run. -/
def disconnects (acts : List ConnectAction) : Nat := acts.count .disconnectScript

theorem disconnects_calls (calls : List HandlerCall) (rest : List ConnectAction) :
    disconnects (calls.map .call ++ rest) = disconnects rest := by
  have hnone : .disconnectScript ∉ calls.map ConnectAction.call := by
    intro hmem
    obtain ⟨c, -, hc⟩ := mem_map.mp hmem
    cases hc
  unfold disconnects
  rw [count_append, count_eq_zero.mpr hnone, zero_add]

/-- A handler has succeeded, or the connection was done. -/
def Announced (acts : List ConnectAction) : Prop :=
  (∃ c ∈ callsOf acts, c.result.ret = .succeeded) ∨ ∃ ok, .lateSetup ok ∈ acts

theorem anySucceeded_of_announced {calls : List HandlerCall} (hrest : callsOf rest = [])
    (hnone : ∀ ok, .lateSetup ok ∉ rest) (h : Announced (calls.map .call ++ rest)) :
    anySucceeded calls = true := by
  rcases h with ⟨c, hc, hret⟩ | ⟨ok, hlate⟩
  · rw [callsOf_append hrest] at hc
    exact any_eq_true.mpr ⟨c, hc, decide_eq_true hret⟩
  · rcases mem_append.mp hlate with hmem | hmem
    · exact absurd hmem (lateSetup_not_mem)
    · exact absurd hmem (hnone ok)

/-- **Connect and disconnect.** Over every run of an instance from its creation to its end
the disconnect script runs at most once. If a handler succeeded or the connection was done,
it runs exactly once unless the late setup failed, or the instance was closed while a later
handler was deferred or while a reconnect was pending. -/
theorem disconnect_paired_iff {es : List InstanceEvent} {s s' : ConnectInstance}
    {outs : List (List ConnectAction)} {out : List ConnectAction}
    (h : run instanceStep .fresh es = some (s, outs))
    (hclose : instanceStep s .close = some (s', out)) :
    let acts := outs.flatten ++ out
    disconnects acts ≤ 1 ∧
      (Announced acts → (disconnects acts = 1 ↔
        .lateSetup false ∉ acts ∧ s.multiState ≠ .pendingDeferredPartial ∧
          s.multiState ≠ .reconnectPending)) := by
  obtain ⟨acts, hok, houts⟩ := run_instanceInv h
  have hopen := instanceStep_open hclose
  rw [instanceStep, hopen, if_neg Bool.false_ne_true] at hclose
  have hout : out = closing s := (congrArg Prod.snd (some.inj hclose)).symm
  rw [hopen, if_neg Bool.false_ne_true, append_nil] at houts
  rw [houts, hout]
  dsimp only
  cases hok with
  | early hstate _ =>
    have hne : s.multiState ≠ .connectDone := by
      rcases hstate with hst | hst | hst <;> rw [hst] <;> decide
    rw [closing_eq_nil hne]
    refine ⟨zero_le 1, ?_⟩
    rintro (⟨c, hc, -⟩ | ⟨ok, hlate⟩)
    · cases hc
    · cases hlate
  | @waiting calls hstate _ _ =>
    have hne : s.multiState ≠ .connectDone := by
      rw [hstate]
      exact loopStatus_ne (by decide)
    rw [closing_eq_nil hne, disconnects_calls]
    refine ⟨zero_le 1, fun hann => iff_of_false (by decide) ?_⟩
    have hsucc := anySucceeded_of_announced rfl (fun _ => not_mem_nil) hann
    intro hgood
    apply hgood.2.1
    rw [hstate, loopStatus, if_pos hsucc]
  | @refused calls hstate _ =>
    rw [closing_eq_nil (by rw [hstate]; decide), append_nil, disconnects_calls, hstate]
    constructor
    · cases anySucceeded calls <;> decide
    · intro hann
      have hsucc := anySucceeded_of_announced (by cases anySucceeded calls <;> rfl)
        (by cases anySucceeded calls <;> intro ok <;> cases ok <;> decide) hann
      rw [hsucc, if_pos rfl]
      refine iff_of_true rfl ⟨?_, by decide, by decide⟩
      intro hlate
      rcases mem_append.mp hlate with hmem | hmem
      · exact lateSetup_not_mem hmem
      · cases mem_singleton.mp hmem
  | @setupFailed calls hstate _ =>
    rw [closing_eq_nil (by rw [hstate]; decide), append_nil, disconnects_calls]
    refine ⟨zero_le 1, fun _ => iff_of_false (by decide) ?_⟩
    intro hgood
    exact hgood.1 (mem_append_right _ mem_cons_self)
  | @established calls hstate _ =>
    rw [append_assoc, disconnects_calls]
    rcases hstate with hst | hst
    · rw [closing_eq_nil (by rw [hst]; decide), hst]
      exact ⟨zero_le 1, fun _ => iff_of_false (by decide) fun hgood => hgood.2.2 rfl⟩
    · rw [closing, hst, if_pos rfl]
      refine ⟨le_refl 1, fun _ => iff_of_true rfl ⟨?_, by decide, by decide⟩⟩
      intro hlate
      rcases mem_append.mp hlate with hmem | hmem
      · exact lateSetup_not_mem hmem
      · revert hmem
        decide

/-- The client connects and goes. -/
theorem disconnect_paired_plain :
    ∃ s outs s' out, run instanceStep .fresh [.tls, .tls, .post plainWakeup] = some (s, outs) ∧
      instanceStep s .close = some (s', out) ∧ disconnects (outs.flatten ++ out) = 1 := by
  refine ⟨_, _, _, _, rfl, rfl, ?_⟩
  have hrun : run instanceStep .fresh [.tls, .tls, .post plainWakeup] = some _ := rfl
  have hpaired := disconnect_paired_iff hrun rfl
  exact (hpaired.2 (.inr ⟨true, by decide⟩)).mpr (by decide)

/-- In three runs the script does not run although a handler has succeeded: the keys of
the data channel cannot be generated, the client is closed while a handler is deferred, and
an established client is closed while a reconnect is pending. -/
theorem disconnect_missed :
    ((run instanceStep .fresh (plainEvents { plainWakeup with tlsKeys := false })).map fun r =>
        (anySucceeded (callsOf r.2.flatten), disconnects r.2.flatten)) = some (true, 0) ∧
      ((run instanceStep .fresh (plainEvents { plainWakeup with
        result := fun i => if i = 0 then .succeeded false else .deferred })).map fun r =>
          (anySucceeded (callsOf r.2.flatten), disconnects r.2.flatten)) = some (true, 0) ∧
      ((run instanceStep .fresh [.tls, .tls, .post plainWakeup, .tls, .close]).map fun r =>
        (anySucceeded (callsOf r.2.flatten), disconnects r.2.flatten)) = some (true, 0) := by
  decide

end OpenVpn
