import MuduoCore.TcpConnection.Disconnected
import MuduoCore.TcpConnection.Updates

/-!
# Events of a connection

`handleEventWithGuard` calls several callbacks for one `revents_`, and the loop calls it for a channel
only if the kernel's list holds the channel when the loop polls. User calls come between any two of
these callbacks; functors run between two events.
-/

namespace MuduoCore

inductive Handler where
  | handleClose
  | handleError
  | handleRead
  | handleWrite
  deriving DecidableEq, Repr

/-- The callbacks that `handleEventWithGuard` calls for `revents_`, in its order. -/
def eventHandlers (revents : EventMask) : List Handler :=
  (if revents &&& EPOLLHUP ≠ 0#32 ∧ revents &&& EPOLLIN = 0#32 then [.handleClose] else []) ++
    (if revents &&& EPOLLERR ≠ 0#32 then [.handleError] else []) ++
    (if revents &&& (EPOLLIN ||| EPOLLPRI) ≠ 0#32 then [.handleRead] else []) ++
    (if revents &&& EPOLLOUT ≠ 0#32 then [.handleWrite] else [])

def Handler.step (read : Except Errno (List Byte)) (write : Except Errno Nat) : Handler → Step
  | handleClose => .handleClose
  | handleError => .handleError
  | handleRead => .handleRead read
  | handleWrite => .handleWrite write

/-- The mask takes `handleEventWithGuard` into its close branch and into its read branch. -/
def ClosesAndReads (revents : EventMask) : Prop :=
  revents &&& EPOLLHUP ≠ 0#32 ∧ revents &&& EPOLLIN = 0#32 ∧ revents &&& EPOLLPRI ≠ 0#32

instance (revents : EventMask) : Decidable (ClosesAndReads revents) :=
  inferInstanceAs (Decidable (_ ∧ _))

def Handler.rank : Handler → Nat
  | handleClose => 0
  | handleError => 1
  | handleRead => 2
  | handleWrite => 3

theorem sorted_eventHandlers (revents : EventMask) :
    (eventHandlers revents).Pairwise fun a b => a.rank < b.rank := by
  unfold eventHandlers
  split <;> split <;> split <;> split <;> decide

theorem mem_eventHandlers_handleClose {revents : EventMask} (h : .handleClose ∈ eventHandlers revents) :
    revents &&& EPOLLHUP ≠ 0#32 ∧ revents &&& EPOLLIN = 0#32 := by
  by_contra hnot
  simp [eventHandlers, hnot] at h

theorem mem_eventHandlers_handleRead {revents : EventMask} (h : .handleRead ∈ eventHandlers revents) :
    revents &&& (EPOLLIN ||| EPOLLPRI) ≠ 0#32 := by
  by_contra hnot
  simp [eventHandlers, hnot] at h

theorem closesAndReads_of_mem {revents : EventMask} (hclose : .handleClose ∈ eventHandlers revents)
    (hread : .handleRead ∈ eventHandlers revents) : ClosesAndReads revents := by
  obtain ⟨hup, hin⟩ := mem_eventHandlers_handleClose hclose
  refine ⟨hup, hin, ?_⟩
  have hsome := mem_eventHandlers_handleRead hread
  rw [BitVec.and_or_distrib_left, hin, BitVec.zero_or] at hsome
  exact hsome

/-- A connection and the `handleEventWithGuard` that runs: its `revents_` and the callbacks that it
has yet to call. -/
structure Dispatch (κ : Type*) where
  running : Running κ
  revents : EventMask
  handlers : List Handler

inductive EventStep where
  | handleEvent (revents : EventMask)
  | callback (read : Except Errno (List Byte)) (write : Except Errno Nat)
  | call (step : Step)

/-- What a step needs from the loop: the user may call at any time, functors are called when no event
is being handled. -/
def Step.Free : Step → List Handler → Prop
  | .send _ _, _ | .sendFile _ _ _ _, _ | .shutdown, _ => True
  | .connectDestroyed, waiting | .doPendingFunctors, waiting | .runFunctor _, waiting => waiting = []
  | .handleRead _, _ | .handleWrite _, _ | .handleClose, _ | .handleError, _ => False

instance (waiting : List Handler) : (step : Step) → Decidable (step.Free waiting)
  | .send _ _ | .sendFile _ _ _ _ | .shutdown => inferInstanceAs (Decidable True)
  | .connectDestroyed | .doPendingFunctors | .runFunctor _ =>
      inferInstanceAs (Decidable (waiting = []))
  | .handleRead _ | .handleWrite _ | .handleClose | .handleError => inferInstanceAs (Decidable False)

namespace Dispatch

variable {κ : Type*} [DecidableEq κ] (file : Nat → List Byte)

/-- The kernel's list has the channel of the connection. -/
def Registered (s : Session κ) : Prop :=
  (s.poller.epollfd s.conn.channel.fd).map (·.ptr) = some s.self

instance (s : Session κ) : Decidable (Registered s) := inferInstanceAs (Decidable (_ = some _))

def step (d : Dispatch κ) : EventStep → Option (Dispatch κ)
  | .handleEvent revents =>
      guarded (d.handlers = [] ∧ d.running.functors = [] ∧ Registered d.running.session)
        { d with revents := revents, handlers := eventHandlers revents }
  | .callback read write =>
      match d.handlers with
      | [] => none
      | handler :: rest =>
          (Running.step file d.running (handler.step read write)).map fun r =>
            { d with running := r, handlers := rest }
  | .call step =>
      if step.Free d.handlers then
        (Running.step file d.running step).map fun r => { d with running := r }
      else none

/-- A connection after `connectEstablished`, on a poller that agrees with the channels `chan` of its
loop, none of which has the new descriptor. -/
def Initial (d : Dispatch κ) : Prop :=
  ∃ (chan : κ → Channel) (self : κ) (poller : EPollPoller κ) (fd highWaterMark bufferSize : Nat)
    (connectionCallback messageCallback writeCompleteCallback highWaterMarkCallback
      closeCallback : Bool),
    let s := Running.fresh self poller fd highWaterMark bufferSize connectionCallback
      messageCallback writeCompleteCallback highWaterMarkCallback closeCallback
    Agrees chan s ∧ d = ⟨⟨s.connectEstablished, []⟩, 0#32, []⟩

def system : System (Dispatch κ) EventStep where
  init := Initial
  step := step file

/-- After the close branch of such a mask, the `readv` of its read branch fails. -/
def ReadsNothing (d : Dispatch κ) : EventStep → Prop
  | .callback (.ok _) _ => ClosesAndReads d.revents → d.handlers.head? ≠ some .handleRead
  | .callback (.error _) _ | .handleEvent _ | .call _ => True

instance (d : Dispatch κ) : (event : EventStep) → Decidable (d.ReadsNothing event)
  | .callback (.ok _) _ => inferInstanceAs (Decidable (_ → _))
  | .callback (.error _) _ | .handleEvent _ | .call _ => inferInstanceAs (Decidable True)

/-- After a DOWN, no second one and no message. -/
def DownLast (trace : List Event) : Prop :=
  FollowedBy (.connectionCallback false)
    (fun later => later ≠ .connectionCallback false ∧ later ≠ .messageCallback) trace

theorem DownLast.append_quiet {trace more : List Event} (htrace : DownLast trace)
    (hmore : ∀ event ∈ more, event.isCallback = false) : DownLast (trace ++ more) := by
  apply FollowedBy.append htrace
  intro event hmem
  have hcallback := hmore event hmem
  constructor <;> rintro rfl <;> cases hcallback

/-! ### Before and after the close -/

/-- The connection has not gone down. `connectDestroyed` leaves it so only in `kDisconnecting`. -/
structure Up (d : Dispatch κ) : Prop where
  established : d.running.session.conn.state ≠ .kConnecting
  state_ne : d.running.session.conn.state ≠ .kDisconnected
  untold : .connectionCallback false ∉ d.running.session.trace
  unclosed : .closeCallback ∉ d.running.session.trace
  watching : Watching d.running.session.conn.channel ∨
    d.running.session.conn.channel.index = .kNew ∧
      d.running.session.conn.state = .kDisconnecting ∧ d.handlers = []

/-- The connection is down and not in the kernel's list. -/
structure Gone (d : Dispatch κ) : Prop where
  down : Down d.running.session
  index_ne : d.running.session.conn.channel.index ≠ .kAdded
  last : DownLast d.running.session.trace
  once : d.running.session.trace.count .closeCallback ≤ 1
  closing : .handleClose ∉ d.handlers
  reading : .handleRead ∈ d.handlers → ClosesAndReads d.revents

structure Inv (d : Dispatch κ) : Prop where
  agrees : ∃ chan, Agrees chan d.running.session
  handlers : d.handlers <:+ eventHandlers d.revents
  phase : Up d ∨ Gone d

variable {file} {d : Dispatch κ}

theorem index_of_registered {chan : κ → Channel} {s : Session κ} (h : Agrees chan s)
    (hregistered : Registered s) : s.conn.channel.index = .kAdded := by
  obtain ⟨event, hevent, hptr⟩ := Option.map_eq_some_iff.mp hregistered
  obtain ⟨-, hadded⟩ := h.coherent.owner _ event hevent
  rw [hptr, Function.update_self] at hadded
  exact hadded

theorem step_moves {r r' : Running κ} {step : Step} (hstep : Running.step file r step = some r') :
    Moves r.session r'.session := by
  cases step with
  | send data answer =>
      obtain rfl := Option.some.inj hstep
      exact (Updates.send r.session data answer).keeps.toMoves
  | sendFile fileDescriptor offset count answer =>
      obtain rfl := Option.some.inj hstep
      exact (Updates.sendFile r.session file fileDescriptor offset count answer).keeps.toMoves
  | shutdown =>
      obtain rfl := Option.some.inj hstep
      exact (Updates.shutdown r.session).keeps.toMoves
  | handleRead answer =>
      obtain rfl := Option.some.inj hstep
      exact (Keeps.handleRead r.session answer).toMoves
  | handleWrite answer =>
      obtain rfl := Option.some.inj hstep
      exact (Updates.handleWrite r.session answer).keeps.toMoves
  | handleClose =>
      obtain rfl := Option.some.inj hstep
      exact (Keeps.handleClose r.session).toMoves
  | handleError =>
      obtain rfl := Option.some.inj hstep
      exact .refl _
  | connectDestroyed =>
      obtain rfl := Option.some.inj hstep
      exact connectDestroyed_moves r.session
  | doPendingFunctors =>
      obtain ⟨-, rfl⟩ := Running.step_doPendingFunctors hstep
      exact .of_same rfl rfl rfl rfl rfl
  | runFunctor answer =>
      obtain ⟨task, rest, hfunctors, rfl⟩ := Running.step_runFunctor hstep
      exact (Updates.runTask r.session file answer task).keeps.toMoves

omit [DecidableEq κ] in
theorem handleClose_index {s : Session κ} (h : s.conn.channel.index = .kAdded) :
    s.handleClose.conn.channel.index = .kDeleted := by
  have hnext : EPollPoller.nextIndex { s.conn.channel with events := Channel.kNoneEvent }
      = .kDeleted := if_pos ⟨h, rfl⟩
  simp only [Session.handleClose, Session.emitWhen_conn, Session.disableAll,
    Session.onChannel_conn, Channel.disableAll, Channel.setEvents,
    EPollPoller.updateChannel_channel]
  exact hnext

omit [DecidableEq κ] in
/-- The close of a connection that was up. -/
theorem Up.gone (h : Up d) {r : Running κ} {rest : List Handler} (hdown : Down r.session)
    (hindex : r.session.conn.channel.index ≠ .kAdded) {told closed : Bool}
    (htrace : r.session.trace = d.running.session.trace ++
      (if told then [.connectionCallback false] else []) ++
      if closed then [.closeCallback] else [])
    (hclosing : .handleClose ∉ rest) (hreading : .handleRead ∈ rest → ClosesAndReads d.revents) :
    Gone { d with running := r, handlers := rest } := by
  refine ⟨hdown, hindex, ?_, ?_, hclosing, hreading⟩
  · rw [htrace, List.append_assoc]
    apply FollowedBy.append_of_notMem h.untold
    cases told <;> cases closed <;> simp [FollowedBy]
  · rw [htrace, List.count_append, List.count_append, List.count_eq_zero_of_not_mem h.unclosed]
    cases told <;> cases closed <;> decide

omit [DecidableEq κ] in
theorem Up.staysUp (h : Up d) {r : Running κ} {rest : List Handler}
    (hstays : StaysUp d.running.session r.session)
    (hwatching : Watching d.running.session.conn.channel) :
    Up { d with running := r, handlers := rest } := by
  obtain ⟨more, htrace, hdown, hclose⟩ := hstays.trace_eq
  refine ⟨hstays.state_ne (by decide) h.established, hstays.state_ne (by decide) h.state_ne, ?_, ?_,
    .inl (hstays.watching hwatching)⟩
  · change _ ∉ r.session.trace
    rw [htrace]
    simp [h.untold, hdown]
  · change _ ∉ r.session.trace
    rw [htrace]
    simp [h.unclosed, hclose]

omit [DecidableEq κ] in
/-- A callback of an event on a connection that is up. -/
theorem Up.callback (h : Up d) {handler : Handler} {rest : List Handler}
    (hhandlers : d.handlers = handler :: rest) (hsuffix : d.handlers <:+ eventHandlers d.revents)
    {read : Except Errno (List Byte)} {write : Except Errno Nat} {r : Running κ}
    (hstep : Running.step file d.running (handler.step read write) = some r) :
    Up { d with running := r, handlers := rest } ∨ Gone { d with running := r, handlers := rest } := by
  have hwatching : Watching d.running.session.conn.channel := by
    refine h.watching.resolve_right fun hnew => ?_
    rw [hhandlers] at hnew
    cases hnew.2.2
  have hsorted := (sorted_eventHandlers d.revents).sublist hsuffix.sublist
  have hmem : ∀ other ∈ d.handlers, other ∈ eventHandlers d.revents :=
    fun other hmem => hsuffix.mem hmem
  rw [hhandlers] at hsorted hmem
  have hrest := (List.pairwise_cons.mp hsorted).1
  cases handler with
  | handleClose =>
      obtain rfl := Option.some.inj hstep
      refine .inr (h.gone d.running.session.handleClose_down ?_
        d.running.session.handleClose_trace ?_ ?_)
      · change d.running.session.handleClose.conn.channel.index ≠ _
        rw [handleClose_index hwatching.index_eq]
        decide
      · exact fun hagain => absurd (hrest _ hagain) (by decide)
      · exact fun hread => closesAndReads_of_mem (hmem _ List.mem_cons_self)
          (hmem _ (List.mem_cons_of_mem _ hread))
  | handleError =>
      obtain rfl := Option.some.inj hstep
      exact .inl (h.staysUp (Updates.refl _).staysUp hwatching)
  | handleRead =>
      obtain rfl := Option.some.inj hstep
      by_cases heof : read = .ok []
      · subst heof
        have hclose := d.running.session.handleRead_eof
        refine .inr (h.gone ?_ ?_ ((congrArg Session.trace hclose).trans
          (Session.handleClose_trace _)) ?_ ?_)
        · exact d.running.session.handleRead_eof_quiet.down
        · have hindex : (d.running.session.handleRead (.ok [])).conn.channel.index = .kDeleted := by
            rw [hclose]
            exact handleClose_index hwatching.index_eq
          exact fun hadded => absurd (hindex.symm.trans hadded) (by decide)
        · exact fun hagain => absurd (hrest _ hagain) (by decide)
        · exact fun hagain => absurd (hrest _ hagain) (by decide)
      · exact .inl (h.staysUp (Updates.handleRead _ heof).staysUp hwatching)
  | handleWrite =>
      obtain rfl := Option.some.inj hstep
      exact .inl (h.staysUp (Updates.handleWrite _ _).staysUp hwatching)

omit [DecidableEq κ] in
/-- A callback after the close: only the read branch does anything, and there is nothing to read. -/
theorem Gone.callback (h : Gone d) {handler : Handler} {rest : List Handler}
    (hhandlers : d.handlers = handler :: rest) {read : Except Errno (List Byte)}
    {write : Except Errno Nat} (hok : ReadsNothing d (.callback read write)) {r : Running κ}
    (hstep : Running.step file d.running (handler.step read write) = some r) :
    Gone { d with running := r, handlers := rest } := by
  have hclosed : ClosedWith d.running.session d.running.session :=
    ⟨h.down.state_eq, h.down.idle, rfl, rfl, rfl⟩
  have hrest : ∀ other ∈ rest, other ∈ d.handlers := by
    intro other hmem
    rw [hhandlers]
    exact List.mem_cons_of_mem handler hmem
  have hkept : Gone { d with handlers := rest } :=
    ⟨h.down, h.index_ne, h.last, h.once, fun hmem => h.closing (hrest _ hmem),
      fun hmem => h.reading (hrest _ hmem)⟩
  cases handler with
  | handleClose =>
      refine absurd ?_ h.closing
      rw [hhandlers]
      exact List.mem_cons_self
  | handleError =>
      obtain rfl := Option.some.inj hstep
      exact hkept
  | handleRead =>
      obtain rfl := Option.some.inj hstep
      have hmask : ClosesAndReads d.revents := by
        apply h.reading
        rw [hhandlers]
        exact List.mem_cons_self
      obtain ⟨errno, rfl⟩ : ∃ errno, read = .error errno := by
        cases read with
        | ok ready => exact absurd (by rw [hhandlers]; rfl) (hok hmask)
        | error errno => exact ⟨errno, rfl⟩
      exact ⟨(h.down.handleRead (.error errno)).down, hkept.index_ne, hkept.last, hkept.once,
        hkept.closing, hkept.reading⟩
  | handleWrite =>
      obtain rfl := Option.some.inj hstep
      rw [show d.running.session.handleWrite write = d.running.session from
        hclosed.handleWrite write]
      exact hkept

omit [DecidableEq κ] in
/-- A call that changes nothing once the connection is in `kDisconnecting` and out of the kernel's
list. -/
theorem Up.keeps (h : Up d) {r : Running κ} (hstays : StaysUp d.running.session r.session)
    (hsame : d.running.session.conn.state = .kDisconnecting → r.session.conn = d.running.session.conn) :
    Up { d with running := r } := by
  obtain hwatching | ⟨hindex, hstate, hnone⟩ := h.watching
  · exact h.staysUp hstays hwatching
  · obtain ⟨more, htrace, hdown, hclose⟩ := hstays.trace_eq
    refine ⟨hstays.state_ne (by decide) h.established, hstays.state_ne (by decide) h.state_ne, ?_, ?_,
      .inr ⟨?_, ?_, hnone⟩⟩
    · change _ ∉ r.session.trace
      rw [htrace]
      simp [h.untold, hdown]
    · change _ ∉ r.session.trace
      rw [htrace]
      simp [h.unclosed, hclose]
    · rw [hsame hstate]
      exact hindex
    · rw [hsame hstate]
      exact hstate

omit [DecidableEq κ] in
theorem runTask_conn (s : Session κ) (answer : Except Errno Nat) (task : Task) :
    (Running.runTask file s answer task).conn = s.conn := by
  cases task with
  | sendFileInLoop fileDescriptor offset count =>
      exact s.sendFileInLoop_conn file fileDescriptor offset count answer
  | writeCompleteCallback => rfl
  | highWaterMarkCallback _ => rfl

omit [DecidableEq κ] in
theorem Up.call (h : Up d) {step : Step} (hfree : step.Free d.handlers) {r : Running κ}
    (hstep : Running.step file d.running step = some r) :
    Up { d with running := r } ∨ Gone { d with running := r } := by
  cases step with
  | send data answer =>
      obtain rfl := Option.some.inj hstep
      refine .inl (h.keeps (Updates.send _ data answer).staysUp fun hstate => ?_)
      simp [Session.send, hstate]
  | sendFile fileDescriptor offset count answer =>
      obtain rfl := Option.some.inj hstep
      refine .inl (h.keeps (Updates.sendFile _ file _ _ _ answer).staysUp fun hstate => ?_)
      simp [Session.sendFile, TcpConnection.connected, hstate]
  | shutdown =>
      obtain rfl := Option.some.inj hstep
      refine .inl (h.keeps (Updates.shutdown _).staysUp fun hstate => ?_)
      simp [Session.shutdown, hstate]
  | connectDestroyed =>
      obtain rfl := Option.some.inj hstep
      have hnone : d.handlers = [] := hfree
      have hnew : d.running.session.connectDestroyed.conn.channel.index = .kNew :=
        connectDestroyed_index d.running.session
      by_cases hstate : d.running.session.conn.state = .kConnected
      · have htrace : d.running.session.connectDestroyed.trace = d.running.session.trace ++
            (if d.running.session.conn.connectionCallback then [.connectionCallback false] else []) ++
            if false then [.closeCallback] else [] := by
          simpa using d.running.session.connectDestroyed_trace hstate
        refine .inr (h.gone (d.running.session.connectDestroyed_down hstate) ?_ htrace ?_ ?_)
        · exact fun hadded => absurd (hnew.symm.trans hadded) (by decide)
        · rw [hnone]
          exact List.not_mem_nil
        · intro hmem
          rw [hnone] at hmem
          cases hmem
      · have hremove := d.running.session.connectDestroyed_of_ne hstate
        have hdisconnecting : d.running.session.conn.state = .kDisconnecting := by
          have hestablished := h.established
          have hup := h.state_ne
          revert hestablished hup hstate
          cases d.running.session.conn.state <;> simp
        left
        refine ⟨?_, ?_, ?_, ?_, .inr ⟨hnew, ?_, hnone⟩⟩ <;>
          simp only [hremove, Session.remove, Session.onChannel_conn, Session.onChannel_trace]
        · exact h.established
        · exact h.state_ne
        · exact h.untold
        · exact h.unclosed
        · exact hdisconnecting
  | doPendingFunctors =>
      obtain ⟨-, rfl⟩ := Running.step_doPendingFunctors hstep
      exact .inl (h.keeps (.of_same rfl rfl rfl rfl) fun _ => rfl)
  | runFunctor answer =>
      obtain ⟨task, rest, hfunctors, rfl⟩ := Running.step_runFunctor hstep
      exact .inl (h.keeps (Updates.runTask _ file answer task).staysUp fun _ => runTask_conn _ _ _)
  | _ => exact absurd hfree id

omit [DecidableEq κ] in
theorem Gone.quiet (h : Gone d) {r : Running κ} (hdown : Down r.session)
    (hindex : r.session.conn.channel.index ≠ .kAdded) {more : List Event}
    (htrace : r.session.trace = d.running.session.trace ++ more)
    (hmore : ∀ event ∈ more, event.isCallback = false) : Gone { d with running := r } := by
  refine ⟨hdown, hindex, ?_, ?_, h.closing, h.reading⟩
  · rw [htrace]
    exact h.last.append_quiet hmore
  · have hnone : .closeCallback ∉ more := fun hmem => absurd (hmore _ hmem) (by decide)
    rw [htrace, List.count_append, List.count_eq_zero_of_not_mem hnone]
    exact h.once

omit [DecidableEq κ] in
theorem Gone.call (h : Gone d) {step : Step} (hfree : step.Free d.handlers) {r : Running κ}
    (hstep : Running.step file d.running step = some r) : Gone { d with running := r } := by
  have hclosed : ClosedWith d.running.session d.running.session :=
    ⟨h.down.state_eq, h.down.idle, rfl, rfl, rfl⟩
  cases step with
  | send data answer =>
      obtain rfl := Option.some.inj hstep
      rw [hclosed.send]
      exact h
  | sendFile fileDescriptor offset count answer =>
      obtain rfl := Option.some.inj hstep
      rw [hclosed.sendFile]
      exact h
  | shutdown =>
      obtain rfl := Option.some.inj hstep
      rw [hclosed.shutdown]
      exact h
  | connectDestroyed =>
      obtain rfl := Option.some.inj hstep
      have hnew := connectDestroyed_index d.running.session
      have htrace : d.running.session.connectDestroyed.trace = d.running.session.trace ++ [] := by
        rw [d.running.session.connectDestroyed_of_ne (by rw [h.down.state_eq]; decide),
          List.append_nil]
        rfl
      refine h.quiet h.down.connectDestroyed.down ?_ htrace (by simp)
      exact fun hadded => absurd (hnew.symm.trans hadded) (by decide)
  | doPendingFunctors =>
      have hdown := Running.down_step file h.down hstep
      obtain ⟨-, rfl⟩ := Running.step_doPendingFunctors hstep
      exact h.quiet hdown h.index_ne (List.append_nil _).symm (by simp)
  | runFunctor answer =>
      have hdown := Running.down_step file h.down hstep
      obtain ⟨task, rest, hfunctors, rfl⟩ := Running.step_runFunctor hstep
      cases task with
      | sendFileInLoop fileDescriptor offset count =>
          obtain ⟨events, hsendfile, htrace⟩ :=
            d.running.session.sendFileInLoop_events file fileDescriptor offset count answer
          refine h.quiet hdown ?_ htrace ?_
          · rw [runTask_conn]
            exact h.index_ne
          · intro event hmem
            have hevent := hsendfile event hmem
            cases event <;> first | rfl | cases hevent
      | writeCompleteCallback =>
          exact h.quiet hdown h.index_ne (List.append_nil _).symm (by simp)
      | highWaterMarkCallback _ =>
          exact h.quiet hdown h.index_ne (List.append_nil _).symm (by simp)
  | _ => exact absurd hfree id

/-- One step keeps the phases, where no read branch finds anything after the close branch. -/
theorem Inv.step {d' : Dispatch κ} (h : Inv d) {event : EventStep} (hok : ReadsNothing d event)
    (hstep : d.step file event = some d') : Inv d' := by
  obtain ⟨chan, hagrees⟩ := h.agrees
  cases event with
  | handleEvent revents =>
      obtain ⟨⟨hnone, -, hregistered⟩, rfl⟩ := guarded_eq_some.mp hstep
      have hadded := index_of_registered hagrees hregistered
      refine ⟨⟨chan, hagrees⟩, List.suffix_refl _, .inl ?_⟩
      obtain hup | hgone := h.phase
      · refine ⟨hup.established, hup.state_ne, hup.untold, hup.unclosed, .inl ?_⟩
        refine hup.watching.resolve_right fun hnew => ?_
        exact absurd (hadded.symm.trans hnew.1) (by decide)
      · exact absurd hadded hgone.index_ne
  | callback read write =>
      simp only [Dispatch.step] at hstep
      split at hstep
      · cases hstep
      · rename_i handler rest hhandlers
        obtain ⟨r, hrun, rfl⟩ := Option.map_eq_some_iff.mp hstep
        refine ⟨⟨chan, (step_moves hrun).agrees chan hagrees⟩, ?_, ?_⟩
        · have hsuffix := h.handlers
          rw [hhandlers] at hsuffix
          exact (List.suffix_cons handler rest).trans hsuffix
        · obtain hup | hgone := h.phase
          · exact hup.callback hhandlers h.handlers hrun
          · exact .inr (hgone.callback hhandlers hok hrun)
  | call step =>
      simp only [Dispatch.step] at hstep
      split at hstep
      · rename_i hfree
        obtain ⟨r, hrun, rfl⟩ := Option.map_eq_some_iff.mp hstep
        refine ⟨⟨chan, (step_moves hrun).agrees chan hagrees⟩, h.handlers, ?_⟩
        obtain hup | hgone := h.phase
        · exact hup.call hfree hrun
        · exact .inr (hgone.call hfree hrun)
      · cases hstep

theorem Inv.of_initial (h : Initial d) : Inv d := by
  obtain ⟨chan, self, poller, fd, mark, size, connected, message, complete, high, closing, hagrees,
    rfl⟩ := h
  set s := Running.fresh self poller fd mark size connected message complete high closing
  have hstate : s.connectEstablished.conn.state = .kConnected := s.connectEstablished_spec.1
  have htrace : s.connectEstablished.trace = if connected then [.connectionCallback true] else [] :=
    s.connectEstablished_trace
  refine ⟨⟨chan, (connectEstablished_moves s).agrees chan hagrees⟩, List.nil_suffix, .inl ?_⟩
  refine ⟨?_, ?_, ?_, ?_, .inl (connectEstablished_watching rfl)⟩
  · exact fun heq => absurd (hstate.symm.trans heq) (by decide)
  · exact fun heq => absurd (hstate.symm.trans heq) (by decide)
  · rw [htrace]
    cases connected <;> simp
  · rw [htrace]
    cases connected <;> simp

/-- **DOWN and close are told once, and no message comes after DOWN**, in every run in which a mask
with `EPOLLHUP` and `EPOLLPRI` but not `EPOLLIN` finds nothing to read after its close branch. -/
theorem down_once_and_last (h : (system file).ReachableUnder ReadsNothing d) :
    d.running.session.trace.count (.connectionCallback false) ≤ 1 ∧
      d.running.session.trace.count .closeCallback ≤ 1 ∧
      ∀ before after, d.running.session.trace = before ++ .connectionCallback false :: after →
        .messageCallback ∉ after := by
  have hinv : Inv d := h.invariant (fun _ => Inv.of_initial) fun _ _ _ h => h.step
  have hlast : DownLast d.running.session.trace := by
    obtain hup | hgone := hinv.phase
    · exact FollowedBy.of_notMem hup.untold
    · exact hgone.last
  refine ⟨hlast.count_le fun hself => hself.1 rfl, ?_, ?_⟩
  · obtain hup | hgone := hinv.phase
    · rw [List.count_eq_zero_of_not_mem hup.unclosed]
      exact Nat.zero_le 1
    · exact hgone.once
  · intro before after htrace hmem
    rw [htrace] at hlast
    exact (hlast.forall_after _ hmem).2 rfl

/-! ### A mask of both branches -/

omit [DecidableEq κ] in
/-- Whatever the read branch reads after the close branch, the user hears of the connection again. -/
theorem handleRead_after_handleClose (s : Session κ) (ready : List Byte)
    (hconnection : s.conn.connectionCallback = true) (hmessage : s.conn.messageCallback = true)
    (hclose : s.conn.closeCallback = true) :
    (s.handleClose.handleRead (.ok ready)).trace = s.handleClose.trace ++
      if ready = [] then [.connectionCallback false, .closeCallback] else [.messageCallback] := by
  by_cases heof : ready = []
  · subst heof
    rw [if_pos rfl, Session.handleRead_eof, Session.handleClose_trace]
    simp [Session.handleClose, Session.disableAll, hconnection, hclose]
  · rw [if_neg heof, Session.handleRead_ok _ heof, Session.emitWhen_trace]
    simp [Session.handleClose, Session.disableAll, hmessage]

/-- The connection of `Running.sample`, between two events. -/
def sample : Dispatch Unit := ⟨Running.sample, 0#32, []⟩

theorem initial_sample : Initial sample := by
  refine ⟨fun _ => Channel.new 0, (), EPollPoller.new, 7, 64, 16, true, true, true, true, true, ?_,
    rfl⟩
  refine ⟨EPollPoller.coherent_new fun k => ?_, fun other hne => absurd rfl hne⟩
  simp [Running.fresh, TcpConnection.new, Channel.new]

/-- A hang-up with urgent data, and a socket with nothing to read. -/
theorem down_once_and_last_hangup :
    ∃ d : Dispatch Unit, d.running.session.trace.count (.connectionCallback false) ≤ 1 ∧
      d.running.session.trace =
        [.connectionCallback true, .connectionCallback false, .closeCallback] := by
  have hexec : (system fun _ => []).execUnder ReadsNothing sample
      [.handleEvent (EPOLLHUP ||| EPOLLPRI), .callback (.ok []) (.ok 0),
        .callback (.error EAGAIN) (.ok 0)] = some _ := rfl
  have hreach := System.reachableUnder_of_execUnder initial_sample hexec
  exact ⟨_, (down_once_and_last hreach).1, rfl⟩

/-- A hang-up with urgent data, and a socket that has data, or is at its end. -/
theorem message_after_down :
    (∃ d : Dispatch Unit, (system fun _ => []).Reachable d ∧ d.running.session.trace =
        [.connectionCallback true, .connectionCallback false, .closeCallback, .messageCallback]) ∧
      ∃ d : Dispatch Unit, (system fun _ => []).Reachable d ∧ d.running.session.trace =
        [.connectionCallback true, .connectionCallback false, .closeCallback,
          .connectionCallback false, .closeCallback] := by
  have hdata : (system fun _ => []).exec sample
      [.handleEvent (EPOLLHUP ||| EPOLLPRI), .callback (.ok []) (.ok 0),
        .callback (.ok [1]) (.ok 0)] = some _ := rfl
  have hend : (system fun _ => []).exec sample
      [.handleEvent (EPOLLHUP ||| EPOLLPRI), .callback (.ok []) (.ok 0),
        .callback (.ok []) (.ok 0)] = some _ := rfl
  exact ⟨⟨_, System.reachable_of_exec initial_sample hdata, rfl⟩,
    ⟨_, System.reachable_of_exec initial_sample hend, rfl⟩⟩

end Dispatch

end MuduoCore
