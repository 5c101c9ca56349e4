import MuduoCore.TcpConnection.SendFile
import MuduoCore.TcpConnection.StateOrder

/-!
# After kDisconnected

A connection goes down in `handleClose`, or in `connectDestroyed` when it is still connected. Either
disables the channel and tells the user, and afterwards the member functions of the connection leave
its channel alone. `sendFileInLoop` tests for `kDisconnecting` where `sendInLoop` tests for
`kDisconnected`.
-/

namespace MuduoCore

variable {κ : Type*}

/-- A call of `::write` or `::sendfile`. -/
def Event.isSocketCall : Event → Bool
  | write _ | writeError _ | sendfile _ | sendfileError _ => true
  | _ => false

/-- The connection is down, its channel has no interest left, and the user knows. -/
structure Down (s : Session κ) : Prop where
  state_eq : s.conn.state = .kDisconnected
  events_eq : s.conn.channel.events = Channel.kNoneEvent
  told : s.conn.connectionCallback = true → .connectionCallback false ∈ s.trace

namespace Session

variable (s : Session κ)

theorem handleClose_trace : s.handleClose.trace = s.trace ++
    (if s.conn.connectionCallback then [.connectionCallback false] else []) ++
    if s.conn.closeCallback then [.closeCallback] else [] := by
  simp [handleClose, disableAll, TcpConnection.connected]

theorem handleClose_pending : s.handleClose.pendingFunctors = s.pendingFunctors := by
  simp [handleClose, disableAll]

theorem handleClose_down : Down s.handleClose := by
  refine ⟨s.handleClose_closed.state_eq, s.handleClose_events, ?_⟩
  intro hcallback
  have hset : s.conn.connectionCallback = true := by
    simpa [handleClose, disableAll] using hcallback
  rw [handleClose_trace, if_pos hset]
  simp

theorem connectDestroyed_trace (hstate : s.conn.state = .kConnected) :
    s.connectDestroyed.trace = s.trace ++
      if s.conn.connectionCallback then [.connectionCallback false] else [] := by
  simp [connectDestroyed, hstate, remove, disableAll, TcpConnection.connected]

theorem connectDestroyed_pending : s.connectDestroyed.pendingFunctors = s.pendingFunctors := by
  unfold connectDestroyed
  dsimp only
  split <;> simp [remove, disableAll]

theorem remove_events : s.remove.conn.channel.events = s.conn.channel.events := rfl

theorem connectDestroyed_down (hstate : s.conn.state = .kConnected) : Down s.connectDestroyed := by
  refine ⟨(s.connectDestroyed_closed hstate).state_eq, ?_, ?_⟩
  · rw [connectDestroyed, if_pos hstate, remove_events]
    simp [disableAll, Channel.disableAll]
  · intro hcallback
    have hset : s.conn.connectionCallback = true := by
      simpa [connectDestroyed, hstate, remove, disableAll] using hcallback
    rw [connectDestroyed_trace s hstate, if_pos hset]
    simp

end Session

/-- `s'` is down as well: only callbacks were called, and the output and the queue of the loop are as
they were. -/
structure Quiet (s s' : Session κ) : Prop where
  down : Down s'
  callback_eq : s'.conn.connectionCallback = s.conn.connectionCallback
  buffer_eq : s'.conn.outputBuffer = s.conn.outputBuffer
  pending_eq : s'.pendingFunctors = s.pendingFunctors
  trace_eq : ∃ more, s'.trace = s.trace ++ more ∧ ∀ event ∈ more, event.isSocketCall = false

theorem not_socketCall_of_callbacks {events : List Event} (h : Callbacks events) :
    ∀ event ∈ events, event.isSocketCall = false := by
  intro event hmem
  have hcallback := h event hmem
  cases event <;> first | rfl | cases hcallback

theorem Session.handleClose_quiet (s : Session κ) : Quiet s s.handleClose := by
  have hdown : Callbacks (if s.conn.connectionCallback then [.connectionCallback false] else []) :=
    callbacks_ite _ rfl
  have hremoval : Callbacks (if s.conn.closeCallback then [.closeCallback] else []) :=
    callbacks_ite _ rfl
  refine ⟨s.handleClose_down, by simp [handleClose, disableAll], s.handleClose_closed.buffer_eq,
    s.handleClose_pending, _, (s.handleClose_trace).trans (List.append_assoc ..), ?_⟩
  intro event hmem
  rcases List.mem_append.mp hmem with hmem | hmem
  · exact not_socketCall_of_callbacks hdown event hmem
  · exact not_socketCall_of_callbacks hremoval event hmem

theorem Session.connectDestroyed_quiet (s : Session κ) (hstate : s.conn.state = .kConnected) :
    Quiet s s.connectDestroyed := by
  have hdown : Callbacks (if s.conn.connectionCallback then [.connectionCallback false] else []) :=
    callbacks_ite _ rfl
  exact ⟨s.connectDestroyed_down hstate, by simp [connectDestroyed, hstate, remove, disableAll],
    (s.connectDestroyed_closed hstate).buffer_eq, s.connectDestroyed_pending, _,
    s.connectDestroyed_trace hstate,
    not_socketCall_of_callbacks hdown⟩

theorem Session.handleRead_eof_quiet (s : Session κ) : Quiet s (s.handleRead (.ok [])) := by
  rw [handleRead_eof]
  have hquiet := Session.handleClose_quiet { s with conn := { s.conn with
    inputBuffer := (s.conn.inputBuffer.readFd (.ok [])).1 } }
  exact ⟨hquiet.down, hquiet.callback_eq, hquiet.buffer_eq, hquiet.pending_eq, hquiet.trace_eq⟩

namespace Down

variable {s : Session κ}

theorem quiet (h : Down s) : Quiet s s :=
  ⟨h, rfl, rfl, rfl, [], (List.append_nil _).symm, fun _ hmem => absurd hmem List.not_mem_nil⟩

theorem idle (h : Down s) : s.conn.channel.isWriting = false := by
  rw [Channel.isWriting, h.events_eq]
  decide

theorem handleRead (h : Down s) (answer : Except Errno (List Byte)) :
    Quiet s (s.handleRead answer) := by
  by_cases heof : answer = .ok []
  · rw [heof]
    exact s.handleRead_eof_quiet
  · obtain ⟨events, hcallbacks, htrace, hpending, hconn⟩ := s.handleRead_of_data heof
    refine ⟨⟨?_, ?_, ?_⟩, ?_, ?_, hpending, events, htrace, not_socketCall_of_callbacks hcallbacks⟩
    · rw [hconn]
      exact h.state_eq
    · rw [hconn]
      exact h.events_eq
    · rw [hconn, htrace]
      exact fun hcallback => List.mem_append_left _ (h.told hcallback)
    · rw [hconn]
    · rw [hconn]

theorem connectDestroyed (h : Down s) : Quiet s s.connectDestroyed := by
  rw [s.connectDestroyed_of_ne (by rw [h.state_eq]; decide)]
  exact ⟨⟨h.state_eq, h.events_eq, h.told⟩, rfl, rfl, rfl, [], (List.append_nil _).symm,
    fun _ hmem => absurd hmem List.not_mem_nil⟩

/-- `sendFileInLoop` leaves the connection down, whatever it does to the socket. -/
theorem sendFileInLoop (h : Down s) (file : Nat → List Byte) (fileDescriptor offset count : Nat)
    (answer : Except Errno Nat) :
    Down (s.sendFileInLoop file fileDescriptor offset count answer) := by
  obtain ⟨events, -, htrace⟩ :=
    Session.sendFileInLoop_silent file s fileDescriptor offset count answer
  refine ⟨?_, ?_, ?_⟩ <;> rw [Session.sendFileInLoop_conn]
  · exact h.state_eq
  · exact h.events_eq
  · rw [htrace]
    exact fun hcallback => List.mem_append_left _ (h.told hcallback)

end Down

/-- Bytes of a file wait until the output buffer is empty. -/
theorem Session.sendFileInLoop_behind_text (file : Nat → List Byte) (s : Session κ)
    (fileDescriptor offset count : Nat) (answer : Except Errno Nat)
    (hcontent : s.conn.outputBuffer.content ≠ []) :
    (s.sendFileInLoop file fileDescriptor offset count answer).conn = s.conn ∧
      (s.sendFileInLoop file fileDescriptor offset count answer).trace = s.trace := by
  have hbusy : s.mayWriteDirectly ≠ true := fun hdirect =>
    hcontent (s.mayWriteDirectly_iff.mp hdirect).2
  refine ⟨s.sendFileInLoop_conn file .., ?_⟩
  unfold sendFileInLoop
  rw [if_neg hbusy]
  split
  · rfl
  · exact s.queueWhen_trace _ _

namespace Running

variable (file : Nat → List Byte) {r r' : Running κ} {step : Step}

/-- A step after `kDisconnected` is quiet, unless it runs a functor. -/
theorem down_step_cases (h : Down r.session) (hstep : Running.step file r step = some r') :
    Quiet r.session r'.session ∧ r'.functors = r.functors ∨
      r'.session = { r.session with pendingFunctors := [] } ∧ r.functors = [] ∧
        r'.functors = r.session.pendingFunctors ∨
      ∃ task answer, r.functors = task :: r'.functors ∧
        r'.session = runTask file r.session answer task := by
  have hclosed : ClosedWith r.session r.session := ⟨h.state_eq, h.idle, rfl, rfl, rfl⟩
  cases step with
  | send data answer =>
      obtain rfl := Option.some.inj hstep
      rw [hclosed.send]
      exact .inl ⟨h.quiet, rfl⟩
  | sendFile fileDescriptor offset count answer =>
      obtain rfl := Option.some.inj hstep
      rw [hclosed.sendFile]
      exact .inl ⟨h.quiet, rfl⟩
  | shutdown =>
      obtain rfl := Option.some.inj hstep
      rw [hclosed.shutdown]
      exact .inl ⟨h.quiet, rfl⟩
  | handleRead answer =>
      obtain rfl := Option.some.inj hstep
      exact .inl ⟨h.handleRead answer, rfl⟩
  | handleWrite answer =>
      obtain rfl := Option.some.inj hstep
      rw [hclosed.handleWrite]
      exact .inl ⟨h.quiet, rfl⟩
  | handleClose =>
      obtain rfl := Option.some.inj hstep
      exact .inl ⟨r.session.handleClose_quiet, rfl⟩
  | handleError =>
      obtain rfl := Option.some.inj hstep
      exact .inl ⟨h.quiet, rfl⟩
  | connectDestroyed =>
      obtain rfl := Option.some.inj hstep
      exact .inl ⟨h.connectDestroyed, rfl⟩
  | doPendingFunctors =>
      obtain ⟨hempty, rfl⟩ := Running.step_doPendingFunctors hstep
      exact .inr (.inl ⟨rfl, hempty, rfl⟩)
  | runFunctor answer =>
      obtain ⟨task, rest, hfunctors, rfl⟩ := Running.step_runFunctor hstep
      exact .inr (.inr ⟨task, answer, hfunctors, rfl⟩)

theorem down_step (h : Down r.session) (hstep : Running.step file r step = some r') :
    Down r'.session := by
  rcases down_step_cases file h hstep with ⟨hquiet, -⟩ | ⟨heq, -, -⟩ | ⟨task, answer, -, heq⟩
  · exact hquiet.down
  · rw [heq]
    exact ⟨h.state_eq, h.events_eq, h.told⟩
  · rw [heq]
    cases task with
    | sendFileInLoop fileDescriptor offset count =>
        exact h.sendFileInLoop file fileDescriptor offset count answer
    | writeCompleteCallback => exact h
    | highWaterMarkCallback _ => exact h

/-- The step that takes a connection down is quiet as well. -/
theorem closing_step (hstep : Running.step file r step = some r')
    (hopen : r.session.conn.state ≠ .kDisconnected)
    (hclosed : r'.session.conn.state = .kDisconnected) :
    Quiet r.session r'.session ∧ r'.functors = r.functors := by
  have hafter := step_state file hstep
  rw [hclosed] at hafter
  cases step with
  | shutdown =>
      rw [Step.nextState] at hafter
      split at hafter
      · cases hafter
      · exact absurd hafter.symm hopen
  | connectDestroyed =>
      rw [Step.nextState] at hafter
      split at hafter
      · rename_i hstate
        obtain rfl := Option.some.inj hstep
        exact ⟨r.session.connectDestroyed_quiet hstate, rfl⟩
      · exact absurd hafter.symm hopen
  | handleRead answer =>
      by_cases heof : answer = .ok []
      · subst heof
        obtain rfl := Option.some.inj hstep
        exact ⟨r.session.handleRead_eof_quiet, rfl⟩
      · rw [Step.nextState_handleRead heof] at hafter
        exact absurd hafter.symm hopen
  | handleClose =>
      obtain rfl := Option.some.inj hstep
      exact ⟨r.session.handleClose_quiet, rfl⟩
  | _ => exact absurd hafter.symm hopen

/-! ### The end of a connection -/

theorem nextState_ne_kConnecting {state : StateE} (h : state ≠ .kConnecting) (step : Step) :
    step.nextState state ≠ .kConnecting := by
  unfold Step.nextState
  split <;> (try split) <;> first | exact h | decide

/-- In `kDisconnected` the channel has no interest and the user knows, whatever led there. -/
theorem down_of_reachable (h : (system file).Reachable r) :
    r.session.conn.state ≠ .kConnecting ∧
      (r.session.conn.state = .kDisconnected → Down r.session) := by
  refine h.invariant (I := fun r => r.session.conn.state ≠ .kConnecting ∧
    (r.session.conn.state = .kDisconnected → Down r.session)) ?_ ?_
  · intro r hinit
    have hstate : r.session.conn.state = .kConnected := by
      obtain ⟨self, poller, fd, mark, size, _, _, _, _, _, hsession, -⟩ := hinit
      rw [hsession]
      exact (Session.connectEstablished_spec _).1
    rw [hstate]
    exact ⟨by decide, fun hdown => absurd hdown (by decide)⟩
  · rintro r step r' ⟨hne, hdown⟩ - hstep
    have hafter := step_state file hstep
    refine ⟨hafter ▸ nextState_ne_kConnecting hne step, fun hclosed => ?_⟩
    by_cases hopen : r.session.conn.state = .kDisconnected
    · exact down_step file (hdown hopen) hstep
    · exact (closing_step file hstep hopen hclosed).1.down

/-- **The last step of a connection** tells the user that it went down and leaves the channel without
interest, exactly when it does not meet the connection in `kDisconnecting`. -/
theorem connectDestroyed_tells_iff (h : (system file).Reachable r) :
    let gone := r.session.connectDestroyed
    (r.session.conn.connectionCallback = true → .connectionCallback false ∈ gone.trace) ∧
        gone.conn.state = .kDisconnected ∧ gone.conn.channel.events = Channel.kNoneEvent ↔
      r.session.conn.state ≠ .kDisconnecting := by
  intro gone
  obtain ⟨hne, hdown⟩ := down_of_reachable file h
  constructor
  · rintro ⟨-, hgone, -⟩ hstate
    rw [show gone = r.session.remove from
      r.session.connectDestroyed_of_ne (by rw [hstate]; decide)] at hgone
    exact absurd (hstate.symm.trans hgone) (by decide)
  · intro hstate
    have hquiet : Quiet r.session gone := by
      by_cases hconnected : r.session.conn.state = .kConnected
      · exact r.session.connectDestroyed_quiet hconnected
      · apply (hdown ?_).connectDestroyed
        revert hne hstate hconnected
        cases r.session.conn.state <;> simp
    refine ⟨fun hcallback => hquiet.down.told ?_, hquiet.down.state_eq, hquiet.down.events_eq⟩
    rw [hquiet.callback_eq]
    exact hcallback

/-- The server goes away while the connection is connected. -/
theorem connectDestroyed_tells_iff_connected :
    .connectionCallback false ∈ sample.session.connectDestroyed.trace ∧
      sample.session.connectDestroyed.conn.state = .kDisconnected := by
  have hreach : (system fun _ => []).Reachable sample := ⟨sample, _, established_sample, .nil _⟩
  obtain ⟨htold, hstate, -⟩ := (connectDestroyed_tells_iff (fun _ => []) hreach).mpr (by decide)
  exact ⟨htold rfl, hstate⟩

/-- The server goes away after a `shutdown`, before the peer has closed. -/
theorem connectDestroyed_keeps_silent :
    ∃ r : Running Unit, (system fun _ => []).Reachable r ∧
      r.session.connectDestroyed.conn.connectionCallback = true ∧
      r.session.connectDestroyed.trace = [.connectionCallback true, .shutdownWrite] ∧
      r.session.connectDestroyed.conn.state = .kDisconnecting ∧
      r.session.connectDestroyed.conn.channel.events ≠ Channel.kNoneEvent :=
  ⟨_, ⟨sample, _, established_sample, .single trivial rfl (a := .shutdown)⟩, rfl, rfl, rfl,
    by decide⟩

/-! ### The socket of a connection that is down -/

/-- No `sendFileInLoop` waits for the loop, or text waits before it that is never written. -/
def NoFileToSend (r : Running κ) : Prop :=
  (∀ task ∈ r.tasks, task.sendsFile = false) ∨ r.session.conn.outputBuffer.content ≠ []

theorem noFileToSend_step (h : Down r.session) (hnone : r.NoFileToSend)
    (hstep : Running.step file r step = some r') :
    r'.NoFileToSend ∧ ∃ more, r'.session.trace = r.session.trace ++ more ∧
      ∀ event ∈ more, event.isSocketCall = false := by
  rcases down_step_cases file h hstep with
    ⟨hquiet, hfunctors⟩ | ⟨heq, hempty, hfunctors⟩ | ⟨task, answer, hfunctors, heq⟩
  · refine ⟨?_, hquiet.trace_eq⟩
    rw [NoFileToSend, tasks, hfunctors, hquiet.pending_eq, hquiet.buffer_eq]
    exact hnone
  · have htasks : r'.tasks = r.tasks := by
      rw [tasks, tasks, heq, hempty, hfunctors, List.append_nil, List.nil_append]
    rw [NoFileToSend, htasks, heq]
    exact ⟨hnone, [], (List.append_nil _).symm, fun _ hmem => absurd hmem List.not_mem_nil⟩
  · have hkept : r'.session = r.session → r'.NoFileToSend := by
      intro hsame
      refine hnone.imp ?_ (by rw [hsame]; exact id)
      intro hfiles other hmem
      apply hfiles other
      rw [tasks, hsame] at hmem
      rw [tasks, hfunctors]
      exact List.mem_cons_of_mem task hmem
    have hquiet : r'.session = r.session → r'.NoFileToSend ∧
        ∃ more, r'.session.trace = r.session.trace ++ more ∧
          ∀ event ∈ more, event.isSocketCall = false := by
      intro hsame
      rw [hsame]
      exact ⟨hkept hsame, [], (List.append_nil _).symm, fun _ hmem => absurd hmem List.not_mem_nil⟩
    cases task with
    | sendFileInLoop fileDescriptor offset count =>
        have hcontent : r.session.conn.outputBuffer.content ≠ [] := by
          refine hnone.resolve_left fun hfiles => ?_
          have := hfiles (.sendFileInLoop fileDescriptor offset count) (by
            rw [tasks, hfunctors]
            exact List.mem_cons_self)
          cases this
        obtain ⟨hconn, htrace⟩ := r.session.sendFileInLoop_behind_text file fileDescriptor offset
          count answer hcontent
        rw [show r'.session = r.session.sendFileInLoop file fileDescriptor offset count answer from
          heq]
        refine ⟨.inr ?_, [], ?_, fun _ hmem => absurd hmem List.not_mem_nil⟩
        · rw [heq]
          exact hconn ▸ hcontent
        · rw [htrace, List.append_nil]
    | writeCompleteCallback => exact hquiet heq
    | highWaterMarkCallback _ => exact hquiet heq

/-- The functors before the first `sendFileInLoop` do nothing to the connection. -/
theorem run_to_sendFile (h : Down r.session) (hbuffer : r.session.conn.outputBuffer.content = [])
    (hfile : ∃ task ∈ r.functors, task.sendsFile = true) :
    ∃ steps u, (system file).Run r steps u ∧
      ∃ event more, u.session.trace = r.session.trace ++ event :: more ∧
        event.isSocketCall = true := by
  obtain ⟨session, functors⟩ := r
  induction functors with
  | nil =>
      obtain ⟨task, hmem, -⟩ := hfile
      cases hmem
  | cons task rest ih =>
      have hstep : (system file).step ⟨session, task :: rest⟩ (.runFunctor (.ok 0))
          = some ⟨runTask file session (.ok 0) task, rest⟩ := rfl
      by_cases hsends : task.sendsFile = true
      · cases task with
        | sendFileInLoop fileDescriptor offset count =>
            refine ⟨_, _, .single trivial hstep, .sendfile [], [], ?_, rfl⟩
            have hdirect : session.mayWriteDirectly = true :=
              session.mayWriteDirectly_iff.mpr ⟨h.idle, hbuffer⟩
            have hstate : session.conn.state ≠ .kDisconnecting := by
              rw [h.state_eq]
              decide
            simp [runTask, Session.sendFileInLoop, hstate, hdirect]
        | writeCompleteCallback => cases hsends
        | highWaterMarkCallback _ => cases hsends
      · have hsame : runTask file session (.ok 0) task = session := by
          cases task with
          | sendFileInLoop _ _ _ => exact absurd rfl hsends
          | writeCompleteCallback => rfl
          | highWaterMarkCallback _ => rfl
        rw [hsame] at hstep
        have hrest : ∃ task ∈ rest, task.sendsFile = true := by
          obtain ⟨other, hmem, hother⟩ := hfile
          rcases List.mem_cons.mp hmem with rfl | hmem
          · exact absurd hother hsends
          · exact ⟨other, hmem, hother⟩
        obtain ⟨steps, u, hrun, hcall⟩ := ih h hbuffer hrest
        exact ⟨_, u, .cons trivial hstep hrun, hcall⟩

/-- A batch without `sendFileInLoop` can be run to its end, and the next one swapped in. -/
theorem run_to_next_batch (hnone : ∀ task ∈ r.functors, task.sendsFile = false) :
    ∃ steps, (system file).Run r steps
      ⟨{ r.session with pendingFunctors := [] }, r.session.pendingFunctors⟩ := by
  obtain ⟨session, functors⟩ := r
  induction functors with
  | nil => exact ⟨_, .single trivial (a := .doPendingFunctors) rfl⟩
  | cons task rest ih =>
      have hsame : runTask file session (.ok 0) task = session := by
        cases task with
        | sendFileInLoop _ _ _ => cases hnone _ List.mem_cons_self
        | writeCompleteCallback => rfl
        | highWaterMarkCallback _ => rfl
      have hstep : (system file).step ⟨session, task :: rest⟩ (.runFunctor (.ok 0))
          = some ⟨session, rest⟩ := congrArg (fun s => some (Running.mk s rest)) hsame
      obtain ⟨steps, hrun⟩ := ih fun other hmem => hnone other (List.mem_cons_of_mem task hmem)
      exact ⟨_, .cons trivial hstep hrun⟩

/-- **Nothing is sent on a disconnected connection**, and its channel gets no interest back, exactly
when no `sendFileInLoop` is queued at the close, or text waits before it. -/
theorem disconnected_socket_idle_iff (hstep : Running.step file r step = some r')
    (hopen : r.session.conn.state ≠ .kDisconnected)
    (hclosed : r'.session.conn.state = .kDisconnected) :
    (∀ steps u, (system file).Run r' steps u →
        u.session.conn.channel.events = Channel.kNoneEvent ∧
          ∃ more, u.session.trace = r'.session.trace ++ more ∧
            ∀ event ∈ more, event.isSocketCall = false) ↔
      r.NoFileToSend := by
  obtain ⟨hquiet, hfunctors⟩ := closing_step file hstep hopen hclosed
  have htasks : r'.tasks = r.tasks := by
    rw [tasks, tasks, hfunctors, hquiet.pending_eq]
  have hsame : r'.NoFileToSend ↔ r.NoFileToSend := by
    rw [NoFileToSend, NoFileToSend, htasks, hquiet.buffer_eq]
  rw [← hsame]
  constructor
  · intro hidle
    by_contra hsends
    obtain ⟨hfiles, hbuffer⟩ := not_or.mp hsends
    have hcall : ∃ steps u, (system file).Run r' steps u ∧
        ∃ event more, u.session.trace = r'.session.trace ++ event :: more ∧
          event.isSocketCall = true := by
      by_cases hbatch : ∃ task ∈ r'.functors, task.sendsFile = true
      · exact run_to_sendFile file hquiet.down (not_not.mp hbuffer) hbatch
      · have hnone : ∀ task ∈ r'.functors, task.sendsFile = false := by
          simpa using hbatch
        obtain ⟨steps, hrun⟩ := run_to_next_batch file hnone
        have hpending : ∃ task ∈ r'.session.pendingFunctors, task.sendsFile = true := by
          push Not at hfiles
          obtain ⟨task, hmem, hsends⟩ := hfiles
          rcases List.mem_append.mp hmem with hmem | hmem
          · exact absurd (hnone task hmem) hsends
          · exact ⟨task, hmem, by simpa using hsends⟩
        obtain ⟨more, u, hmore, hcall⟩ := run_to_sendFile file
          (r := ⟨{ r'.session with pendingFunctors := [] }, r'.session.pendingFunctors⟩)
          ⟨hquiet.down.state_eq, hquiet.down.events_eq, hquiet.down.told⟩ (not_not.mp hbuffer)
          hpending
        exact ⟨_, u, hrun.append hmore, hcall⟩
    obtain ⟨steps, u, hrun, event, more, htrace, hevent⟩ := hcall
    obtain ⟨-, quiet, hsilent, hnone⟩ := hidle steps u hrun
    rw [htrace] at hsilent
    obtain rfl := List.append_cancel_left hsilent
    exact absurd (hevent.symm.trans (hnone event List.mem_cons_self)) (by decide)
  · intro hnone steps u hrun
    have hlater : Down u.session ∧ u.NoFileToSend ∧
        ∃ more, u.session.trace = r'.session.trace ++ more ∧
          ∀ event ∈ more, event.isSocketCall = false := by
      refine hrun.invariant (I := fun u => Down u.session ∧ u.NoFileToSend ∧
        ∃ more, u.session.trace = r'.session.trace ++ more ∧
          ∀ event ∈ more, event.isSocketCall = false) ?_ ?_
      · exact ⟨hquiet.down, hnone, [], (List.append_nil _).symm,
          fun _ hmem => absurd hmem List.not_mem_nil⟩
      · rintro t next v ⟨hdown, hnone, more, htrace, hsilent⟩ - hnext
        obtain ⟨hafter, added, hadded, hquiet⟩ := noFileToSend_step file hdown hnone hnext
        refine ⟨down_step file hdown hnext, hafter, more ++ added, ?_, ?_⟩
        · rw [hadded, htrace, List.append_assoc]
        · intro event hmem
          rcases List.mem_append.mp hmem with hmem | hmem
          · exact hsilent event hmem
          · exact hquiet event hmem
    exact ⟨hlater.1.events_eq, hlater.2.2⟩

/-- A file that was sent completely, text that the socket does not take, and the close. -/
theorem disconnected_socket_idle_iff_sent :
    ∃ r r' : Running Unit,
      (system fun _ => [5, 6]).exec sample [.sendFile 3 0 2 (.ok 2), .send [1] (.ok 0)] = some r ∧
      Running.step (fun _ => [5, 6]) r .handleClose = some r' ∧
      ∀ steps u, (system fun _ => [5, 6]).Run r' steps u →
        u.session.conn.channel.events = Channel.kNoneEvent ∧
          ∃ more, u.session.trace = r'.session.trace ++ more ∧
            ∀ event ∈ more, event.isSocketCall = false := by
  obtain ⟨r, r', hexec, hstep, hopen, hclosed, hcontent⟩ :
      ∃ r r' : Running Unit,
        (system fun _ => [5, 6]).exec sample [.sendFile 3 0 2 (.ok 2), .send [1] (.ok 0)] = some r ∧
        Running.step (fun _ => [5, 6]) r .handleClose = some r' ∧
        r.session.conn.state ≠ .kDisconnected ∧ r'.session.conn.state = .kDisconnected ∧
        r.session.conn.outputBuffer.content ≠ [] :=
    ⟨_, _, rfl, rfl, by decide, rfl, by decide⟩
  exact ⟨r, r', hexec, hstep,
    (disconnected_socket_idle_iff _ hstep hopen hclosed).mpr (.inr hcontent)⟩

/-- A file of which the socket took a part, the close, and the functor with the rest. -/
theorem sendfile_after_close :
    ∃ r r' u : Running Unit,
      (system fun _ => [5, 6]).exec sample [.sendFile 3 0 2 (.ok 1)] = some r ∧
      Running.step (fun _ => [5, 6]) r .handleClose = some r' ∧
      (system fun _ => [5, 6]).exec r' [.doPendingFunctors, .runFunctor (.ok 1)] = some u ∧
      r'.session.conn.state = .kDisconnected ∧
      u.session.trace = r'.session.trace ++ [.sendfile [6]] :=
  ⟨_, _, _, rfl, rfl, rfl, rfl, rfl⟩

end Running

end MuduoCore
