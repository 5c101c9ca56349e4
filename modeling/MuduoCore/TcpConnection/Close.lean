import MuduoCore.TcpConnection.Output

/-!
# What a close leaves behind

`handleClose` does not flush. What an EOF finds in the output buffer stays there: the channel is
disabled, and in `kDisconnected` no function of the connection calls `::write` again.
-/

namespace MuduoCore

variable {κ : Type*}

/-- The connection is closed, with the same output as `s`. -/
structure ClosedWith (s s' : Session κ) : Prop where
  state_eq : s'.conn.state = .kDisconnected
  idle : s'.conn.channel.isWriting = false
  buffer_eq : s'.conn.outputBuffer = s.conn.outputBuffer
  written_eq : written s'.trace = written s.trace
  accepted_eq : accepted s'.trace = accepted s.trace

namespace ClosedWith

variable {s t u : Session κ}

theorem self (h : ClosedWith s t) : ClosedWith t t := ⟨h.state_eq, h.idle, rfl, rfl, rfl⟩

theorem trans (h : ClosedWith s t) (hnext : ClosedWith t u) : ClosedWith s u :=
  ⟨hnext.state_eq, hnext.idle, hnext.buffer_eq.trans h.buffer_eq,
    hnext.written_eq.trans h.written_eq, hnext.accepted_eq.trans h.accepted_eq⟩

theorem of_silent (h : ClosedWith s t) {events : List Event} (hevents : Silent events)
    (htrace : u.trace = t.trace ++ events) (hstate : u.conn.state = t.conn.state)
    (hbuffer : u.conn.outputBuffer = t.conn.outputBuffer)
    (hidle : u.conn.channel.isWriting = t.conn.channel.isWriting) : ClosedWith s u := by
  refine ⟨hstate.trans h.state_eq, hidle.trans h.idle, hbuffer.trans h.buffer_eq, ?_, ?_⟩
  · rw [htrace, written_append, hevents.written_eq, List.append_nil]
    exact h.written_eq
  · rw [htrace, accepted_append, hevents.accepted_eq, List.append_nil]
    exact h.accepted_eq

theorem send (h : ClosedWith s t) (data : List Byte) (answer : Except Errno Nat) :
    t.send data answer = t := by
  simp [Session.send, h.state_eq]

theorem sendFile (h : ClosedWith s t) (file : Nat → List Byte) (fileDescriptor offset count : Nat)
    (answer : Except Errno Nat) : t.sendFile file fileDescriptor offset count answer = t := by
  simp [Session.sendFile, TcpConnection.connected, h.state_eq]

theorem shutdown (h : ClosedWith s t) : t.shutdown = t := by
  simp [Session.shutdown, h.state_eq]

theorem handleWrite (h : ClosedWith s t) (answer : Except Errno Nat) : t.handleWrite answer = t := by
  simp [Session.handleWrite, h.idle]

end ClosedWith

namespace Session

theorem handleClose_closed (s : Session κ) : ClosedWith s s.handleClose := by
  have hevents : ∀ (cond : Bool) (event : Event), event.writtenBytes = [] →
      event.acceptedBytes = [] → written (if cond then [event] else []) = [] ∧
        accepted (if cond then [event] else []) = [] := by
    intro cond event hwritten haccepted
    cases cond <;> simp [written, accepted, hwritten, haccepted]
  have hdown := hevents s.conn.connectionCallback (.connectionCallback false) rfl rfl
  have hremoval := hevents s.conn.closeCallback .closeCallback rfl rfl
  refine ⟨?_, ?_, ?_, ?_, ?_⟩
  · simp [handleClose, disableAll]
  · simp [handleClose, disableAll]
  · simp [handleClose, disableAll]
  · simp [handleClose, disableAll, TcpConnection.connected, hdown.1, hremoval.1]
  · simp [handleClose, disableAll, TcpConnection.connected, hdown.2, hremoval.2]

theorem handleClose_events (s : Session κ) :
    s.handleClose.conn.channel.events = Channel.kNoneEvent := by
  simp [handleClose, disableAll, Channel.disableAll]

theorem handleRead_eof_closed (s : Session κ) : ClosedWith s (s.handleRead (.ok [])) := by
  rw [handleRead_eof]
  have hclosed := handleClose_closed { s with conn := { s.conn with
    inputBuffer := (s.conn.inputBuffer.readFd (.ok [])).1 } }
  exact ⟨hclosed.state_eq, hclosed.idle, hclosed.buffer_eq, hclosed.written_eq,
    hclosed.accepted_eq⟩

theorem remove_isWriting (s : Session κ) :
    s.remove.conn.channel.isWriting = s.conn.channel.isWriting := rfl

theorem connectDestroyed_of_ne (s : Session κ) (hstate : s.conn.state ≠ .kConnected) :
    s.connectDestroyed = s.remove := by
  simp [connectDestroyed, hstate]

theorem connectDestroyed_closed (s : Session κ) (hstate : s.conn.state = .kConnected) :
    ClosedWith s s.connectDestroyed := by
  refine ⟨?_, ?_, ?_, ?_, ?_⟩
  · simp [connectDestroyed, hstate, remove, disableAll]
  · rw [connectDestroyed, if_pos hstate, remove_isWriting]
    simp [disableAll]
  · simp [connectDestroyed, hstate, remove, disableAll]
  · simp only [connectDestroyed, hstate, if_true, remove, disableAll, onChannel_trace,
      emitWhen_trace, written_append]
    split <;> simp [written, Event.writtenBytes]
  · simp only [connectDestroyed, hstate, if_true, remove, disableAll, onChannel_trace,
      emitWhen_trace, accepted_append]
    split <;> simp [accepted, Event.acceptedBytes]

end Session

namespace ClosedWith

variable {s t : Session κ}

theorem handleRead (h : ClosedWith s t) (answer : Except Errno (List Byte)) :
    ClosedWith s (t.handleRead answer) := by
  by_cases heof : answer = .ok []
  · rw [heof]
    exact h.trans (Session.handleRead_eof_closed t)
  · obtain ⟨events, hcallbacks, htrace, -, hconn⟩ := t.handleRead_of_data heof
    exact h.of_silent hcallbacks.silent htrace (by rw [hconn]) (by rw [hconn]) (by rw [hconn])

theorem connectDestroyed (h : ClosedWith s t) : ClosedWith s t.connectDestroyed := by
  rw [t.connectDestroyed_of_ne (by rw [h.state_eq]; decide)]
  exact h.of_silent silent_nil (List.append_nil _).symm rfl rfl t.remove_isWriting

theorem runTask (h : ClosedWith s t) (file : Nat → List Byte) (answer : Except Errno Nat)
    (task : Task) : ClosedWith s (Running.runTask file t answer task) := by
  cases task with
  | sendFileInLoop fileDescriptor offset count =>
      obtain ⟨events, hsilent, htrace⟩ :=
        Session.sendFileInLoop_silent file t fileDescriptor offset count answer
      exact h.of_silent hsilent htrace (by simp [Running.runTask]) (by simp [Running.runTask])
        (by simp [Running.runTask])
  | writeCompleteCallback => exact h
  | highWaterMarkCallback _ => exact h

end ClosedWith

namespace Running

/-- Whatever happens after the close, the output stays what it was. -/
theorem closed_step (file : Nat → List Byte) {s : Session κ} {r r' : Running κ} {step : Step}
    (h : ClosedWith s r.session) (hstep : Running.step file r step = some r') :
    ClosedWith s r'.session := by
  cases step with
  | send data answer =>
      obtain rfl := Option.some.inj hstep
      show ClosedWith s (r.session.send data answer)
      rwa [h.send]
  | sendFile fileDescriptor offset count answer =>
      obtain rfl := Option.some.inj hstep
      show ClosedWith s (r.session.sendFile file fileDescriptor offset count answer)
      rwa [h.sendFile]
  | shutdown =>
      obtain rfl := Option.some.inj hstep
      show ClosedWith s r.session.shutdown
      rwa [h.shutdown]
  | handleRead answer =>
      obtain rfl := Option.some.inj hstep
      exact h.handleRead answer
  | handleWrite answer =>
      obtain rfl := Option.some.inj hstep
      show ClosedWith s (r.session.handleWrite answer)
      rwa [h.handleWrite]
  | handleClose =>
      obtain rfl := Option.some.inj hstep
      exact h.trans (Session.handleClose_closed _)
  | handleError =>
      obtain rfl := Option.some.inj hstep
      exact h
  | connectDestroyed =>
      obtain rfl := Option.some.inj hstep
      exact h.connectDestroyed
  | doPendingFunctors =>
      obtain ⟨-, rfl⟩ := Running.step_doPendingFunctors hstep
      exact ⟨h.state_eq, h.idle, h.buffer_eq, h.written_eq, h.accepted_eq⟩
  | runFunctor answer =>
      obtain ⟨task, rest, -, rfl⟩ := Running.step_runFunctor hstep
      exact h.runTask file answer task

/-- No `EPIPE` or `ECONNRESET` in `sendInLoop`. -/
def WritesSurvive (r : Running κ) : Step → Prop
  | .send _ answer => r.session.conn.state = .kConnected → ¬r.session.SendFaults answer
  | _ => True

def OpenOrClosed (s : Session κ) : Prop := Flow s ∨ ClosedWith s s

theorem openOrClosed_step (file : Nat → List Byte) {r r' : Running κ} {step : Step}
    (h : OpenOrClosed r.session) (hok : WritesSurvive r step)
    (hstep : Running.step file r step = some r') : OpenOrClosed r'.session := by
  rcases h with hflow | hclosed
  · by_cases hopen : KeepsOpen r step
    · exact Or.inl (flow_step file hflow hopen hstep)
    · cases step with
      | send data answer => exact absurd hok hopen
      | handleRead answer =>
          obtain rfl := Option.some.inj hstep
          obtain rfl : answer = .ok [] := not_not.mp hopen
          exact Or.inr r.session.handleRead_eof_closed.self
      | handleClose =>
          obtain rfl := Option.some.inj hstep
          exact Or.inr (Session.handleClose_closed _).self
      | connectDestroyed =>
          obtain rfl := Option.some.inj hstep
          rcases hflow.live with hstate | hstate
          · exact Or.inr (Session.connectDestroyed_closed _ hstate).self
          · left
            show Flow r.session.connectDestroyed
            rw [Session.connectDestroyed_of_ne _ (by rw [hstate]; decide)]
            exact hflow.of_silent silent_nil (List.append_nil _).symm rfl rfl
              (Session.remove_isWriting _)
      | _ => exact absurd trivial hopen
  · exact Or.inr (closed_step file hclosed hstep).self

/-- **A close discards what waits.** At an EOF in an open connection, what was handed to `::write`
and what stays in the output buffer are together what was accepted. All of it was handed over exactly
when the channel was not waiting for `EPOLLOUT`, and no later step writes or drops a byte. -/
theorem close_keeps_unwritten (file : Nat → List Byte) {r r' : Running κ} {steps : List Step}
    (h : (system file).ReachableUnder WritesSurvive r)
    (hlive : r.session.conn.state = .kConnected ∨ r.session.conn.state = .kDisconnecting)
    (hrun : (system file).Run { r with session := r.session.handleRead (.ok []) } steps r') :
    let s := r.session
    let closed := s.handleRead (.ok [])
    closed.conn.state = .kDisconnected ∧ closed.conn.channel.events = Channel.kNoneEvent ∧
      accepted closed.trace = accepted s.trace ∧ written closed.trace = written s.trace ∧
      written closed.trace ++ closed.conn.outputBuffer.content = accepted closed.trace ∧
      (written closed.trace = accepted closed.trace ↔ s.conn.channel.isWriting = false) ∧
      written r'.session.trace = written closed.trace ∧
      r'.session.conn.outputBuffer = closed.conn.outputBuffer := by
  intro s closed
  have hopen : OpenOrClosed s :=
    h.invariant (I := fun r => OpenOrClosed r.session)
      (fun _ hinit => Or.inl (flow_of_established hinit))
      fun _ _ _ hinv hok hstep => openOrClosed_step file hinv hok hstep
  have hflow : Flow s := by
    rcases hopen with hflow | hclosed
    · exact hflow
    · rcases hlive with hstate | hstate <;>
        · have := hclosed.state_eq
          rw [hstate] at this
          cases this
  have hclosed : ClosedWith s closed := s.handleRead_eof_closed
  have hlater : ClosedWith s r'.session :=
    hrun.invariant (I := fun r => ClosedWith s r.session) hclosed fun _ _ _ hinv _ hstep =>
      closed_step file hinv hstep
  have hstream : written closed.trace ++ closed.conn.outputBuffer.content
      = accepted closed.trace := by
    rw [hclosed.written_eq, hclosed.buffer_eq, hclosed.accepted_eq]
    exact hflow.stream
  refine ⟨hclosed.state_eq, ?_, hclosed.accepted_eq, hclosed.written_eq, hstream, ?_, ?_, ?_⟩
  · show (s.handleRead (.ok [])).conn.channel.events = Channel.kNoneEvent
    rw [Session.handleRead_eof]
    exact Session.handleClose_events _
  · rw [← hstream, List.self_eq_append_right, hclosed.buffer_eq, ← Bool.not_eq_true, hflow.writing,
      not_not]
  · rw [hlater.written_eq, hclosed.written_eq]
  · rw [hlater.buffer_eq, hclosed.buffer_eq]

/-- Nothing waits when the EOF comes, and a `send` after it is refused. -/
theorem close_keeps_unwritten_drained :
    ∃ r : Running Unit, r.session.conn.state = .kDisconnected ∧
      written r.session.trace = [1, 2, 3] ∧ r.session.conn.outputBuffer.content = [] := by
  have hrun : (system fun _ => []).RunUnder WritesSurvive sample [.send [1, 2, 3] (.ok 3)] _ :=
    .single (fun _ => Session.not_sendFaults_ok _ _) rfl
  have hafter := close_keeps_unwritten (fun _ => []) ⟨sample, _, established_sample, hrun⟩
    (Or.inl rfl) (.single (a := .send [4] (.ok 1)) trivial rfl)
  obtain ⟨-, -, -, hwritten, -, -, hlater, hbuffer⟩ := hafter
  refine ⟨_, rfl, hlater.trans hwritten, ?_⟩
  rw [hbuffer]
  rfl

/-- A peer that half-closes while two bytes wait for it, in the middle of a `shutdown`. -/
theorem eof_discards_output :
    ∃ r : Running Unit,
      (system fun _ => []).RunUnder WritesSurvive sample
        [.send [1, 2, 3] (.ok 1), .shutdown] r ∧
      r.session.conn.state = .kDisconnecting ∧
      accepted (r.session.handleRead (.ok [])).trace = [1, 2, 3] ∧
      written (r.session.handleRead (.ok [])).trace = [1] ∧
      (r.session.handleRead (.ok [])).conn.outputBuffer.content = [2, 3] :=
  ⟨_, .cons (fun _ => Session.not_sendFaults_ok _ _) rfl (.single trivial rfl), rfl, rfl, rfl, rfl⟩

end Running

end MuduoCore
