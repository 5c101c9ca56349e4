import MuduoCore.TcpConnection.Close
import MuduoCore.TcpConnection.Events

/-!
# EchoServer

`src/main.cpp`: `onMessage` takes everything out of the input buffer and sends it back. A byte of the
stream passes `readFd`, the string of `retrieveAllAsString`, and then either `::write` or the output
buffer.
-/

namespace MuduoCore

variable {κ : Type*}

/-- `EchoServer::onMessage`. Its log line does nothing to the connection. -/
def Session.onMessage (s : Session κ) (answer : Except Errno Nat) : Session κ :=
  let msg := s.conn.inputBuffer.retrieveAllAsString
  ({ s with conn := { s.conn with inputBuffer := msg.2 } } : Session κ).send msg.1 answer

/-- A connection of the echo server, and the bytes that `::readv` has given it. -/
structure Echo (κ : Type*) where
  dispatch : Dispatch κ
  received : List Byte

/-- What the loop and the server call themselves. `onMessage` makes the only calls of the user. -/
def Step.ofServer : Step → Bool
  | .connectDestroyed | .doPendingFunctors | .runFunctor _ => true
  | _ => false

namespace Echo

variable [DecidableEq κ] (file : Nat → List Byte)

/-- The bytes that the next callback takes from the socket. -/
def taken (d : Dispatch κ) (read : Except Errno (List Byte)) : List Byte :=
  match d.handlers.head?, read with
  | some .handleRead, .ok ready => ready.take d.running.session.conn.inputBuffer.raw.offered
  | _, _ => []

/-- The step from `d` to `d'`, with `onMessage` in the place of `messageCallback_`. -/
def withOnMessage (d d' : Dispatch κ) (write : Except Errno Nat) : Dispatch κ :=
  if .messageCallback ∈ d'.running.session.trace.drop d.running.session.trace.length then
    { d' with running := { d'.running with session := d'.running.session.onMessage write } }
  else d'

def step (e : Echo κ) : EventStep → Option (Echo κ)
  | .handleEvent revents =>
      (e.dispatch.step file (.handleEvent revents)).map fun d => { e with dispatch := d }
  | .callback read write =>
      (e.dispatch.step file (.callback read write)).map fun d =>
        { dispatch := withOnMessage e.dispatch d write
          received := e.received ++ taken e.dispatch read }
  | .call step =>
      if step.ofServer then
        (e.dispatch.step file (.call step)).map fun d => { e with dispatch := d }
      else none

def Initial (e : Echo κ) : Prop :=
  Dispatch.Initial e.dispatch ∧ e.dispatch.running.session.conn.messageCallback = true ∧
    e.received = []

def system : System (Echo κ) EventStep where
  init := Initial
  step := step file

/-- No `EPIPE` or `ECONNRESET` where `onMessage` writes. -/
def WritesOn (e : Echo κ) : EventStep → Prop
  | .callback (.ok (_ :: _)) write =>
      e.dispatch.handlers.head? = some .handleRead → ¬e.dispatch.running.session.SendFaults write
  | .callback _ _ | .handleEvent _ | .call _ => True

/-- Nor does a read branch find anything after the close branch of the same event. -/
def Survives (e : Echo κ) (event : EventStep) : Prop :=
  e.WritesOn event ∧ e.dispatch.ReadsNothing event

end Echo

/-! ### What the callbacks do to the two streams -/

namespace Session

variable (s : Session κ)

theorem bufferRest_inputBuffer (rest : List Byte) :
    (s.bufferRest rest).conn.inputBuffer = s.conn.inputBuffer := by
  unfold bufferRest
  dsimp only
  split <;> simp [enableWriting]

theorem sendInLoop_inputBuffer (data : List Byte) (answer : Except Errno Nat) :
    (s.sendInLoop data answer).conn.inputBuffer = s.conn.inputBuffer := by
  obtain ⟨wrote, hattempt⟩ := s.attemptWrite_spec data answer
  unfold sendInLoop
  split
  · rfl
  · dsimp only
    split
    · rw [bufferRest_inputBuffer, hattempt.conn_eq]
    · rw [hattempt.conn_eq]

theorem finishWrite_inputBuffer : s.finishWrite.conn.inputBuffer = s.conn.inputBuffer := by
  unfold finishWrite
  dsimp only
  split
  · rw [shutdownInLoop_conn]
    simp [disableWriting]
  · simp [disableWriting]

theorem handleWrite_inputBuffer (answer : Except Errno Nat) :
    (s.handleWrite answer).conn.inputBuffer = s.conn.inputBuffer := by
  obtain ⟨-, heq⟩ | ⟨-, ⟨errno, heq⟩ | heq | ⟨n, ⟨-, heq⟩ | ⟨-, heq⟩⟩⟩ := s.handleWrite_cases answer
  · rw [heq]
  · rw [heq, emit_conn]
  · rw [heq, emit_conn]
  · rw [heq, finishWrite_inputBuffer]
    rfl
  · rw [heq]
    rfl

theorem handleClose_inputBuffer : s.handleClose.conn.inputBuffer = s.conn.inputBuffer := by
  simp [handleClose, disableAll]

end Session

/-- A connection that has echoed the bytes of `received`. -/
structure Echoed (s : Session κ) (received : List Byte) : Prop where
  stream : written s.trace ++ s.conn.outputBuffer.content = received
  drained : s.conn.inputBuffer.content = []
  live : s.conn.state ≠ .kDisconnected →
    Flow s ∧ s.conn.state = .kConnected ∧ s.conn.messageCallback = true

namespace Echoed

variable {s s' : Session κ} {received : List Byte}

theorem closed (h : Echoed s received) (hclosed : ClosedWith s s')
    (hinput : s'.conn.inputBuffer.content = []) : Echoed s' received := by
  refine ⟨?_, hinput, fun hopen => absurd hclosed.state_eq hopen⟩
  rw [hclosed.written_eq, hclosed.buffer_eq]
  exact h.stream

theorem handleClose (h : Echoed s received) : Echoed s.handleClose received := by
  apply h.closed s.handleClose_closed
  rw [Session.handleClose_inputBuffer]
  exact h.drained

theorem readEnd (h : Echoed s received) : Echoed (s.handleRead (.ok [])) received := by
  apply h.closed s.handleRead_eof_closed
  rw [Session.handleRead_eof, Session.handleClose_inputBuffer, ValidBuffer.content_readFd, h.drained,
    List.take_nil, List.append_nil]

/-- A step that touches neither stream. -/
theorem of_silent (h : Echoed s received) {events : List Event} (hevents : Silent events)
    (htrace : s'.trace = s.trace ++ events) (hconn : s'.conn = s.conn) : Echoed s' received := by
  refine ⟨?_, ?_, fun hopen => ?_⟩
  · rw [htrace, written_append, hevents.written_eq, List.append_nil, hconn]
    exact h.stream
  · rw [hconn]
    exact h.drained
  · rw [hconn] at hopen ⊢
    obtain ⟨hflow, hstate, hmessage⟩ := h.live hopen
    exact ⟨hflow.of_silent hevents htrace (by rw [hconn]) (by rw [hconn]) (by rw [hconn]), hstate,
      hmessage⟩

theorem handleWrite (h : Echoed s received) (hopen : s.conn.state ≠ .kDisconnected)
    (answer : Except Errno Nat) : Echoed (s.handleWrite answer) received := by
  obtain ⟨hflow, hstate, hmessage⟩ := h.live hopen
  obtain ⟨wrote, hdrained⟩ := s.handleWrite_drained answer hflow.writing
  have htrace : (s.handleWrite answer).trace = s.trace ++ wrote := by
    rw [hdrained.trace_eq, if_neg fun hdone => absurd (hstate.symm.trans hdone.2.2) (by decide),
      List.append_nil]
  refine ⟨?_, ?_, fun _ => ⟨hflow.handleWrite answer, hdrained.state_eq.trans hstate, ?_⟩⟩
  · rw [htrace, written_append, List.append_assoc, hdrained.bytes]
    exact h.stream
  · rw [Session.handleWrite_inputBuffer]
    exact h.drained
  · exact (Updates.handleWrite s answer).staysUp.messageCallback_eq.trans hmessage

/-- `onMessage` sends what the input buffer holds, behind everything before it. -/
theorem onMessage {data : List Byte} {answer : Except Errno Nat} (hflow : Flow s)
    (hstate : s.conn.state = .kConnected) (hmessage : s.conn.messageCallback = true)
    (hstream : written s.trace ++ s.conn.outputBuffer.content = received)
    (hinput : s.conn.inputBuffer.content = data) (hfault : ¬s.SendFaults answer) :
    Echoed (s.onMessage answer) (received ++ data) := by
  set taken : Session κ :=
    { s with conn := { s.conn with inputBuffer := s.conn.inputBuffer.retrieveAllAsString.2 } }
  have hcall : s.onMessage answer = (taken.emit (.send data)).sendInLoop data answer := by
    rw [← hinput]
    exact if_pos hstate
  have htaken : Flow taken := hflow.of_silent silent_nil (List.append_nil _).symm rfl rfl rfl
  have hopen : (taken.emit (.send data)).conn.state ≠ .kDisconnected :=
    fun hclosed => absurd (hstate.symm.trans hclosed) (by decide)
  obtain ⟨wrote, hout⟩ := (taken.emit (.send data)).sendInLoop_output data answer hopen
    htaken.writing hfault
  have hkept := (Updates.send taken data answer).staysUp
  have hsend : taken.send data answer = (taken.emit (.send data)).sendInLoop data answer :=
    if_pos hstate
  rw [hsend] at hkept
  refine ⟨?_, ?_, fun _ => ⟨?_, ?_, ?_⟩⟩
  · calc written (s.onMessage answer).trace ++ (s.onMessage answer).conn.outputBuffer.content
        = written s.trace ++ (written wrote ++ (s.onMessage answer).conn.outputBuffer.content) := by
          rw [hcall, hout.trace_eq, Session.emit_trace, written_append, written_append,
            List.append_assoc, List.append_assoc]
          rfl
      _ = written s.trace ++ (s.conn.outputBuffer.content ++ data) := by
          rw [hcall, hout.bytes]
          rfl
      _ = received ++ data := by
          rw [← List.append_assoc, hstream]
  · rw [hcall, Session.sendInLoop_inputBuffer]
    exact s.conn.inputBuffer.content_retrieveAllAsString
  · rw [hcall, ← hsend]
    exact htaken.send data answer fun _ => hfault
  · rw [hcall, hout.state_eq]
    exact hstate
  · rw [hcall]
    exact hkept.messageCallback_eq.trans hmessage

/-- **A message**: what `readFd` appended leaves again at once. -/
theorem message (h : Echoed s received) (hopen : s.conn.state ≠ .kDisconnected) {ready : List Byte}
    (hdata : ready ≠ []) {answer : Except Errno Nat} (hfault : ¬s.SendFaults answer) :
    Echoed ((s.handleRead (.ok ready)).onMessage answer)
      (received ++ ready.take s.conn.inputBuffer.raw.offered) := by
  obtain ⟨hflow, hstate, hmessage⟩ := h.live hopen
  obtain ⟨events, hcallbacks, htrace, -, hconn⟩ :=
    s.handleRead_of_data fun heq => hdata (Except.ok.inj heq)
  refine onMessage (hflow.handleRead fun heq => hdata (Except.ok.inj heq)) ?_ ?_ ?_ ?_ ?_
  · rw [hconn]
    exact hstate
  · rw [hconn]
    exact hmessage
  · rw [htrace, written_append, hcallbacks.silent.written_eq, List.append_nil, hconn]
    exact h.stream
  · rw [hconn, ValidBuffer.content_readFd, h.drained, List.nil_append]
  · rwa [Session.SendFaults, Session.mayWriteDirectly, hconn]

end Echoed

/-! ### Every run -/

namespace Echo

variable [DecidableEq κ] {file : Nat → List Byte} {d d' : Dispatch κ}

omit [DecidableEq κ] in
theorem withOnMessage_of_notMem {more : List Event}
    (htrace : d'.running.session.trace = d.running.session.trace ++ more)
    (hmore : .messageCallback ∉ more) (write : Except Errno Nat) : withOnMessage d d' write = d' := by
  apply if_neg
  rwa [htrace, List.drop_left]

omit [DecidableEq κ] in
theorem withOnMessage_of_mem {more : List Event}
    (htrace : d'.running.session.trace = d.running.session.trace ++ more)
    (hmore : .messageCallback ∈ more) (write : Except Errno Nat) :
    withOnMessage d d' write =
      { d' with running := { d'.running with session := d'.running.session.onMessage write } } := by
  apply if_pos
  rwa [htrace, List.drop_left]

omit [DecidableEq κ] in
theorem taken_eq_nil {read : Except Errno (List Byte)} (h : d.handlers.head? ≠ some .handleRead) :
    taken d read = [] := by
  unfold taken
  split
  · rename_i hhead
    exact absurd hhead h
  · rfl

structure Inv (e : Echo κ) : Prop where
  dispatch : Dispatch.Inv e.dispatch
  echoed : Echoed e.dispatch.running.session e.received

variable {e e' : Echo κ}

/-- A callback that does not call `onMessage`. -/
theorem Inv.silent {d : Dispatch κ} (hinv : Dispatch.Inv d) {more : List Event}
    (htrace : d.running.session.trace = e.dispatch.running.session.trace ++ more)
    (hmore : .messageCallback ∉ more) {read : Except Errno (List Byte)}
    (htaken : taken e.dispatch read = []) (hechoed : Echoed d.running.session e.received)
    (write : Except Errno Nat) :
    Inv ⟨withOnMessage e.dispatch d write, e.received ++ taken e.dispatch read⟩ := by
  rw [withOnMessage_of_notMem htrace hmore, htaken, List.append_nil]
  exact ⟨hinv, hechoed⟩

theorem inv_onMessage (h : Dispatch.Inv d) (hstate : d.running.session.conn.state = .kConnected)
    (answer : Except Errno Nat) :
    Dispatch.Inv
      { d with running := { d.running with session := d.running.session.onMessage answer } } := by
  obtain ⟨chan, hagrees⟩ := h.agrees
  set s := d.running.session
  set taken : Session κ :=
    { s with conn := { s.conn with inputBuffer := s.conn.inputBuffer.retrieveAllAsString.2 } }
  have hmoves : Moves s (s.onMessage answer) :=
    (Moves.of_same rfl rfl rfl rfl rfl : Moves s taken).trans
      (Updates.send taken _ answer).keeps.toMoves
  have hupdates : Updates s (s.onMessage answer) :=
    (Updates.setInputBuffer s _).trans (Updates.send taken _ answer)
  refine ⟨⟨chan, hmoves.agrees chan hagrees⟩, h.handlers, ?_⟩
  obtain hup | hgone := h.phase
  · exact .inl (hup.keeps hupdates.staysUp fun hclosing =>
      absurd (hstate.symm.trans hclosing) (by decide))
  · exact absurd (hstate.symm.trans hgone.down.state_eq) (by decide)

/-- A read callback that finds data, and so calls `onMessage`. -/
theorem Inv.message (h : Inv e) {d : Dispatch κ} (hinv : Dispatch.Inv d) {ready : List Byte}
    (hdata : ready ≠ [])
    (hsession : d.running.session = e.dispatch.running.session.handleRead (.ok ready))
    (hopen : e.dispatch.running.session.conn.state ≠ .kDisconnected) {write : Except Errno Nat}
    (hfault : ¬e.dispatch.running.session.SendFaults write) :
    Inv ⟨withOnMessage e.dispatch d write,
      e.received ++ ready.take e.dispatch.running.session.conn.inputBuffer.raw.offered⟩ := by
  set s := e.dispatch.running.session
  obtain ⟨-, hstate, hmessage⟩ := h.echoed.live hopen
  have htrace : d.running.session.trace = s.trace ++ [.messageCallback] := by
    rw [hsession, s.handleRead_ok hdata, Session.emitWhen_trace, if_pos hmessage]
  have hconn : d.running.session.conn.state = .kConnected := by
    rw [hsession, s.handleRead_ok hdata, Session.emitWhen_conn]
    exact hstate
  rw [withOnMessage_of_mem htrace List.mem_cons_self]
  refine ⟨inv_onMessage hinv hconn write, ?_⟩
  rw [hsession]
  exact h.echoed.message hopen hdata hfault

theorem Inv.callback (h : Inv e) {read : Except Errno (List Byte)} {write : Except Errno Nat}
    (hok : Survives e (.callback read write)) {d : Dispatch κ}
    (hstep : e.dispatch.step file (.callback read write) = some d) :
    Inv ⟨withOnMessage e.dispatch d write, e.received ++ taken e.dispatch read⟩ := by
  obtain ⟨hwrites, hreads⟩ := hok
  have hinv := h.dispatch.step hreads hstep
  set s := e.dispatch.running.session with hs
  simp only [Dispatch.step] at hstep
  split at hstep
  · cases hstep
  rename_i handler rest hhandlers
  obtain ⟨r, hrun, rfl⟩ := Option.map_eq_some_iff.mp hstep
  have hhead : e.dispatch.handlers.head? = some handler := by rw [hhandlers, List.head?_cons]
  have hother : handler ≠ .handleRead → taken e.dispatch read = [] := fun hne =>
    taken_eq_nil fun hread => hne (Option.some.inj (hhead.symm.trans hread))
  obtain hup | hgone := h.dispatch.phase
  · have hopen : s.conn.state ≠ .kDisconnected := hup.state_ne
    cases handler with
    | handleClose =>
        obtain rfl := Option.some.inj hrun
        refine Inv.silent hinv (s.handleClose_trace.trans (List.append_assoc ..)) ?_
          (hother (by decide)) h.echoed.handleClose write
        split <;> split <;> simp
    | handleError =>
        obtain rfl := Option.some.inj hrun
        exact Inv.silent hinv (List.append_nil _).symm List.not_mem_nil (hother (by decide))
          h.echoed write
    | handleRead =>
        obtain rfl := Option.some.inj hrun
        cases read with
        | error errno =>
            refine Inv.silent hinv (List.append_nil _).symm List.not_mem_nil ?_ h.echoed write
            simp [taken, hhead]
        | ok ready =>
            have htaken : taken e.dispatch (.ok ready)
                = ready.take s.conn.inputBuffer.raw.offered := by
              simp only [taken, hhead, hs]
            by_cases hdata : ready = []
            · subst hdata
              have htrace := (congrArg Session.trace s.handleRead_eof).trans
                ((Session.handleClose_trace _).trans (List.append_assoc ..))
              refine Inv.silent hinv htrace ?_ (by simpa using htaken) h.echoed.readEnd write
              split <;> split <;> simp
            · have hfault : ¬s.SendFaults write := by
                cases ready with
                | nil => exact absurd rfl hdata
                | cons byte more => exact hwrites hhead
              rw [htaken]
              exact h.message hinv hdata rfl hopen hfault
    | handleWrite =>
        obtain rfl := Option.some.inj hrun
        obtain ⟨hflow, hstate, -⟩ := h.echoed.live hopen
        obtain ⟨wrote, hdrained⟩ := s.handleWrite_drained write hflow.writing
        have htrace := hdrained.trace_eq
        rw [if_neg fun hdone => absurd (hstate.symm.trans hdone.2.2) (by decide),
          List.append_nil] at htrace
        refine Inv.silent hinv htrace (fun hmem => ?_) (hother (by decide))
          (h.echoed.handleWrite hopen write) write
        exact absurd (hdrained.writes _ hmem) (by decide)
  · have hclosed : ClosedWith s s := ⟨hgone.down.state_eq, hgone.down.idle, rfl, rfl, rfl⟩
    cases handler with
    | handleClose =>
        refine absurd ?_ hgone.closing
        rw [hhandlers]
        exact List.mem_cons_self
    | handleRead =>
        obtain rfl := Option.some.inj hrun
        have hmask : ClosesAndReads e.dispatch.revents := by
          apply hgone.reading
          rw [hhandlers]
          exact List.mem_cons_self
        cases read with
        | ok ready => exact absurd hhead (hreads hmask)
        | error errno =>
            refine Inv.silent hinv (List.append_nil _).symm List.not_mem_nil ?_ h.echoed write
            simp [taken, hhead]
    | handleError =>
        obtain rfl := Option.some.inj hrun
        exact Inv.silent hinv (List.append_nil _).symm List.not_mem_nil (hother (by decide))
          h.echoed write
    | handleWrite =>
        obtain rfl := Option.some.inj hrun
        have hsame : s.handleWrite write = s := hclosed.handleWrite write
        have htrace : (s.handleWrite write).trace = s.trace ++ [] := by
          rw [hsame, List.append_nil]
        refine Inv.silent hinv htrace List.not_mem_nil (hother (by decide)) ?_ write
        change Echoed (s.handleWrite write) e.received
        rw [hsame]
        exact h.echoed

omit [DecidableEq κ] in
theorem echoed_runTask {s : Session κ} {received : List Byte} (h : Echoed s received)
    (answer : Except Errno Nat) (task : Task) :
    Echoed (Running.runTask file s answer task) received := by
  cases task with
  | sendFileInLoop fileDescriptor offset count =>
      obtain ⟨events, hsilent, htrace⟩ :=
        s.sendFileInLoop_silent file fileDescriptor offset count answer
      exact h.of_silent hsilent htrace (s.sendFileInLoop_conn file fileDescriptor offset count answer)
  | writeCompleteCallback => exact h
  | highWaterMarkCallback _ => exact h

/-- What the loop and the server call between two events. -/
theorem Inv.call (h : Inv e) {step : Step} (hserver : step.ofServer = true) {d : Dispatch κ}
    (hstep : e.dispatch.step file (.call step) = some d) : Inv { e with dispatch := d } := by
  have hinv := h.dispatch.step (show e.dispatch.ReadsNothing (.call step) from trivial) hstep
  simp only [Dispatch.step] at hstep
  split at hstep
  · rename_i hfree
    obtain ⟨r, hrun, rfl⟩ := Option.map_eq_some_iff.mp hstep
    refine ⟨hinv, ?_⟩
    cases step with
    | connectDestroyed =>
        obtain rfl := Option.some.inj hrun
        set s := e.dispatch.running.session
        have hinput : s.connectDestroyed.conn.inputBuffer = s.conn.inputBuffer := by
          unfold Session.connectDestroyed
          dsimp only
          split <;> simp [Session.remove, Session.disableAll]
        have hdrained : s.connectDestroyed.conn.inputBuffer.content = [] := by
          rw [hinput]
          exact h.echoed.drained
        by_cases hclosed : s.conn.state = .kDisconnected
        · obtain hup | hgone := h.dispatch.phase
          · exact absurd hclosed hup.state_ne
          · have hbefore : ClosedWith s s := ⟨hclosed, hgone.down.idle, rfl, rfl, rfl⟩
            exact h.echoed.closed hbefore.connectDestroyed hdrained
        · exact h.echoed.closed (s.connectDestroyed_closed (h.echoed.live hclosed).2.1) hdrained
    | doPendingFunctors =>
        obtain ⟨-, rfl⟩ := Running.step_doPendingFunctors hrun
        exact h.echoed.of_silent silent_nil (List.append_nil _).symm rfl
    | runFunctor answer =>
        obtain ⟨task, rest, -, rfl⟩ := Running.step_runFunctor hrun
        exact echoed_runTask h.echoed answer task
    | _ => cases hserver
  · cases hstep

theorem Inv.step (h : Inv e) {event : EventStep} (hok : Survives e event)
    (hstep : e.step file event = some e') : Inv e' := by
  cases event with
  | handleEvent revents =>
      obtain ⟨d, hd, rfl⟩ := Option.map_eq_some_iff.mp hstep
      have hinv :=
        h.dispatch.step (show e.dispatch.ReadsNothing (.handleEvent revents) from trivial) hd
      obtain ⟨-, rfl⟩ := guarded_eq_some.mp hd
      exact ⟨hinv, h.echoed⟩
  | callback read write =>
      obtain ⟨d, hd, rfl⟩ := Option.map_eq_some_iff.mp hstep
      exact h.callback hok hd
  | call step =>
      simp only [Echo.step] at hstep
      split at hstep
      · rename_i hserver
        obtain ⟨d, hd, rfl⟩ := Option.map_eq_some_iff.mp hstep
        exact h.call hserver hd
      · cases hstep

theorem Inv.of_initial (h : Initial e) : Inv e := by
  obtain ⟨hdispatch, hmessage, hreceived⟩ := h
  have hinv := Dispatch.Inv.of_initial hdispatch
  obtain ⟨chan, self, poller, fd, mark, size, _, _, _, _, _, -, hd⟩ := hdispatch
  have hestablished : Running.Established e.dispatch.running := by
    rw [hd]
    exact ⟨self, poller, fd, mark, size, _, _, _, _, _, rfl, rfl⟩
  have hflow := Running.flow_of_established hestablished
  set s := Running.fresh self poller fd mark size _ _ _ _ _
  have hsession : e.dispatch.running.session = s.connectEstablished := by rw [hd]
  obtain ⟨hstate, hbuffer, -, -, events, hcallbacks, htrace⟩ := s.connectEstablished_spec
  refine ⟨hinv, ⟨?_, ?_, fun _ => ⟨hflow, ?_, hmessage⟩⟩⟩
  · rw [hsession, htrace, hbuffer, written_append, hcallbacks.silent.written_eq, hreceived]
    exact ValidBuffer.content_new size
  · have hinput : s.connectEstablished.conn.inputBuffer = s.conn.inputBuffer := by
      simp [Session.connectEstablished, Session.enableReading, Session.tie]
    rw [hsession, hinput]
    exact ValidBuffer.content_new size
  · rw [hsession]
    exact hstate

variable (file)

/-- **The echo is exact.** Between any two callbacks of any run in which nothing is read after the
close branch of the same event, what was read from the socket is what was written to it, followed by
what waits in the output buffer, and nothing is left in the input buffer. -/
theorem echo_exact (h : (system file).ReachableUnder Survives e) :
    let s := e.dispatch.running.session
    e.received = written s.trace ++ s.conn.outputBuffer.content ∧
      s.conn.inputBuffer.content = [] := by
  have hinv : Inv e := h.invariant (fun _ => Inv.of_initial) fun _ _ _ h => h.step
  exact ⟨hinv.echoed.stream.symm, hinv.echoed.drained⟩

/-- Three bytes with a NUL among them, of which the socket takes one at once and one later. -/
theorem echo_exact_nul :
    ∃ e : Echo Unit, e.received = [7, 0, 9] ∧ written e.dispatch.running.session.trace = [7, 0] ∧
      e.dispatch.running.session.conn.outputBuffer.content = [9] ∧
      e.dispatch.running.session.conn.inputBuffer.content = [] := by
  have hmask : ¬ClosesAndReads EPOLLIN := by decide
  have hrun : (system fun _ => []).RunUnder Survives ⟨Dispatch.sample, []⟩
      [.handleEvent EPOLLIN, .callback (.ok [7, 0, 9]) (.ok 1), .handleEvent EPOLLOUT,
        .callback (.error EAGAIN) (.ok 1)] _ :=
    .cons ⟨trivial, trivial⟩ rfl
      (.cons ⟨fun _ => Session.not_sendFaults_ok _ _, fun hboth => absurd hboth hmask⟩ rfl
        (.cons ⟨trivial, trivial⟩ rfl (.single ⟨trivial, trivial⟩ rfl)))
  have hexact := echo_exact _ ⟨_, _, ⟨Dispatch.initial_sample, rfl, rfl⟩, hrun⟩
  exact ⟨_, rfl, rfl, rfl, hexact.2⟩

omit [DecidableEq κ] in
/-- Whatever the read branch reads after the close branch is not sent any more. -/
theorem onMessage_after_handleClose (s : Session κ) {ready : List Byte} (hdata : ready ≠ [])
    (answer : Except Errno Nat) :
    written ((s.handleClose.handleRead (.ok ready)).onMessage answer).trace = written s.trace ∧
      ((s.handleClose.handleRead (.ok ready)).onMessage answer).conn.outputBuffer
        = s.conn.outputBuffer := by
  have hclosed := s.handleClose_closed
  obtain ⟨events, hcallbacks, htrace, -, hconn⟩ :=
    s.handleClose.handleRead_of_data fun heq => hdata (Except.ok.inj heq)
  have hstate : (s.handleClose.handleRead (.ok ready)).conn.state ≠ .kConnected := by
    rw [hconn]
    exact fun hup => absurd (hclosed.state_eq.symm.trans hup) (by decide)
  have hcall : (s.handleClose.handleRead (.ok ready)).onMessage answer
      = { s.handleClose.handleRead (.ok ready) with
          conn := { (s.handleClose.handleRead (.ok ready)).conn with
            inputBuffer := (s.handleClose.handleRead
              (.ok ready)).conn.inputBuffer.retrieveAllAsString.2 } } := if_neg hstate
  rw [hcall]
  constructor
  · change written (s.handleClose.handleRead (.ok ready)).trace = _
    rw [htrace, written_append, hcallbacks.silent.written_eq, List.append_nil, hclosed.written_eq]
  · change (s.handleClose.handleRead (.ok ready)).conn.outputBuffer = _
    rw [hconn]
    exact hclosed.buffer_eq

/-- A hang-up with urgent data, and a socket that has a byte to read after it. -/
theorem echo_lost_after_hangup :
    ∃ e : Echo Unit, (system fun _ => []).Reachable e ∧ e.dispatch.handlers = [] ∧
      e.received = [1] ∧
      e.dispatch.running.session.trace =
        [.connectionCallback true, .connectionCallback false, .closeCallback, .messageCallback] ∧
      written e.dispatch.running.session.trace = [] ∧
      e.dispatch.running.session.conn.outputBuffer.content = [] ∧
      e.received ≠ written e.dispatch.running.session.trace ++
        e.dispatch.running.session.conn.outputBuffer.content := by
  have hexec : (system fun _ => []).exec ⟨Dispatch.sample, []⟩
      [.handleEvent (EPOLLHUP ||| EPOLLPRI), .callback (.ok []) (.ok 0),
        .callback (.ok [1]) (.ok 1)] = some _ := rfl
  have hreach := System.reachable_of_exec
    (show (system fun _ => []).init ⟨Dispatch.sample, []⟩ from
      ⟨Dispatch.initial_sample, rfl, rfl⟩) hexec
  exact ⟨_, hreach, rfl, rfl, rfl, rfl, rfl, by decide⟩

end Echo

end MuduoCore
