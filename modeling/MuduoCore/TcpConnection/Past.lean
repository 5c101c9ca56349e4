import MuduoCore.Poller.Interest
import MuduoCore.TcpConnection.Effects
import MuduoCore.TcpConnection.Runs

/-!
# Whatever came before

A member function looks at the connection only. On another poller, after other events and with other
functors in the queue it leaves the connection in the same state, and adds the same events and
functors. So what is proved of the runs of one connection holds of it between all the others.
-/

namespace MuduoCore

variable {κ : Type*}

theorem Channel.setEvents_congr (p q : EPollPoller κ) (ptr ptr' : κ) (c : Channel)
    (events : EventMask) :
    (Channel.setEvents p ptr c events).2 = (Channel.setEvents q ptr' c events).2 := by
  rw [Channel.setEvents, Channel.setEvents, EPollPoller.updateChannel_channel,
    EPollPoller.updateChannel_channel]

namespace Session

/-- `t` is `s` after the events `past`, with `queued` before its functors, on a poller of its own. -/
structure Resumes (past : List Event) (queued : List Task) (s t : Session κ) : Prop where
  conn_eq : t.conn = s.conn
  trace_eq : t.trace = past ++ s.trace
  pending_eq : t.pendingFunctors = queued ++ s.pendingFunctors

namespace Resumes

variable {past : List Event} {queued : List Task} {s t : Session κ}

theorem setConn (h : Resumes past queued s t) (f : TcpConnection → TcpConnection) :
    Resumes past queued { s with conn := f s.conn } { t with conn := f t.conn } :=
  ⟨congrArg f h.conn_eq, h.trace_eq, h.pending_eq⟩

theorem setState (h : Resumes past queued s t) (state : StateE) :
    Resumes past queued (s.setState state) (t.setState state) :=
  h.setConn fun c => { c with state := state }

theorem setOutputBuffer (h : Resumes past queued s t) (buffer : ValidBuffer) :
    Resumes past queued (s.setOutputBuffer buffer) (t.setOutputBuffer buffer) :=
  h.setConn fun c => { c with outputBuffer := buffer }

theorem emit (h : Resumes past queued s t) (event : Event) :
    Resumes past queued (s.emit event) (t.emit event) := by
  refine ⟨h.conn_eq, ?_, h.pending_eq⟩
  rw [emit_trace, emit_trace, h.trace_eq, List.append_assoc]

theorem queueInLoop (h : Resumes past queued s t) (task : Task) :
    Resumes past queued (s.queueInLoop task) (t.queueInLoop task) := by
  refine ⟨h.conn_eq, h.trace_eq, ?_⟩
  rw [queueInLoop_pending, queueInLoop_pending, h.pending_eq, List.append_assoc]

theorem queueWhen (h : Resumes past queued s t) (cond : Bool) (task : Task) :
    Resumes past queued (s.queueWhen cond task) (t.queueWhen cond task) := by
  cases cond with
  | true => exact h.queueInLoop task
  | false => exact h

theorem emitWhen (h : Resumes past queued s t) (cond : Bool) (event : Event) :
    Resumes past queued (s.emitWhen cond event) (t.emitWhen cond event) := by
  cases cond with
  | true => exact h.emit event
  | false => exact h

/-- An operation of the channel that leaves the channel the same whatever the poller is. -/
theorem onChannel (h : Resumes past queued s t)
    {op : EPollPoller κ → κ → Channel → EPollPoller κ × Channel}
    (hop : ∀ p q ptr ptr' c, (op p ptr c).2 = (op q ptr' c).2) :
    Resumes past queued (s.onChannel op) (t.onChannel op) := by
  refine ⟨?_, h.trace_eq, h.pending_eq⟩
  rw [onChannel_conn, onChannel_conn, h.conn_eq, hop t.poller s.poller t.self s.self]

theorem enableReading (h : Resumes past queued s t) :
    Resumes past queued s.enableReading t.enableReading :=
  h.onChannel fun p q ptr ptr' c => Channel.setEvents_congr p q ptr ptr' c _

theorem enableWriting (h : Resumes past queued s t) :
    Resumes past queued s.enableWriting t.enableWriting :=
  h.onChannel fun p q ptr ptr' c => Channel.setEvents_congr p q ptr ptr' c _

theorem disableWriting (h : Resumes past queued s t) :
    Resumes past queued s.disableWriting t.disableWriting :=
  h.onChannel fun p q ptr ptr' c => Channel.setEvents_congr p q ptr ptr' c _

theorem disableAll (h : Resumes past queued s t) : Resumes past queued s.disableAll t.disableAll :=
  h.onChannel fun p q ptr ptr' c => Channel.setEvents_congr p q ptr ptr' c _

theorem remove (h : Resumes past queued s t) : Resumes past queued s.remove t.remove :=
  h.onChannel fun _ _ _ _ _ => rfl

/-! ### Member functions -/

theorem mayWriteDirectly_eq (h : Resumes past queued s t) :
    t.mayWriteDirectly = s.mayWriteDirectly := by
  rw [mayWriteDirectly, mayWriteDirectly, h.conn_eq]

/-- The attempt leaves the same locals as well. -/
theorem attemptWrite (h : Resumes past queued s t) (data : List Byte) (answer : Except Errno Nat) :
    Resumes past queued (s.attemptWrite data answer).session (t.attemptWrite data answer).session ∧
      (t.attemptWrite data answer).nwrote = (s.attemptWrite data answer).nwrote ∧
      (t.attemptWrite data answer).remaining = (s.attemptWrite data answer).remaining ∧
      (t.attemptWrite data answer).faultError = (s.attemptWrite data answer).faultError := by
  unfold Session.attemptWrite
  rw [h.mayWriteDirectly_eq]
  split
  · cases answer with
    | ok n =>
      dsimp only [directWrite]
      rw [emit_conn, emit_conn, h.conn_eq]
      exact ⟨(h.emit _).queueWhen _ _, rfl, rfl, rfl⟩
    | error errno => exact ⟨h.emit _, rfl, rfl, rfl⟩
  · exact ⟨h, rfl, rfl, rfl⟩

theorem bufferRest (h : Resumes past queued s t) (rest : List Byte) :
    Resumes past queued (s.bufferRest rest) (t.bufferRest rest) := by
  simp only [Session.bufferRest, queueWhen_conn, setOutputBuffer_conn, h.conn_eq]
  split
  · exact (h.queueWhen _ _).setOutputBuffer _
  · exact ((h.queueWhen _ _).setOutputBuffer _).enableWriting

theorem sendInLoop (h : Resumes past queued s t) (data : List Byte) (answer : Except Errno Nat) :
    Resumes past queued (s.sendInLoop data answer) (t.sendInLoop data answer) := by
  obtain ⟨hdirect, hnwrote, hremaining, hfault⟩ := h.attemptWrite data answer
  simp only [Session.sendInLoop, h.conn_eq, hnwrote, hremaining, hfault]
  split
  · exact h
  · split
    · exact hdirect.bufferRest _
    · exact hdirect

theorem send (h : Resumes past queued s t) (data : List Byte) (answer : Except Errno Nat) :
    Resumes past queued (s.send data answer) (t.send data answer) := by
  unfold Session.send
  rw [h.conn_eq]
  split
  · exact (h.emit _).sendInLoop data answer
  · exact h

theorem sendFileInLoop (h : Resumes past queued s t) (file : Nat → List Byte)
    (fileDescriptor offset count : Nat) (answer : Except Errno Nat) :
    Resumes past queued (s.sendFileInLoop file fileDescriptor offset count answer)
      (t.sendFileInLoop file fileDescriptor offset count answer) := by
  unfold Session.sendFileInLoop
  rw [h.conn_eq, h.mayWriteDirectly_eq]
  split
  · exact h
  · split
    · cases answer with
      | ok n =>
        simp only [emit_conn, h.conn_eq]
        exact ((h.emit _).queueWhen _ _).queueWhen _ _
      | error errno => exact (h.emit _).queueWhen _ _
    · exact h.queueWhen _ _

theorem sendFile (h : Resumes past queued s t) (file : Nat → List Byte)
    (fileDescriptor offset count : Nat) (answer : Except Errno Nat) :
    Resumes past queued (s.sendFile file fileDescriptor offset count answer)
      (t.sendFile file fileDescriptor offset count answer) := by
  unfold Session.sendFile
  rw [h.conn_eq]
  split
  · exact (h.emit _).sendFileInLoop file fileDescriptor offset count answer
  · exact h

theorem shutdownInLoop (h : Resumes past queued s t) :
    Resumes past queued s.shutdownInLoop t.shutdownInLoop := by
  unfold Session.shutdownInLoop
  rw [h.conn_eq]
  split
  · exact h
  · exact h.emit _

theorem shutdown (h : Resumes past queued s t) : Resumes past queued s.shutdown t.shutdown := by
  unfold Session.shutdown
  rw [h.conn_eq]
  split
  · exact (h.setState _).shutdownInLoop
  · exact h

theorem connectEstablished (h : Resumes past queued s t) :
    Resumes past queued s.connectEstablished t.connectEstablished := by
  have htied := (h.setState .kConnected).setConn fun c =>
    { c with channel := { c.channel with tied := true } }
  have hup := htied.enableReading
  unfold Session.connectEstablished
  simp only [Session.tie, hup.conn_eq]
  exact hup.emitWhen _ _

theorem connectDestroyed (h : Resumes past queued s t) :
    Resumes past queued s.connectDestroyed t.connectDestroyed := by
  unfold Session.connectDestroyed
  dsimp only
  rw [h.conn_eq]
  split
  · have hdown := (h.setState .kDisconnected).disableAll
    rw [hdown.conn_eq]
    exact (hdown.emitWhen _ _).remove
  · exact h.remove

theorem handleClose (h : Resumes past queued s t) :
    Resumes past queued s.handleClose t.handleClose := by
  have hdown := (h.setState .kDisconnected).disableAll
  simp only [Session.handleClose, emitWhen_conn, hdown.conn_eq]
  exact (hdown.emitWhen _ _).emitWhen _ _

theorem handleRead (h : Resumes past queued s t) (answer : Except Errno (List Byte)) :
    Resumes past queued (s.handleRead answer) (t.handleRead answer) := by
  have hread := h.setConn fun c => { c with inputBuffer := (s.conn.inputBuffer.readFd answer).1 }
  simp only [Session.handleRead, h.conn_eq]
  rw [h.conn_eq] at hread
  split
  · exact hread.handleClose
  · exact hread.emitWhen _ _
  · exact hread

theorem finishWrite (h : Resumes past queued s t) :
    Resumes past queued s.finishWrite t.finishWrite := by
  have hidle := h.disableWriting
  simp only [Session.finishWrite, queueWhen_conn, hidle.conn_eq]
  split
  · exact (hidle.queueWhen _ _).shutdownInLoop
  · exact hidle.queueWhen _ _

theorem handleWrite (h : Resumes past queued s t) (answer : Except Errno Nat) :
    Resumes past queued (s.handleWrite answer) (t.handleWrite answer) := by
  unfold Session.handleWrite
  rw [h.conn_eq]
  split
  · cases answer with
    | error errno => exact h.emit _
    | ok accepted =>
      dsimp only
      rw [emit_conn, emit_conn, h.conn_eq]
      set n := min accepted s.conn.outputBuffer.readableBytes
      split
      · have hwrote := (h.emit (.write (s.conn.outputBuffer.content.take n))).setOutputBuffer
          (s.conn.outputBuffer.retrieve n)
        rw [hwrote.conn_eq]
        split
        · exact hwrote.finishWrite
        · exact hwrote
      · exact h.emit _
  · exact h

theorem runTask (h : Resumes past queued s t) (file : Nat → List Byte) (answer : Except Errno Nat)
    (task : Task) :
    Resumes past queued (Running.runTask file s answer task) (Running.runTask file t answer task) := by
  cases task with
  | sendFileInLoop fileDescriptor offset count =>
    exact h.sendFileInLoop file fileDescriptor offset count answer
  | writeCompleteCallback => exact h
  | highWaterMarkCallback _ => exact h

end Resumes

end Session

end MuduoCore
