import MuduoCore.TcpConnection.Disconnected
import MuduoCore.TcpConnection.Updates

/-!
# The callbacks of a connection

Which callbacks each member function calls on the way. Sending, draining the output and shutting down
call none of them: `writeCompleteCallback_` and `highWaterMarkCallback_` are queued as functors.
-/

namespace MuduoCore

variable {κ : Type*}

/-- The calls of `connectionCallback_`, `messageCallback_` and `closeCallback_`. -/
def callbacks (trace : List Event) : List Event := trace.filter Event.isCallback

@[simp]
theorem callbacks_append (t u : List Event) : callbacks (t ++ u) = callbacks t ++ callbacks u :=
  List.filter_append ..

/-- Between `s` and `s'` the callbacks `called` are called, and no others. -/
structure Calls (called : List Event) (s s' : Session κ) : Prop where
  callbacks_eq : callbacks s'.trace = callbacks s.trace ++ called
  connectionCallback_eq : s'.conn.connectionCallback = s.conn.connectionCallback

namespace Calls

variable {a b : List Event} {t u : Session κ} (s : Session κ)

theorem refl : Calls [] s s := ⟨(List.append_nil _).symm, rfl⟩

variable {s}

theorem trans (hfst : Calls a s t) (hsnd : Calls b t u) : Calls (a ++ b) s u := by
  refine ⟨?_, hsnd.connectionCallback_eq.trans hfst.connectionCallback_eq⟩
  rw [hsnd.callbacks_eq, hfst.callbacks_eq, List.append_assoc]

/-- A part that calls nothing. -/
theorem silent (hfst : Calls a s t) (hsnd : Calls [] t u) : Calls a s u := by
  have h := hfst.trans hsnd
  rwa [List.append_nil] at h

variable (s)

theorem emit (event : Event) : Calls (callbacks [event]) s (s.emit event) :=
  ⟨callbacks_append .., rfl⟩

theorem emitWhen (cond : Bool) (event : Event) :
    Calls (if cond then callbacks [event] else []) s (s.emitWhen cond event) := by
  cases cond
  · exact refl s
  · exact emit s event

theorem queueWhen (cond : Bool) (task : Task) : Calls [] s (s.queueWhen cond task) := by
  cases cond
  · exact refl s
  · exact ⟨(List.append_nil _).symm, rfl⟩

theorem onChannel (op : EPollPoller κ → κ → Channel → EPollPoller κ × Channel) :
    Calls [] s (s.onChannel op) := ⟨(List.append_nil _).symm, rfl⟩

theorem setState (state : StateE) : Calls [] s (s.setState state) :=
  ⟨(List.append_nil _).symm, rfl⟩

theorem setOutputBuffer (buffer : ValidBuffer) : Calls [] s (s.setOutputBuffer buffer) :=
  ⟨(List.append_nil _).symm, rfl⟩

theorem setInputBuffer (buffer : ValidBuffer) :
    Calls [] s { s with conn := { s.conn with inputBuffer := buffer } } :=
  ⟨(List.append_nil _).symm, rfl⟩

/-! ### Functions that call nothing -/

theorem attemptWrite (data : List Byte) (answer : Except Errno Nat) :
    Calls [] s (s.attemptWrite data answer).session := by
  unfold Session.attemptWrite
  split
  · cases answer with
    | ok n => exact (emit s (.write _)).silent (queueWhen _ _ _)
    | error errno => exact emit s (.writeError errno)
  · exact refl s

theorem bufferRest (rest : List Byte) : Calls [] s (s.bufferRest rest) := by
  unfold Session.bufferRest
  dsimp only
  split
  · exact (queueWhen s _ _).silent (setOutputBuffer _ _)
  · exact ((queueWhen s _ _).silent (setOutputBuffer _ _)).silent (onChannel _ _)

theorem sendInLoop (data : List Byte) (answer : Except Errno Nat) :
    Calls [] s (s.sendInLoop data answer) := by
  unfold Session.sendInLoop
  split
  · exact refl s
  · dsimp only
    split
    · exact (attemptWrite s data answer).silent (bufferRest _ _)
    · exact attemptWrite s data answer

theorem send (data : List Byte) (answer : Except Errno Nat) : Calls [] s (s.send data answer) := by
  unfold Session.send
  split
  · exact (emit s (.send data)).silent (sendInLoop _ data answer)
  · exact refl s

theorem sendFileInLoop (file : Nat → List Byte) (fileDescriptor offset count : Nat)
    (answer : Except Errno Nat) :
    Calls [] s (s.sendFileInLoop file fileDescriptor offset count answer) := by
  unfold Session.sendFileInLoop
  split
  · exact refl s
  · split
    · cases answer with
      | ok n => exact ((emit s (.sendfile _)).silent (queueWhen _ _ _)).silent (queueWhen _ _ _)
      | error errno => exact (emit s (.sendfileError errno)).silent (queueWhen _ _ _)
    · exact queueWhen s _ _

theorem sendFile (file : Nat → List Byte) (fileDescriptor offset count : Nat)
    (answer : Except Errno Nat) :
    Calls [] s (s.sendFile file fileDescriptor offset count answer) := by
  unfold Session.sendFile
  split
  · exact (emit s (.sendFile ..)).silent (sendFileInLoop _ file _ _ _ answer)
  · exact refl s

theorem shutdownInLoop : Calls [] s s.shutdownInLoop := by
  unfold Session.shutdownInLoop
  split
  · exact refl s
  · exact emit s .shutdownWrite

theorem shutdown : Calls [] s s.shutdown := by
  unfold Session.shutdown
  split
  · exact (setState s .kDisconnecting).silent (shutdownInLoop _)
  · exact refl s

theorem finishWrite : Calls [] s s.finishWrite := by
  have hdone := (onChannel s fun p ptr c => c.disableWriting p ptr).silent
    (queueWhen s.disableWriting s.disableWriting.conn.writeCompleteCallback .writeCompleteCallback)
  unfold Session.finishWrite
  dsimp only
  split
  · exact hdone.silent (shutdownInLoop _)
  · exact hdone

theorem handleWrite (answer : Except Errno Nat) : Calls [] s (s.handleWrite answer) := by
  have hwrote : ∀ n, Calls [] s (s.wroteOut n) := fun n =>
    (emit s (.write _)).silent (setOutputBuffer _ _)
  rcases s.handleWrite_cases answer with
    ⟨-, heq⟩ | ⟨-, ⟨errno, heq⟩ | heq | ⟨n, ⟨-, heq⟩ | ⟨-, heq⟩⟩⟩ <;> rw [heq]
  · exact refl s
  · exact emit s (.writeError errno)
  · exact emit s (.write [])
  · exact (hwrote n).silent (finishWrite _)
  · exact hwrote n

/-! ### Functions that call the user -/

theorem connectEstablished :
    Calls (if s.conn.connectionCallback then [.connectionCallback true] else []) s
      s.connectEstablished := by
  refine ⟨?_, ?_⟩
  · rw [s.connectEstablished_trace, callbacks_append]
    cases s.conn.connectionCallback <;> rfl
  · simp [Session.connectEstablished, Session.enableReading, Session.tie]

theorem handleClose :
    Calls ((if s.conn.connectionCallback then [.connectionCallback false] else []) ++
      if s.conn.closeCallback then [.closeCallback] else []) s s.handleClose := by
  refine ⟨?_, ?_⟩
  · rw [s.handleClose_trace, List.append_assoc, callbacks_append]
    cases s.conn.connectionCallback <;> cases s.conn.closeCallback <;> rfl
  · simp [Session.handleClose, Session.disableAll]

theorem handleRead_eof :
    Calls ((if s.conn.connectionCallback then [.connectionCallback false] else []) ++
      if s.conn.closeCallback then [.closeCallback] else []) s (s.handleRead (.ok [])) := by
  rw [s.handleRead_eof]
  have hclose := handleClose { s with conn := { s.conn with
    inputBuffer := (s.conn.inputBuffer.readFd (.ok [])).1 } }
  exact ⟨hclose.callbacks_eq, hclose.connectionCallback_eq⟩

theorem handleRead_data {ready : List Byte} (hdata : ready ≠ []) :
    Calls (if s.conn.messageCallback then [.messageCallback] else []) s
      (s.handleRead (.ok ready)) := by
  rw [s.handleRead_ok hdata]
  exact (setInputBuffer s _).trans (emitWhen _ _ .messageCallback)

theorem handleRead_error (errno : Errno) : Calls [] s (s.handleRead (.error errno)) :=
  setInputBuffer s _

end Calls

end MuduoCore
