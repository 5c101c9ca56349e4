import MuduoCore.TcpConnection.Basic
import MuduoCore.Poller.Interest

/-!
# What a step does to the output of a connection

For each member function: the bytes it hands to the socket, what it leaves in the output buffer and
whether it waits for `EPOLLOUT` afterwards. Later proofs use these equations, not the functions.
-/

namespace MuduoCore

variable {κ : Type*}

namespace Event

def writtenBytes : Event → List Byte
  | write accepted => accepted
  | _ => []

def acceptedBytes : Event → List Byte
  | send payload => payload
  | _ => []

def isCallback : Event → Bool
  | connectionCallback _ | messageCallback | closeCallback => true
  | _ => false

/-- A call of `::write` on the socket, successful or not. -/
def isWrite : Event → Bool
  | write _ => true
  | writeError _ => true
  | _ => false

/-- A call of `::sendfile` on the socket, successful or not. -/
def isSendfile : Event → Bool
  | sendfile _ => true
  | sendfileError _ => true
  | _ => false

end Event

/-- The bytes that `::write` has accepted, in order. -/
def written (trace : List Event) : List Byte := trace.flatMap Event.writtenBytes

/-- The payloads of the accepted `send` calls, in call order. -/
def accepted (trace : List Event) : List Byte := trace.flatMap Event.acceptedBytes

@[simp]
theorem written_append (t u : List Event) : written (t ++ u) = written t ++ written u :=
  List.flatMap_append

@[simp]
theorem accepted_append (t u : List Event) : accepted (t ++ u) = accepted t ++ accepted u :=
  List.flatMap_append

/-- Events of no interest to the output stream. -/
def Silent (events : List Event) : Prop :=
  ∀ event ∈ events, event ≠ .shutdownWrite ∧ event.isWrite = false ∧
    event.writtenBytes = [] ∧ event.acceptedBytes = []

theorem silent_nil : Silent [] := by simp [Silent]

theorem silent_singleton {event : Event} (hfin : event ≠ .shutdownWrite)
    (hwrite : event.isWrite = false) (hwritten : event.writtenBytes = [])
    (haccepted : event.acceptedBytes = []) : Silent [event] := by
  intro other hmem
  obtain rfl := List.mem_singleton.mp hmem
  exact ⟨hfin, hwrite, hwritten, haccepted⟩

theorem Silent.append {t u : List Event} (ht : Silent t) (hu : Silent u) : Silent (t ++ u) := by
  intro event hmem
  rcases List.mem_append.mp hmem with hmem | hmem
  · exact ht event hmem
  · exact hu event hmem

theorem Silent.written_eq {events : List Event} (h : Silent events) : written events = [] :=
  List.flatMap_eq_nil_iff.mpr fun event hmem => (h event hmem).2.2.1

theorem Silent.accepted_eq {events : List Event} (h : Silent events) : accepted events = [] :=
  List.flatMap_eq_nil_iff.mpr fun event hmem => (h event hmem).2.2.2

def Callbacks (events : List Event) : Prop := ∀ event ∈ events, event.isCallback = true

theorem Callbacks.silent {events : List Event} (h : Callbacks events) : Silent events := by
  intro event hmem
  have hcallback := h event hmem
  revert hcallback
  cases event <;> simp [Event.isCallback, Event.isWrite, Event.writtenBytes, Event.acceptedBytes]

theorem callbacks_ite (cond : Bool) {event : Event} (hcallback : event.isCallback = true) :
    Callbacks (if cond then [event] else []) := by
  cases cond <;> simp [Callbacks, hcallback]

/-- `errno` of a write that `sendInLoop` does not survive. -/
def IsFatal (errno : Errno) : Prop := errno = EPIPE ∨ errno = ECONNRESET

instance : DecidablePred IsFatal := fun _ => inferInstanceAs (Decidable (_ ∨ _))

theorem not_isFatal_of_ok (n : Nat) :
    ∀ errno, (Except.ok n : Except Errno Nat) = .error errno → ¬IsFatal errno := by
  intro errno hanswer
  cases hanswer

namespace Session

/-! ### The primitive updates -/

section Primitive

variable (s : Session κ)

@[simp] theorem emit_conn (event : Event) : (s.emit event).conn = s.conn := rfl
@[simp] theorem emit_trace (event : Event) : (s.emit event).trace = s.trace ++ [event] := rfl
@[simp] theorem emit_pending (event : Event) :
    (s.emit event).pendingFunctors = s.pendingFunctors := rfl

@[simp] theorem queueInLoop_conn (task : Task) : (s.queueInLoop task).conn = s.conn := rfl
@[simp] theorem queueInLoop_trace (task : Task) : (s.queueInLoop task).trace = s.trace := rfl
@[simp] theorem queueInLoop_pending (task : Task) :
    (s.queueInLoop task).pendingFunctors = s.pendingFunctors ++ [task] := rfl

@[simp] theorem queueWhen_conn (cond : Bool) (task : Task) :
    (s.queueWhen cond task).conn = s.conn := by
  cases cond <;> rfl
@[simp] theorem queueWhen_trace (cond : Bool) (task : Task) :
    (s.queueWhen cond task).trace = s.trace := by
  cases cond <;> rfl
@[simp] theorem queueWhen_pending (cond : Bool) (task : Task) :
    (s.queueWhen cond task).pendingFunctors
      = s.pendingFunctors ++ if cond then [task] else [] := by
  cases cond <;> simp [queueWhen]

@[simp] theorem emitWhen_conn (cond : Bool) (event : Event) :
    (s.emitWhen cond event).conn = s.conn := by
  cases cond <;> rfl
@[simp] theorem emitWhen_trace (cond : Bool) (event : Event) :
    (s.emitWhen cond event).trace = s.trace ++ if cond then [event] else [] := by
  cases cond <;> simp [emitWhen]
@[simp] theorem emitWhen_pending (cond : Bool) (event : Event) :
    (s.emitWhen cond event).pendingFunctors = s.pendingFunctors := by
  cases cond <;> rfl

@[simp] theorem setState_conn (state : StateE) :
    (s.setState state).conn = { s.conn with state := state } := rfl
@[simp] theorem setState_trace (state : StateE) : (s.setState state).trace = s.trace := rfl
@[simp] theorem setState_pending (state : StateE) :
    (s.setState state).pendingFunctors = s.pendingFunctors := rfl

@[simp] theorem setOutputBuffer_conn (buffer : ValidBuffer) :
    (s.setOutputBuffer buffer).conn = { s.conn with outputBuffer := buffer } := rfl
@[simp] theorem setOutputBuffer_trace (buffer : ValidBuffer) :
    (s.setOutputBuffer buffer).trace = s.trace := rfl
@[simp] theorem setOutputBuffer_pending (buffer : ValidBuffer) :
    (s.setOutputBuffer buffer).pendingFunctors = s.pendingFunctors := rfl

@[simp] theorem tie_trace : s.tie.trace = s.trace := rfl
@[simp] theorem tie_pending : s.tie.pendingFunctors = s.pendingFunctors := rfl

variable (op : EPollPoller κ → κ → Channel → EPollPoller κ × Channel)

@[simp] theorem onChannel_conn :
    (s.onChannel op).conn = { s.conn with channel := (op s.poller s.self s.conn.channel).2 } := rfl
@[simp] theorem onChannel_trace : (s.onChannel op).trace = s.trace := rfl
@[simp] theorem onChannel_pending : (s.onChannel op).pendingFunctors = s.pendingFunctors := rfl

end Primitive

/-! ### Writing -/

/-- `sendInLoop` would try the socket, and the socket is gone. -/
def SendFaults (s : Session κ) (answer : Except Errno Nat) : Prop :=
  s.mayWriteDirectly = true ∧ ∃ errno, answer = .error errno ∧ IsFatal errno

theorem not_sendFaults_ok (s : Session κ) (n : Nat) : ¬s.SendFaults (.ok n) := by
  rintro ⟨-, errno, hanswer, -⟩
  cases hanswer

theorem mayWriteDirectly_iff (s : Session κ) :
    s.mayWriteDirectly = true ↔
      s.conn.channel.isWriting = false ∧ s.conn.outputBuffer.content = [] := by
  simp [mayWriteDirectly, ValidBuffer.readableBytes_eq]

/-- What a step that sends or drains output leaves behind: `wrote` are its calls of `::write`. -/
structure Output (s s' : Session κ) (wrote : List Event) (payload : List Byte) : Prop where
  state_eq : s'.conn.state = s.conn.state
  trace_eq : s'.trace = s.trace ++ wrote
  writes : ∀ event ∈ wrote, event.isWrite = true
  bytes : written wrote ++ s'.conn.outputBuffer.content = s.conn.outputBuffer.content ++ payload
  writing : s'.conn.channel.isWriting = true ↔ s'.conn.outputBuffer.content ≠ []

theorem bufferRest_spec (s : Session κ) (rest : List Byte) :
    (s.bufferRest rest).conn.state = s.conn.state ∧
      (s.bufferRest rest).trace = s.trace ∧
      (s.bufferRest rest).conn.outputBuffer.content = s.conn.outputBuffer.content ++ rest ∧
      (s.bufferRest rest).conn.channel.isWriting = true := by
  unfold bufferRest
  simp only [setOutputBuffer_conn, queueWhen_conn]
  split
  · rename_i hwriting
    simp [hwriting]
  · simp [enableWriting]

/-- The attempt of `sendInLoop` to write hands a prefix of `data` to the socket, and only when
nothing is buffered before it. -/
structure Attempt (s : Session κ) (data : List Byte) (direct : DirectWrite κ)
    (wrote : List Event) : Prop where
  conn_eq : direct.session.conn = s.conn
  trace_eq : direct.session.trace = s.trace ++ wrote
  writes : ∀ event ∈ wrote, event.isWrite = true
  bytes : written wrote = data.take direct.nwrote
  remaining_eq : direct.remaining = (data.drop direct.nwrote).length
  behind : direct.nwrote = 0 ∨ s.conn.outputBuffer.content = []

theorem attemptWrite_spec (s : Session κ) (data : List Byte) (answer : Except Errno Nat) :
    ∃ wrote, Attempt s data (s.attemptWrite data answer) wrote := by
  unfold attemptWrite
  split
  · rename_i hdirect
    have hempty := ((s.mayWriteDirectly_iff).mp hdirect).2
    cases answer with
    | ok n =>
        refine ⟨[.write (data.take (min n data.length))], ?_⟩
        refine ⟨?_, ?_, ?_, ?_, ?_, Or.inr hempty⟩ <;>
          simp [directWrite, written, Event.writtenBytes, Event.isWrite]
    | error errno =>
        refine ⟨[.writeError errno], ?_⟩
        refine ⟨?_, ?_, ?_, ?_, ?_, Or.inl rfl⟩ <;>
          simp [directWrite, written, Event.writtenBytes, Event.isWrite]
  · refine ⟨[], ?_⟩
    refine ⟨?_, ?_, ?_, ?_, ?_, Or.inl rfl⟩ <;> simp [written]

theorem attemptWrite_faultError (s : Session κ) (data : List Byte) (answer : Except Errno Nat) :
    (s.attemptWrite data answer).faultError = true ↔ s.SendFaults answer := by
  unfold attemptWrite SendFaults
  split
  · rename_i hdirect
    cases answer with
    | ok n => simp [directWrite]
    | error errno =>
        simp only [directWrite, decide_eq_true_eq, hdirect, true_and, Except.error.injEq,
          exists_eq_left']
        refine ⟨fun h => h.2.2, fun hfatal => ⟨?_, ?_, hfatal⟩⟩ <;>
          rcases hfatal with rfl | rfl <;> decide
  · rename_i hdirect
    simp [hdirect]

/-- `sendInLoop` cuts `data` in two: what the socket takes, and what goes to the buffer. -/
structure SendSplit (s s' : Session κ) (data : List Byte) (wrote : List Event) (n : Nat) : Prop where
  state_eq : s'.conn.state = s.conn.state
  trace_eq : s'.trace = s.trace ++ wrote
  writes : ∀ event ∈ wrote, event.isWrite = true
  bytes : written wrote = data.take n
  content_eq : s'.conn.outputBuffer.content = s.conn.outputBuffer.content ++ data.drop n
  behind : n = 0 ∨ s.conn.outputBuffer.content = []
  writing : s'.conn.channel.isWriting = true ↔ s.conn.channel.isWriting = true ∨ data.drop n ≠ []

theorem sendInLoop_split (s : Session κ) (data : List Byte) (answer : Except Errno Nat)
    (hstate : s.conn.state ≠ .kDisconnected) (hfault : ¬s.SendFaults answer) :
    ∃ wrote n, SendSplit s (s.sendInLoop data answer) data wrote n := by
  obtain ⟨wrote, hattempt⟩ := attemptWrite_spec s data answer
  have hfalse : (s.attemptWrite data answer).faultError = false := by
    rw [← attemptWrite_faultError s data] at hfault
    simpa using hfault
  set direct := s.attemptWrite data answer with hdirect
  have hunfold : s.sendInLoop data answer =
      if 0 < direct.remaining then direct.session.bufferRest (data.drop direct.nwrote)
      else direct.session := by
    simp only [sendInLoop, if_neg hstate, ← hdirect, hfalse, Bool.not_false, Bool.true_and,
      decide_eq_true_eq]
  refine ⟨wrote, direct.nwrote, ?_⟩
  rw [hunfold]
  split
  · rename_i hrest
    rw [hattempt.remaining_eq, List.length_pos_iff] at hrest
    obtain ⟨hstate, htrace, hcontent, hwriting⟩ :=
      direct.session.bufferRest_spec (data.drop direct.nwrote)
    rw [hattempt.conn_eq] at hstate hcontent
    refine ⟨hstate, ?_, hattempt.writes, hattempt.bytes, hcontent, hattempt.behind, ?_⟩
    · rw [htrace, hattempt.trace_eq]
    · exact iff_of_true hwriting (Or.inr hrest)
  · rename_i hnone
    rw [hattempt.remaining_eq, Nat.not_lt, Nat.le_zero, List.length_eq_zero_iff] at hnone
    refine ⟨?_, hattempt.trace_eq, hattempt.writes, hattempt.bytes, ?_, hattempt.behind, ?_⟩
    · rw [hattempt.conn_eq]
    · rw [hattempt.conn_eq, hnone, List.append_nil]
    · rw [hattempt.conn_eq, hnone]
      simp

theorem sendInLoop_of_faults (s : Session κ) (data : List Byte) {errno : Errno}
    (hstate : s.conn.state ≠ .kDisconnected) (hfault : s.SendFaults (.error errno)) :
    s.sendInLoop data (.error errno) = s.emit (.writeError errno) := by
  have htrue := (attemptWrite_faultError s data (.error errno)).mpr hfault
  simp only [sendInLoop, if_neg hstate, htrue, Bool.not_true, Bool.false_and, Bool.false_eq_true,
    if_false]
  simp [attemptWrite, hfault.1, directWrite]

/-- `sendInLoop`, whichever of its branches it takes: `data` goes behind what was buffered, first to
the socket as far as the socket takes it, and then to the buffer. -/
theorem sendInLoop_output (s : Session κ) (data : List Byte) (answer : Except Errno Nat)
    (hstate : s.conn.state ≠ .kDisconnected)
    (hwriting : s.conn.channel.isWriting = true ↔ s.conn.outputBuffer.content ≠ [])
    (hfault : ¬s.SendFaults answer) :
    ∃ wrote, Output s (s.sendInLoop data answer) wrote data := by
  obtain ⟨wrote, n, hsplit⟩ := s.sendInLoop_split data answer hstate hfault
  refine ⟨wrote, hsplit.state_eq, hsplit.trace_eq, hsplit.writes, ?_, ?_⟩
  · -- nothing is buffered ahead of the bytes that went to the socket
    have hahead : data.take n ++ s.conn.outputBuffer.content
        = s.conn.outputBuffer.content ++ data.take n := by
      rcases hsplit.behind with hzero | hempty
      · simp [hzero]
      · simp [hempty]
    calc written wrote ++ (s.sendInLoop data answer).conn.outputBuffer.content
        = data.take n ++ s.conn.outputBuffer.content ++ data.drop n := by
          rw [hsplit.bytes, hsplit.content_eq, List.append_assoc]
      _ = s.conn.outputBuffer.content ++ data := by
          rw [hahead, List.append_assoc, List.take_append_drop]
  · rw [hsplit.writing, hwriting, hsplit.content_eq, Ne, Ne, Ne, List.append_eq_nil_iff, not_and_or]

/-! ### Draining -/

@[simp]
theorem shutdownInLoop_conn (s : Session κ) : s.shutdownInLoop.conn = s.conn := by
  unfold shutdownInLoop
  split <;> rfl

theorem shutdownInLoop_trace (s : Session κ) : s.shutdownInLoop.trace
    = s.trace ++ if s.conn.channel.isWriting then [] else [.shutdownWrite] := by
  unfold shutdownInLoop
  split
  · exact (List.append_nil _).symm
  · rfl

/-- What `handleWrite` leaves behind. It asks for the half close when it drained the buffer of a
connection that is closing. -/
structure Drained (s s' : Session κ) (wrote : List Event) : Prop where
  state_eq : s'.conn.state = s.conn.state
  trace_eq : s'.trace = s.trace ++ wrote ++
    if s.conn.outputBuffer.content ≠ [] ∧ s'.conn.outputBuffer.content = [] ∧
      s.conn.state = .kDisconnecting then [.shutdownWrite] else []
  writes : ∀ event ∈ wrote, event.isWrite = true
  idle : s.conn.outputBuffer.content = [] → wrote = []
  bytes : written wrote ++ s'.conn.outputBuffer.content = s.conn.outputBuffer.content
  writing : s'.conn.channel.isWriting = true ↔ s'.conn.outputBuffer.content ≠ []

theorem finishWrite_spec (s : Session κ) :
    s.finishWrite.conn.state = s.conn.state ∧
      s.finishWrite.conn.outputBuffer = s.conn.outputBuffer ∧
      s.finishWrite.conn.channel.isWriting = false ∧
      s.finishWrite.trace
        = s.trace ++ if s.conn.state = .kDisconnecting then [.shutdownWrite] else [] := by
  have hchannel : (s.disableWriting.queueWhen s.disableWriting.conn.writeCompleteCallback
      .writeCompleteCallback).conn.channel.isWriting = false := by
    simp [disableWriting]
  unfold finishWrite shutdownInLoop
  simp only [hchannel, Bool.false_eq_true, if_false]
  split <;> simp_all [disableWriting]

/-- The session after `::write` has accepted `n` bytes of the output buffer. -/
def wroteOut (s : Session κ) (n : Nat) : Session κ :=
  (s.emit (.write (s.conn.outputBuffer.content.take n))).setOutputBuffer
    (s.conn.outputBuffer.retrieve n)

@[simp]
theorem wroteOut_content (s : Session κ) (n : Nat) :
    (s.wroteOut n).conn.outputBuffer.content = s.conn.outputBuffer.content.drop n := by
  simp [wroteOut]

theorem handleWrite_cases (s : Session κ) (answer : Except Errno Nat) :
    (s.conn.channel.isWriting = false ∧ s.handleWrite answer = s) ∨
      s.conn.channel.isWriting = true ∧
        ((∃ errno, s.handleWrite answer = s.emit (.writeError errno)) ∨
          s.handleWrite answer = s.emit (.write []) ∨
          ∃ n, ((s.wroteOut n).conn.outputBuffer.content = [] ∧
              s.handleWrite answer = (s.wroteOut n).finishWrite) ∨
            ((s.wroteOut n).conn.outputBuffer.content ≠ [] ∧
              s.handleWrite answer = s.wroteOut n)) := by
  unfold handleWrite
  split
  · rename_i hchannel
    refine .inr ⟨hchannel, ?_⟩
    cases answer with
    | error errno => exact .inl ⟨errno, rfl⟩
    | ok accepted =>
        right
        dsimp only
        set n := min accepted s.conn.outputBuffer.readableBytes with hn
        split
        · right
          refine ⟨n, ?_⟩
          split
          · rename_i hzero
            refine .inl ⟨?_, rfl⟩
            rw [ValidBuffer.readableBytes_eq] at hzero
            exact List.eq_nil_of_length_eq_zero hzero
          · rename_i hleft
            refine .inr ⟨?_, rfl⟩
            intro hempty
            apply hleft
            rw [ValidBuffer.readableBytes_eq]
            exact congrArg List.length hempty
        · left
          have hzero : n = 0 := by omega
          rw [hzero, List.take_zero]
  · rename_i hchannel
    exact .inl ⟨by simpa using hchannel, rfl⟩

theorem handleWrite_drained (s : Session κ) (answer : Except Errno Nat)
    (hwriting : s.conn.channel.isWriting = true ↔ s.conn.outputBuffer.content ≠ []) :
    ∃ wrote, Drained s (s.handleWrite answer) wrote := by
  -- an attempt that leaves the buffer as it was
  have hunchanged : ∀ event, s.conn.channel.isWriting = true → event.isWrite = true →
      event.writtenBytes = [] → Drained s (s.emit event) [event] := by
    intro event hchannel hwrite hbytes
    have hcontent := hwriting.mp hchannel
    refine ⟨rfl, ?_, ?_, fun hempty => absurd hempty hcontent, ?_, hwriting⟩
    · simp [hcontent]
    · simp [hwrite]
    · simp [written, hbytes]
  have hwrote : ∀ n, written [Event.write (s.conn.outputBuffer.content.take n)]
      = s.conn.outputBuffer.content.take n := by
    intro n
    simp [written, Event.writtenBytes]
  rcases s.handleWrite_cases answer with ⟨hidle, heq⟩ | ⟨hchannel, ⟨errno, heq⟩ | heq | ⟨n, hn⟩⟩
  · rw [heq]
    have hempty : s.conn.outputBuffer.content = [] := by
      by_contra hne
      rw [hwriting.mpr hne] at hidle
      cases hidle
    refine ⟨[], rfl, ?_, ?_, fun _ => rfl, rfl, hwriting⟩
    · simp [hempty]
    · intro event hmem
      cases hmem
  · rw [heq]
    exact ⟨_, hunchanged _ hchannel rfl rfl⟩
  · rw [heq]
    exact ⟨_, hunchanged _ hchannel rfl rfl⟩
  · have hcontent := hwriting.mp hchannel
    refine ⟨[.write (s.conn.outputBuffer.content.take n)], ?_⟩
    rcases hn with ⟨hempty, heq⟩ | ⟨hleft, heq⟩
    · obtain ⟨hstate, hbuffer, hidle, htrace⟩ := (s.wroteOut n).finishWrite_spec
      rw [heq]
      refine ⟨hstate, ?_, by simp [Event.isWrite], fun hnone => absurd hnone hcontent, ?_, ?_⟩
      · have hbefore : (s.wroteOut n).conn.state = s.conn.state := rfl
        have hwrite : (s.wroteOut n).trace
            = s.trace ++ [.write (s.conn.outputBuffer.content.take n)] := rfl
        rw [htrace, hbefore, hwrite, hbuffer, hempty]
        simp [hcontent]
      · rw [hbuffer, hwrote, wroteOut_content, List.take_append_drop]
      · rw [hbuffer, hidle, hempty]
        simp
    · rw [heq]
      refine ⟨rfl, ?_, by simp [Event.isWrite], fun hnone => absurd hnone hcontent, ?_, ?_⟩
      · rw [if_neg fun hdone => hleft hdone.2.1, List.append_nil]
        rfl
      · rw [hwrote, wroteOut_content, List.take_append_drop]
      · exact iff_of_true hchannel hleft

/-! ### Files -/

@[simp]
theorem sendFileInLoop_conn (file : Nat → List Byte) (s : Session κ)
    (fileDescriptor offset count : Nat) (answer : Except Errno Nat) :
    (s.sendFileInLoop file fileDescriptor offset count answer).conn = s.conn := by
  unfold sendFileInLoop
  split
  · rfl
  · split
    · cases answer <;> simp
    · simp

theorem sendFileInLoop_events (file : Nat → List Byte) (s : Session κ)
    (fileDescriptor offset count : Nat) (answer : Except Errno Nat) :
    ∃ events, (∀ event ∈ events, event.isSendfile = true) ∧
      (s.sendFileInLoop file fileDescriptor offset count answer).trace = s.trace ++ events := by
  unfold sendFileInLoop
  split
  · exact ⟨[], by simp, (List.append_nil _).symm⟩
  · split
    · cases answer with
      | ok n =>
          exact ⟨[.sendfile (slice (file fileDescriptor) offset (min n count))],
            by simp [Event.isSendfile], by simp⟩
      | error errno => exact ⟨[.sendfileError errno], by simp [Event.isSendfile], by simp⟩
    · exact ⟨[], by simp, by simp⟩

/-- Bytes of a file do not go through the output buffer. -/
theorem sendFileInLoop_silent (file : Nat → List Byte) (s : Session κ)
    (fileDescriptor offset count : Nat) (answer : Except Errno Nat) :
    ∃ events, Silent events ∧
      (s.sendFileInLoop file fileDescriptor offset count answer).trace = s.trace ++ events := by
  obtain ⟨events, hevents, htrace⟩ := s.sendFileInLoop_events file fileDescriptor offset count answer
  refine ⟨events, ?_, htrace⟩
  intro event hmem
  have hsendfile := hevents event hmem
  revert hsendfile
  cases event <;> simp [Event.isSendfile, Event.isWrite, Event.writtenBytes, Event.acceptedBytes]

/-! ### Reading -/

theorem handleRead_ok (s : Session κ) {ready : List Byte} (hdata : ready ≠ []) :
    s.handleRead (.ok ready) =
      ({ s with conn := { s.conn with
          inputBuffer := (s.conn.inputBuffer.readFd (.ok ready)).1 } } : Session κ).emitWhen
        s.conn.messageCallback .messageCallback := by
  have hne := mt (ValidBuffer.readFd_zero_iff s.conn.inputBuffer ready).mp hdata
  simp only [handleRead]
  split
  · rename_i hzero
    exact absurd hzero hne
  · rfl
  · rename_i herror
    cases herror

/-- A read that is not the end of the stream leaves the output alone. -/
theorem handleRead_of_data (s : Session κ) {answer : Except Errno (List Byte)}
    (hdata : answer ≠ .ok []) :
    ∃ events, Callbacks events ∧ (s.handleRead answer).trace = s.trace ++ events ∧
      (s.handleRead answer).pendingFunctors = s.pendingFunctors ∧
      (s.handleRead answer).conn
        = { s.conn with inputBuffer := (s.conn.inputBuffer.readFd answer).1 } := by
  cases answer with
  | error errno => exact ⟨[], fun _ hmem => absurd hmem List.not_mem_nil,
      (List.append_nil _).symm, rfl, rfl⟩
  | ok ready =>
      rw [s.handleRead_ok fun heq => hdata (by rw [heq])]
      exact ⟨if s.conn.messageCallback then [.messageCallback] else [], callbacks_ite _ rfl, by simp,
        by simp, by simp⟩

theorem handleRead_eof (s : Session κ) :
    s.handleRead (.ok []) =
      { s with conn := { s.conn with
          inputBuffer := (s.conn.inputBuffer.readFd (.ok [])).1 } }.handleClose := by
  have hzero : (s.conn.inputBuffer.readFd (.ok [])).2 = .ok 0 :=
    (ValidBuffer.readFd_zero_iff _ _).mpr rfl
  simp only [handleRead, hzero]

/-! ### The beginning and the end -/

theorem connectEstablished_trace (s : Session κ) : s.connectEstablished.trace = s.trace ++
    if s.conn.connectionCallback then [.connectionCallback true] else [] := by
  simp [connectEstablished, enableReading, tie, TcpConnection.connected]

theorem connectEstablished_closeCallback (s : Session κ) :
    s.connectEstablished.conn.closeCallback = s.conn.closeCallback := by
  simp [connectEstablished, enableReading, tie]

theorem connectEstablished_spec (s : Session κ) :
    s.connectEstablished.conn.state = .kConnected ∧
      s.connectEstablished.conn.outputBuffer = s.conn.outputBuffer ∧
      s.connectEstablished.conn.channel.isWriting = s.conn.channel.isWriting ∧
      s.connectEstablished.pendingFunctors = s.pendingFunctors ∧
      ∃ events, Callbacks events ∧ s.connectEstablished.trace = s.trace ++ events := by
  have htie : (s.setState .kConnected).tie.conn.channel.isWriting = s.conn.channel.isWriting := rfl
  refine ⟨?_, ?_, ?_, ?_, if s.conn.connectionCallback then [.connectionCallback true] else [],
    callbacks_ite _ rfl, ?_⟩
  · simp [connectEstablished, enableReading, tie]
  · simp [connectEstablished, enableReading, tie]
  · simp [connectEstablished, enableReading, htie]
  · simp [connectEstablished, enableReading]
  · exact s.connectEstablished_trace

end Session

end MuduoCore
