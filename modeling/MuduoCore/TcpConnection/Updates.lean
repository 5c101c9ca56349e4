import MuduoCore.TcpConnection.Effects
import MuduoCore.TcpConnection.Runs

/-!
# The updates that keep a connection up

The member functions that do not close the connection are sequences of a few updates. What each of
them keeps, all these functions keep.
-/

namespace MuduoCore

variable {κ : Type*}

/-- The update sequences of a connection that stays up. -/
inductive Updates : Session κ → Session κ → Prop where
  | refl (s : Session κ) : Updates s s
  | trans {s t u : Session κ} : Updates s t → Updates t u → Updates s u
  | emit (s : Session κ) {event : Event} (hdown : event ≠ .connectionCallback false)
      (hclose : event ≠ .closeCallback) : Updates s (s.emit event)
  | queueInLoop (s : Session κ) (task : Task) : Updates s (s.queueInLoop task)
  | setInputBuffer (s : Session κ) (buffer : ValidBuffer) :
      Updates s { s with conn := { s.conn with inputBuffer := buffer } }
  | setOutputBuffer (s : Session κ) (buffer : ValidBuffer) : Updates s (s.setOutputBuffer buffer)
  | enableWriting (s : Session κ) : Updates s s.enableWriting
  | disableWriting (s : Session κ) : Updates s s.disableWriting
  | setDisconnecting (s : Session κ) (hstate : s.conn.state = .kConnected) :
      Updates s (s.setState .kDisconnecting)

namespace Updates

variable (s : Session κ)

theorem queueWhen (cond : Bool) (task : Task) : Updates s (s.queueWhen cond task) := by
  cases cond
  · exact refl s
  · exact queueInLoop s task

theorem emitWhen (cond : Bool) {event : Event} (hdown : event ≠ .connectionCallback false)
    (hclose : event ≠ .closeCallback) : Updates s (s.emitWhen cond event) := by
  cases cond
  · exact refl s
  · exact emit s hdown hclose

theorem attemptWrite (data : List Byte) (answer : Except Errno Nat) :
    Updates s (s.attemptWrite data answer).session := by
  unfold Session.attemptWrite
  split
  · cases answer with
    | ok n => exact (emit s (by simp) (by simp)).trans (queueWhen _ _ _)
    | error errno => exact emit s (by simp) (by simp)
  · exact refl s

theorem bufferRest (rest : List Byte) : Updates s (s.bufferRest rest) := by
  unfold Session.bufferRest
  dsimp only
  split
  · exact (queueWhen s _ _).trans (setOutputBuffer _ _)
  · exact ((queueWhen s _ _).trans (setOutputBuffer _ _)).trans (enableWriting _)

theorem sendInLoop (data : List Byte) (answer : Except Errno Nat) :
    Updates s (s.sendInLoop data answer) := by
  unfold Session.sendInLoop
  split
  · exact refl s
  · dsimp only
    split
    · exact (attemptWrite s data answer).trans (bufferRest _ _)
    · exact attemptWrite s data answer

theorem send (data : List Byte) (answer : Except Errno Nat) : Updates s (s.send data answer) := by
  unfold Session.send
  split
  · exact (emit s (by simp) (by simp)).trans (sendInLoop _ data answer)
  · exact refl s

theorem sendFileInLoop (file : Nat → List Byte) (fileDescriptor offset count : Nat)
    (answer : Except Errno Nat) :
    Updates s (s.sendFileInLoop file fileDescriptor offset count answer) := by
  unfold Session.sendFileInLoop
  split
  · exact refl s
  · split
    · cases answer with
      | ok n => exact ((emit s (by simp) (by simp)).trans (queueWhen _ _ _)).trans (queueWhen _ _ _)
      | error errno => exact (emit s (by simp) (by simp)).trans (queueWhen _ _ _)
    · exact queueWhen s _ _

theorem sendFile (file : Nat → List Byte) (fileDescriptor offset count : Nat)
    (answer : Except Errno Nat) :
    Updates s (s.sendFile file fileDescriptor offset count answer) := by
  unfold Session.sendFile
  split
  · exact (emit s (by simp) (by simp)).trans (sendFileInLoop _ file _ _ _ answer)
  · exact refl s

theorem shutdownInLoop : Updates s s.shutdownInLoop := by
  unfold Session.shutdownInLoop
  split
  · exact refl s
  · exact emit s (by simp) (by simp)

theorem shutdown : Updates s s.shutdown := by
  unfold Session.shutdown
  split
  · rename_i hstate
    exact (setDisconnecting s hstate).trans (shutdownInLoop _)
  · exact refl s

theorem handleRead {answer : Except Errno (List Byte)} (hdata : answer ≠ .ok []) :
    Updates s (s.handleRead answer) := by
  have hinput := setInputBuffer s (s.conn.inputBuffer.readFd answer).1
  have hmore : (s.conn.inputBuffer.readFd answer).2 ≠ .ok 0 := by
    cases answer with
    | error errno => simp [ValidBuffer.readFd, Buffer.readFd]
    | ok ready =>
        rw [Ne, ValidBuffer.readFd_zero_iff]
        exact fun heq => hdata (by rw [heq])
  simp only [Session.handleRead]
  split
  · rename_i hzero
    exact absurd hzero hmore
  · exact hinput.trans (emitWhen _ _ (by simp) (by simp))
  · exact hinput

theorem finishWrite : Updates s s.finishWrite := by
  have hdone := (disableWriting s).trans
    (queueWhen s.disableWriting s.disableWriting.conn.writeCompleteCallback .writeCompleteCallback)
  unfold Session.finishWrite
  dsimp only
  split
  · exact hdone.trans (shutdownInLoop _)
  · exact hdone

theorem handleWrite (answer : Except Errno Nat) : Updates s (s.handleWrite answer) := by
  have hwrote : ∀ n, Updates s (s.wroteOut n) :=
    fun n => (emit s (by simp) (by simp)).trans (setOutputBuffer _ _)
  rcases s.handleWrite_cases answer with
    ⟨-, heq⟩ | ⟨-, ⟨errno, heq⟩ | heq | ⟨n, ⟨-, heq⟩ | ⟨-, heq⟩⟩⟩ <;> rw [heq]
  · exact refl s
  · exact emit s (by simp) (by simp)
  · exact emit s (by simp) (by simp)
  · exact (hwrote n).trans (finishWrite _)
  · exact hwrote n

theorem runTask (file : Nat → List Byte) (answer : Except Errno Nat) (task : Task) :
    Updates s (Running.runTask file s answer task) := by
  cases task with
  | sendFileInLoop fileDescriptor offset count =>
      exact sendFileInLoop s file fileDescriptor offset count answer
  | writeCompleteCallback => exact refl s
  | highWaterMarkCallback _ => exact refl s

end Updates

/-! ### What they keep -/

/-- The channel is in the kernel's list, with the interest in reading that `connectEstablished` gave
it. -/
structure Watching (c : Channel) : Prop where
  index_eq : c.index = .kAdded
  events : c.events = Channel.kReadEvent ∨
    c.events = Channel.kReadEvent ||| Channel.kWriteEvent

theorem Watching.setEvents (c : Channel) (p : EPollPoller κ) (ptr : κ) {events : EventMask}
    (hevents : events = Channel.kReadEvent ∨
      events = Channel.kReadEvent ||| Channel.kWriteEvent) :
    Watching (Channel.setEvents p ptr c events).2 := by
  have hsome : events ≠ Channel.kNoneEvent := by
    rcases hevents with rfl | rfl <;> decide
  refine ⟨?_, ?_⟩
  · rw [Channel.setEvents, EPollPoller.updateChannel_channel]
    apply if_neg
    rintro ⟨-, hnone⟩
    exact hsome (by simpa [Channel.isNoneEvent] using hnone)
  · rw [Channel.setEvents_events]
    exact hevents

/-- The connection has gone neither down nor back, and nobody was told so. -/
structure StaysUp (s s' : Session κ) : Prop where
  watching : Watching s.conn.channel → Watching s'.conn.channel
  fd_eq : s'.conn.channel.fd = s.conn.channel.fd
  self_eq : s'.self = s.self
  closeCallback_eq : s'.conn.closeCallback = s.conn.closeCallback
  messageCallback_eq : s'.conn.messageCallback = s.conn.messageCallback
  state_eq : s'.conn.state = s.conn.state ∨
    s.conn.state = .kConnected ∧ s'.conn.state = .kDisconnecting
  trace_eq : ∃ more, s'.trace = s.trace ++ more ∧
    .connectionCallback false ∉ more ∧ .closeCallback ∉ more

namespace StaysUp

variable {s t u : Session κ}

theorem state_ne (h : StaysUp s t) {state : StateE} (hstate : state ≠ .kDisconnecting)
    (hne : s.conn.state ≠ state) : t.conn.state ≠ state := by
  obtain heq | ⟨-, heq⟩ := h.state_eq <;> rw [heq]
  · exact hne
  · exact hstate.symm

theorem state_eq_of_ne (h : StaysUp s t) (hne : s.conn.state ≠ .kConnected) :
    t.conn.state = s.conn.state :=
  h.state_eq.resolve_right fun hclosing => hne hclosing.1

theorem trans (hfst : StaysUp s t) (hsnd : StaysUp t u) : StaysUp s u := by
  obtain ⟨more, hmore, hdown, hclose⟩ := hfst.trace_eq
  obtain ⟨last, hlast, hdownLast, hcloseLast⟩ := hsnd.trace_eq
  refine ⟨fun h => hsnd.watching (hfst.watching h), hsnd.fd_eq.trans hfst.fd_eq,
    hsnd.self_eq.trans hfst.self_eq, hsnd.closeCallback_eq.trans hfst.closeCallback_eq,
    hsnd.messageCallback_eq.trans hfst.messageCallback_eq, ?_, more ++ last, ?_, ?_, ?_⟩
  · obtain hsame | ⟨hbefore, hafter⟩ := hfst.state_eq
    · rw [← hsame]
      exact hsnd.state_eq
    · refine .inr ⟨hbefore, ?_⟩
      rw [hsnd.state_eq_of_ne (by rw [hafter]; decide), hafter]
  · rw [hlast, hmore, List.append_assoc]
  · simp [hdown, hdownLast]
  · simp [hclose, hcloseLast]

/-- An update of the channel alone. -/
theorem onChannel_setEvents (s : Session κ) (events : EventMask)
    (hevents : Watching s.conn.channel →
      events = Channel.kReadEvent ∨ events = Channel.kReadEvent ||| Channel.kWriteEvent) :
    StaysUp s (s.onChannel fun p ptr c => Channel.setEvents p ptr c events) :=
  ⟨fun h => .setEvents _ _ _ (hevents h), Channel.setEvents_fd _ _ _ _, rfl, rfl, rfl, .inl rfl,
    [], (List.append_nil _).symm, List.not_mem_nil, List.not_mem_nil⟩

/-- An update that leaves the channel, the state and the trace as they are. -/
theorem of_same {conn : TcpConnection} {pending : List Task}
    (hchannel : conn.channel = s.conn.channel) (hclose : conn.closeCallback = s.conn.closeCallback)
    (hmessage : conn.messageCallback = s.conn.messageCallback) (hstate : conn.state = s.conn.state) :
    StaysUp s { s with conn := conn, pendingFunctors := pending } := by
  refine ⟨?_, ?_, rfl, hclose, hmessage, .inl hstate, [], (List.append_nil _).symm,
    List.not_mem_nil, List.not_mem_nil⟩
  · exact fun h => by rwa [hchannel]
  · rw [hchannel]

end StaysUp

theorem Updates.staysUp {s s' : Session κ} (h : Updates s s') : StaysUp s s' := by
  induction h with
  | refl s => exact .of_same rfl rfl rfl rfl
  | trans _ _ ihfst ihsnd => exact ihfst.trans ihsnd
  | @emit s event hdown hclose =>
      exact ⟨id, rfl, rfl, rfl, rfl, .inl rfl, [event], rfl, by simpa using hdown.symm,
        by simpa using hclose.symm⟩
  | queueInLoop s task => exact .of_same rfl rfl rfl rfl
  | setInputBuffer s buffer => exact .of_same rfl rfl rfl rfl
  | setOutputBuffer s buffer => exact .of_same rfl rfl rfl rfl
  | enableWriting s =>
      apply StaysUp.onChannel_setEvents
      rintro ⟨-, hevents | hevents⟩ <;> rw [hevents]
      · exact .inr rfl
      · exact .inr (by decide)
  | disableWriting s =>
      apply StaysUp.onChannel_setEvents
      rintro ⟨-, hevents | hevents⟩ <;> rw [hevents]
      · exact .inl (by decide)
      · exact .inl (by decide)
  | setDisconnecting s hstate =>
      exact ⟨id, rfl, rfl, rfl, rfl, .inr ⟨hstate, rfl⟩, [], (List.append_nil _).symm,
        List.not_mem_nil, List.not_mem_nil⟩

theorem connectEstablished_watching {s : Session κ}
    (hnone : s.conn.channel.events = Channel.kNoneEvent) :
    Watching s.connectEstablished.conn.channel := by
  have hwatch : Watching (s.setState .kConnected).tie.enableReading.conn.channel := by
    apply Watching.setEvents
    left
    change s.conn.channel.events ||| Channel.kReadEvent = _
    rw [hnone]
    decide
  simpa [Session.connectEstablished] using hwatch

end MuduoCore
