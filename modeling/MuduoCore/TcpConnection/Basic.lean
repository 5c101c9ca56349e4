import MuduoCore.Buffer.ValidBuffer
import MuduoCore.Poller.Basic

/-!
# TcpConnection

`src/TcpConnection.cpp` and `src/Channel.cpp`, as executed on the thread of the connection's loop. A
member function takes the connection together with the parts of the loop it uses, and the answers of
the kernel to the system calls it makes. User callbacks are recorded in the trace at the place where
the source calls them; what they do there are further calls of the connection.
-/

namespace MuduoCore

def EAGAIN : Errno := 11
def EWOULDBLOCK : Errno := 11
def EPIPE : Errno := 32
def ECONNRESET : Errno := 104

inductive StateE where
  | kDisconnected
  | kConnecting
  | kConnected
  | kDisconnecting
  deriving DecidableEq, Repr

/-- A callback member is a `std::function` that may be empty; here, whether it is set. -/
structure TcpConnection where
  state : StateE
  channel : Channel
  connectionCallback : Bool
  messageCallback : Bool
  writeCompleteCallback : Bool
  highWaterMarkCallback : Bool
  closeCallback : Bool
  highWaterMark : Nat
  inputBuffer : ValidBuffer
  outputBuffer : ValidBuffer

/-- The functors that the member functions of a connection queue in its loop. -/
inductive Task where
  | sendFileInLoop (fileDescriptor offset count : Nat)
  | writeCompleteCallback
  | highWaterMarkCallback (length : Nat)
  deriving DecidableEq, Repr

/-- What can be seen of a connection from outside: accepted calls, system calls with their results,
and callbacks. -/
inductive Event where
  | send (payload : List Byte)
  | sendFile (fileDescriptor offset count : Nat)
  | write (accepted : List Byte)
  | writeError (errno : Errno)
  | sendfile (sent : List Byte)
  | sendfileError (errno : Errno)
  | shutdownWrite
  | connectionCallback (connected : Bool)
  | messageCallback
  | closeCallback
  deriving DecidableEq, Repr

/-- A connection on its loop: the poller, the functors it queued and what happened so far. `self` is
the `Channel *` that the poller knows. -/
structure Session (κ : Type*) where
  self : κ
  conn : TcpConnection
  poller : EPollPoller κ
  pendingFunctors : List Task
  trace : List Event

namespace TcpConnection

/-- The constructor, and the setters that `newConnection` and the user call on it. -/
def new (fd highWaterMark bufferSize : Nat) (connectionCallback messageCallback
    writeCompleteCallback highWaterMarkCallback closeCallback : Bool) : TcpConnection :=
  { state := .kConnecting
    channel := Channel.new fd
    connectionCallback := connectionCallback
    messageCallback := messageCallback
    writeCompleteCallback := writeCompleteCallback
    highWaterMarkCallback := highWaterMarkCallback
    closeCallback := closeCallback
    highWaterMark := highWaterMark
    inputBuffer := ValidBuffer.new bufferSize
    outputBuffer := ValidBuffer.new bufferSize }

def connected (c : TcpConnection) : Bool := c.state = .kConnected

end TcpConnection

namespace Session

variable {κ : Type*}

def setState (s : Session κ) (state : StateE) : Session κ :=
  { s with conn := { s.conn with state := state } }

def emit (s : Session κ) (event : Event) : Session κ := { s with trace := s.trace ++ [event] }

def queueInLoop (s : Session κ) (task : Task) : Session κ :=
  { s with pendingFunctors := s.pendingFunctors ++ [task] }

/-- `if (cond) loop_->queueInLoop(task)`. -/
def queueWhen (s : Session κ) (cond : Bool) (task : Task) : Session κ :=
  if cond then s.queueInLoop task else s

def emitWhen (s : Session κ) (cond : Bool) (event : Event) : Session κ :=
  if cond then s.emit event else s

/-- An operation of `channel_`, through the poller of the loop. -/
def onChannel (s : Session κ) (op : EPollPoller κ → κ → Channel → EPollPoller κ × Channel) :
    Session κ :=
  let result := op s.poller s.self s.conn.channel
  { s with poller := result.1, conn := { s.conn with channel := result.2 } }

def enableReading (s : Session κ) : Session κ :=
  s.onChannel fun p ptr c => c.enableReading p ptr

def enableWriting (s : Session κ) : Session κ :=
  s.onChannel fun p ptr c => c.enableWriting p ptr

def disableWriting (s : Session κ) : Session κ :=
  s.onChannel fun p ptr c => c.disableWriting p ptr

def disableAll (s : Session κ) : Session κ :=
  s.onChannel fun p ptr c => c.disableAll p ptr

def remove (s : Session κ) : Session κ :=
  s.onChannel fun p ptr c => c.remove p ptr

def tie (s : Session κ) : Session κ :=
  { s with conn := { s.conn with channel := { s.conn.channel with tied := true } } }

def setOutputBuffer (s : Session κ) (buffer : ValidBuffer) : Session κ :=
  { s with conn := { s.conn with outputBuffer := buffer } }

/-! ### Sending -/

/-- The locals of `sendInLoop` after its attempt to write directly. -/
structure DirectWrite (κ : Type*) where
  session : Session κ
  nwrote : Nat
  remaining : Nat
  faultError : Bool

/-- `::write(channel_->fd(), data, len)`: the kernel accepts a prefix of `data`, or fails. -/
def directWrite (s : Session κ) (data : List Byte) (answer : Except Errno Nat) : DirectWrite κ :=
  match answer with
  | .ok n =>
      let nwrote := min n data.length
      let remaining := data.length - nwrote
      let s := s.emit (.write (data.take nwrote))
      let s := s.queueWhen (remaining == 0 && s.conn.writeCompleteCallback) .writeCompleteCallback
      ⟨s, nwrote, remaining, false⟩
  | .error errno =>
      let faultError : Bool :=
        errno ≠ EWOULDBLOCK ∧ errno ≠ EAGAIN ∧ (errno = EPIPE ∨ errno = ECONNRESET)
      ⟨s.emit (.writeError errno), 0, data.length, faultError⟩

/-- The second half of `sendInLoop`: what was not written waits in the output buffer. -/
def bufferRest (s : Session κ) (rest : List Byte) : Session κ :=
  let oldLen := s.conn.outputBuffer.readableBytes
  let crossed : Bool := s.conn.highWaterMark ≤ oldLen + rest.length ∧ oldLen < s.conn.highWaterMark
  let s := s.queueWhen (crossed && s.conn.highWaterMarkCallback)
    (.highWaterMarkCallback (oldLen + rest.length))
  let s := s.setOutputBuffer (s.conn.outputBuffer.append rest)
  if s.conn.channel.isWriting then s else s.enableWriting

/-- Whether `sendInLoop` and `sendFileInLoop` try the socket themselves. -/
def mayWriteDirectly (s : Session κ) : Bool :=
  !s.conn.channel.isWriting && s.conn.outputBuffer.readableBytes == 0

/-- The first half of `sendInLoop`. -/
def attemptWrite (s : Session κ) (data : List Byte) (answer : Except Errno Nat) : DirectWrite κ :=
  if s.mayWriteDirectly then s.directWrite data answer else ⟨s, 0, data.length, false⟩

def sendInLoop (s : Session κ) (data : List Byte) (answer : Except Errno Nat) : Session κ :=
  if s.conn.state = .kDisconnected then s
  else
    let direct := s.attemptWrite data answer
    if !direct.faultError && 0 < direct.remaining then
      direct.session.bufferRest (data.drop direct.nwrote)
    else direct.session

/-- `send` on the thread of the loop. -/
def send (s : Session κ) (data : List Byte) (answer : Except Errno Nat) : Session κ :=
  if s.conn.state = .kConnected then (s.emit (.send data)).sendInLoop data answer else s

/-- `::sendfile` moves bytes of the file from `offset` on: at most `remaining`, and none from the
end of the file on. -/
def sendFileInLoop (file : Nat → List Byte) (s : Session κ)
    (fileDescriptor offset count : Nat) (answer : Except Errno Nat) : Session κ :=
  if s.conn.state = .kDisconnecting then s
  else if s.mayWriteDirectly then
    match answer with
    | .ok n =>
        let sent := slice (file fileDescriptor) offset (min n count)
        let remaining := count - sent.length
        let s := s.emit (.sendfile sent)
        let s := s.queueWhen (remaining == 0 && s.conn.writeCompleteCallback) .writeCompleteCallback
        s.queueWhen (0 < remaining) (.sendFileInLoop fileDescriptor (offset + sent.length) remaining)
    | .error errno =>
        let faultError : Bool := errno = EPIPE ∨ errno = ECONNRESET
        let s := s.emit (.sendfileError errno)
        s.queueWhen (!faultError && 0 < count) (.sendFileInLoop fileDescriptor offset count)
  else s.queueWhen (0 < count) (.sendFileInLoop fileDescriptor offset count)

/-- `sendFile` on the thread of the loop. -/
def sendFile (file : Nat → List Byte) (s : Session κ)
    (fileDescriptor offset count : Nat) (answer : Except Errno Nat) : Session κ :=
  if s.conn.connected then
    (s.emit (.sendFile fileDescriptor offset count)).sendFileInLoop file fileDescriptor offset count
      answer
  else s

/-! ### Shutting down -/

def shutdownInLoop (s : Session κ) : Session κ :=
  if s.conn.channel.isWriting then s else s.emit .shutdownWrite

/-- `shutdown` on the thread of the loop, where `runInLoop` calls the functor at once. -/
def shutdown (s : Session κ) : Session κ :=
  if s.conn.state = .kConnected then (s.setState .kDisconnecting).shutdownInLoop else s

/-! ### Life cycle -/

def connectEstablished (s : Session κ) : Session κ :=
  let s := (s.setState .kConnected).tie.enableReading
  s.emitWhen s.conn.connectionCallback (.connectionCallback s.conn.connected)

def connectDestroyed (s : Session κ) : Session κ :=
  let s := if s.conn.state = .kConnected then
      let s := (s.setState .kDisconnected).disableAll
      s.emitWhen s.conn.connectionCallback (.connectionCallback s.conn.connected)
    else s
  s.remove

def handleClose (s : Session κ) : Session κ :=
  let s := (s.setState .kDisconnected).disableAll
  let s := s.emitWhen s.conn.connectionCallback (.connectionCallback s.conn.connected)
  s.emitWhen s.conn.closeCallback .closeCallback

/-- Only reads and logs the error of the socket. -/
def handleError (s : Session κ) : Session κ := s

/-! ### Events -/

def handleRead (s : Session κ) (answer : Except Errno (List Byte)) : Session κ :=
  let result := s.conn.inputBuffer.readFd answer
  let s := { s with conn := { s.conn with inputBuffer := result.1 } }
  match result.2 with
  | .ok 0 => s.handleClose
  | .ok _ => s.emitWhen s.conn.messageCallback .messageCallback
  | .error _ => s.handleError

/-- `handleWrite`, once the output buffer has run empty. -/
def finishWrite (s : Session κ) : Session κ :=
  let s := s.disableWriting
  let s := s.queueWhen s.conn.writeCompleteCallback .writeCompleteCallback
  if s.conn.state = .kDisconnecting then s.shutdownInLoop else s

/-- `outputBuffer_.writeFd` offers the whole content to `::write`. -/
def handleWrite (s : Session κ) (answer : Except Errno Nat) : Session κ :=
  if s.conn.channel.isWriting then
    match answer with
    | .error errno => s.emit (.writeError errno)
    | .ok accepted =>
        let n := min accepted s.conn.outputBuffer.readableBytes
        let s := s.emit (.write (s.conn.outputBuffer.content.take n))
        if n > 0 then
          let s := s.setOutputBuffer (s.conn.outputBuffer.retrieve n)
          if s.conn.outputBuffer.readableBytes = 0 then s.finishWrite else s
        else s
  else s

end Session

end MuduoCore
