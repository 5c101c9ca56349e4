import MuduoCore.Lib.BatchQueue
import MuduoCore.TcpServer.Basic

/-!
# A server between threads

`src/TcpServer.cpp` with its main loop, the sub loops of its pool and any number of other threads, from
`start` to the destructor. Every function is executed by a thread, which works off a stack of what is
left to do in its current call, and `log` says which thread executed what. On which loop a thread runs
is asked by `runInLoop` and `send` only.

A connection may be destroyed at any moment here, which allows more than the code does: who holds it
plays no part in what thread a function is executed on.
-/

namespace MuduoCore

/-- Loop 0 is the main loop, and loop `i + 1` is `loops_[i]` of the pool. -/
inductive ServerThread (θ : Type*) where
  | loop (index : Nat)
  | user (thread : θ)
  deriving DecidableEq, Repr

inductive LoopFunctor where
  | server (functor : ServerFunctor)
  | sendInLoop (conn : Nat) (data : List Byte)
  | shutdownInLoop (conn : Nat)
  | listen
  deriving DecidableEq, Repr

/-- What is left to do in the call that a thread is in. `send`, `sendFile` and `shutdown` are past the
test of `state_`, and `setState` is past the store of `shutdown`; `startPool` has threads left to start,
and `joinPool` joins the thread of a loop and then those behind it. -/
inductive ThreadFrame where
  | frame (frame : Frame)
  | send (conn : Nat) (data : List Byte)
  | sendFile (conn fileDescriptor offset count : Nat)
  | shutdown (conn : Nat)
  | setState (conn : Nat)
  | startPool (left : Nat)
  | listen
  | destructor
  | joinPool (loop : Nat)
  deriving DecidableEq, Repr

/-- The functions of a connection that the log knows, and those of its loop that it calls for its
channel. -/
inductive MemberFunction where
  | connectEstablished
  | connectDestroyed
  | handleRead
  | handleWrite
  | handleClose
  | sendInLoop
  | sendFileInLoop
  | shutdownInLoop
  | updateChannel
  | removeChannel
  deriving DecidableEq, Repr

/-- `insert` and `erase` are the changes that `newConnection` and `removeConnectionInLoop` make to
`connections_`. -/
inductive Execution where
  | member (conn : Nat) (function : MemberFunction)
  | removeConnection (conn : Nat)
  | removeConnectionInLoop (conn : Nat)
  | insert (conn : Nat)
  | erase (conn : Nat)
  | getNextLoop
  | listen
  deriving DecidableEq, Repr

/-- `late` says that the `TcpServer` has been destroyed. -/
structure LogEntry (θ : Type*) where
  thread : ServerThread θ
  execution : Execution
  late : Bool
  deriving DecidableEq, Repr

/-! ### Member functions of a connection -/

/-- A call of a member function, with the answer of the kernel to its system call. -/
inductive Member where
  | connectEstablished
  | connectDestroyed
  | handleClose
  | handleError
  | handleRead (answer : Except Errno (List Byte))
  | handleWrite (answer : Except Errno Nat)
  | sendInLoop (data : List Byte) (answer : Except Errno Nat)
  | sendFileInLoop (fileDescriptor offset count : Nat) (answer : Except Errno Nat)
  | shutdownInLoop

namespace Member

variable {κ : Type*}

def run (file : Nat → List Byte) (s : Session κ) : Member → Session κ
  | connectEstablished => s.connectEstablished
  | connectDestroyed => s.connectDestroyed
  | handleClose => s.handleClose
  | handleError => s.handleError
  | handleRead answer => s.handleRead answer
  | handleWrite answer => s.handleWrite answer
  | sendInLoop data answer => s.sendInLoop data answer
  | sendFileInLoop fileDescriptor offset count answer =>
      s.sendFileInLoop file fileDescriptor offset count answer
  | shutdownInLoop => s.shutdownInLoop

/-- `sendInLoop` comes to its `enableWriting`. -/
def Buffers (s : Session κ) (data : List Byte) (answer : Except Errno Nat) : Prop :=
  s.conn.state ≠ .kDisconnected ∧ s.conn.channel.isWriting = false ∧
    (s.attemptWrite data answer).faultError = false ∧ 0 < (s.attemptWrite data answer).remaining

/-- `handleWrite` writes the last bytes of the output buffer, and comes to its `disableWriting`. -/
def Drains (s : Session κ) : Except Errno Nat → Prop
  | .ok accepted => s.conn.channel.isWriting = true ∧ 0 < s.conn.outputBuffer.readableBytes ∧
      s.conn.outputBuffer.readableBytes ≤ accepted
  | .error _ => False

instance (s : Session κ) (data : List Byte) (answer : Except Errno Nat) :
    Decidable (Buffers s data answer) :=
  inferInstanceAs (Decidable (_ ∧ _))

instance (s : Session κ) : (answer : Except Errno Nat) → Decidable (Drains s answer)
  | .ok _ => inferInstanceAs (Decidable (_ ∧ _))
  | .error _ => inferInstanceAs (Decidable False)

/-- The functions that are executed in the call, with those that they call themselves. -/
def executes (s : Session κ) : Member → List MemberFunction
  | connectEstablished => [.connectEstablished, .updateChannel]
  | connectDestroyed =>
      .connectDestroyed ::
        (if s.conn.state = .kConnected then [.updateChannel] else []) ++ [.removeChannel]
  | handleClose => [.handleClose, .updateChannel]
  | handleError => []
  | handleRead answer =>
      .handleRead ::
        match (s.conn.inputBuffer.readFd answer).2 with
        | .ok 0 => [.handleClose, .updateChannel]
        | _ => []
  | handleWrite answer =>
      .handleWrite ::
        if Drains s answer then
          .updateChannel :: if s.conn.state = .kDisconnecting then [.shutdownInLoop] else []
        else []
  | sendInLoop data answer =>
      .sendInLoop :: if Buffers s data answer then [.updateChannel] else []
  | sendFileInLoop _ _ _ _ => [.sendFileInLoop]
  | shutdownInLoop => [.shutdownInLoop]

end Member

/-! ### States and actions -/

structure IoLoop where
  poller : EPollPoller Nat
  queue : BatchQueue LoopFunctor
  phase : Phase
  activeChannels : List ActiveChannel
  quit : Bool
  exited : Bool

def IoLoop.new : IoLoop where
  poller := EPollPoller.new
  queue := BatchQueue.empty
  phase := .polling
  activeChannels := []
  quit := false
  exited := false

/-- `loopOf` is `loop_` of the connections, `loopsStarted` the size of `loops_` and `next` is `next_`.
`listening` says that the acceptor's channel is in the main loop's poller, `destroying` that
`~TcpServer` has begun, and `destroyed` that it has ended. `undefined` says that the process has used an
object after its end. -/
structure ThreadedServer (θ : Type*) where
  conns : Nat → TcpConnection
  name : Nat → List Char
  loopOf : Nat → Nat
  alive : Nat → Bool
  loops : Nat → IoLoop
  stack : ServerThread θ → List ThreadFrame
  connections : List Char → Option Nat
  accepted : Nat
  nextConnId : BitVec 32
  started : BitVec 32
  loopsStarted : Nat
  next : Nat
  listening : Bool
  destroying : Bool
  destroyed : Bool
  undefined : Bool
  log : List (LogEntry θ)

inductive ThreadedAction (θ : Type*) where
  | start (thread : ServerThread θ)
  | send (thread : ServerThread θ) (conn : Nat) (data : List Byte)
  | sendFile (thread : ServerThread θ) (conn fileDescriptor offset count : Nat)
  | shutdown (thread : ServerThread θ) (conn : Nat)
  | queueInLoop (thread : ServerThread θ) (loop : Nat)
  | destroyServer
  | destroyItem (conn : Nat)
  | frame (thread : ServerThread θ) (read : Except Errno (List Byte)) (write : Except Errno Nat)
  | poll (loop : Nat) (active : List ActiveChannel)
  | dispatch (loop : Nat) (accepted : Option Nat)
  | doPendingFunctors (loop : Nat)
  | runFunctor (loop : Nat) (write : Except Errno Nat)
  | endBatch (loop : Nat)
  | exit (loop : Nat)
  | destroy (conn : Nat)

namespace ThreadedServer

variable {θ : Type*}

/-- Every thread begins in user code: `main`, `threadInitCallback_`, or code of its own. -/
def new : ThreadedServer θ where
  conns _ := TcpConnection.new 0 0 0 false false false false false
  name _ := []
  loopOf _ := 0
  alive _ := false
  loops _ := IoLoop.new
  stack _ := [.frame .userCode]
  connections _ := none
  accepted := 0
  nextConnId := 1
  started := 0
  loopsStarted := 0
  next := 0
  listening := false
  destroying := false
  destroyed := false
  undefined := false
  log := []

def modifyLoop (w : ThreadedServer θ) (loop : Nat) (f : IoLoop → IoLoop) : ThreadedServer θ :=
  { w with loops := Function.update w.loops loop (f (w.loops loop)) }

@[simp]
theorem modifyLoop_loops_self (w : ThreadedServer θ) (loop : Nat) (f : IoLoop → IoLoop) :
    (w.modifyLoop loop f).loops loop = f (w.loops loop) :=
  Function.update_self ..

theorem modifyLoop_loops_of_ne (w : ThreadedServer θ) {loop other : Nat} (hne : other ≠ loop)
    (f : IoLoop → IoLoop) : (w.modifyLoop loop f).loops other = w.loops other :=
  Function.update_of_ne hne ..

def record (w : ThreadedServer θ) (thread : ServerThread θ) (executions : List Execution) :
    ThreadedServer θ :=
  { w with log := w.log ++ executions.map fun e => ⟨thread, e, w.destroyed⟩ }

/-- The process uses an object after its end. -/
def dangling (w : ThreadedServer θ) : ThreadedServer θ := { w with undefined := true }

/-! ### Queues -/

/-- `EventLoop::queueInLoop`. -/
def queueInLoop (w : ThreadedServer θ) (loop : Nat) (functors : List LoopFunctor) :
    ThreadedServer θ :=
  if (w.loops loop).exited then w.dangling
  else w.modifyLoop loop fun l => { l with queue := l.queue.push functors }

variable [DecidableEq θ]

def pushFrames (w : ThreadedServer θ) (thread : ServerThread θ) (frames : List ThreadFrame) :
    ThreadedServer θ :=
  { w with stack := Function.update w.stack thread (frames ++ w.stack thread) }

def popFrame (w : ThreadedServer θ) (thread : ServerThread θ) : ThreadedServer θ :=
  { w with stack := Function.update w.stack thread (w.stack thread).tail }

/-! ### Calls of a connection -/

def session (w : ThreadedServer θ) (conn : Nat) : Session Nat where
  self := conn
  conn := w.conns conn
  poller := (w.loops (w.loopOf conn)).poller
  pendingFunctors := []
  trace := []

/-- After a member function on `thread`: its tasks are in the queue of `loop_`, and its callbacks are
called on the thread. -/
def after (w : ThreadedServer θ) (thread : ServerThread θ) (conn : Nat) (s : Session Nat) :
    ThreadedServer θ :=
  (({ w with conns := Function.update w.conns conn s.conn }.modifyLoop (w.loopOf conn)
      fun l => { l with poller := s.poller }).queueInLoop (w.loopOf conn)
        (s.pendingFunctors.map fun task => .server (.task conn task))).pushFrames thread
          ((callbackFrames conn s.trace).map .frame)

def callMember (file : Nat → List Byte) (w : ThreadedServer θ) (thread : ServerThread θ)
    (conn : Nat) (member : Member) : ThreadedServer θ :=
  if w.alive conn = true ∧ (w.loops (w.loopOf conn)).exited = false then
    (w.record thread ((member.executes (w.session conn)).map (.member conn))).after thread conn
      (member.run file (w.session conn))
  else w.dangling

/-! ### The server -/

/-- `getNextLoop`, and `next_` after it. -/
def getNextLoop (w : ThreadedServer θ) : Nat × Nat :=
  if w.loopsStarted = 0 then (0, w.next)
  else (w.next + 1, if w.loopsStarted ≤ w.next + 1 then 0 else w.next + 1)

def removeConnectionInLoop (w : ThreadedServer θ) (thread : ServerThread θ) (conn : Nat) :
    ThreadedServer θ :=
  let w := w.record thread [.removeConnectionInLoop conn]
  if w.destroyed = true ∨ w.alive conn = false then w.dangling
  else
    { w.record thread [.erase conn] with
      connections := Function.update w.connections (w.name conn) none }.queueInLoop
        (w.loopOf conn) [.server (.connectDestroyed conn)]

def callFunctor (file : Nat → List Byte) (w : ThreadedServer θ) (thread : ServerThread θ)
    (write : Except Errno Nat) : LoopFunctor → ThreadedServer θ
  | .server (.connectEstablished conn) => w.callMember file thread conn .connectEstablished
  | .server (.connectDestroyed conn) => w.callMember file thread conn .connectDestroyed
  | .server (.removeConnectionInLoop conn) => w.removeConnectionInLoop thread conn
  | .server (.task conn (.sendFileInLoop fileDescriptor offset count)) =>
      w.callMember file thread conn (.sendFileInLoop fileDescriptor offset count write)
  | .server (.task _ _) | .server .user => w.pushFrames thread [.frame .userCode]
  | .sendInLoop conn data => w.callMember file thread conn (.sendInLoop data write)
  | .shutdownInLoop conn => w.callMember file thread conn .shutdownInLoop
  | .listen =>
      if w.destroyed then w.dangling else { w.record thread [.listen] with listening := true }

/-- `EventLoop::runInLoop`, with its test of the calling thread. -/
def runInLoop (file : Nat → List Byte) (w : ThreadedServer θ) (thread : ServerThread θ)
    (loop : Nat) (write : Except Errno Nat) (functor : LoopFunctor) : ThreadedServer θ :=
  if thread = .loop loop then w.callFunctor file thread write functor
  else w.queueInLoop loop [functor]

/-- `newConnection` up to the call of `runInLoop`. -/
def insertConnection (config : ServerConfig) (w : ThreadedServer θ) (thread : ServerThread θ)
    (sockfd : Nat) : ThreadedServer θ :=
  let connName := config.connName w.nextConnId
  { w.record thread [.getNextLoop, .insert w.accepted] with
    conns := Function.update w.conns w.accepted
      (TcpConnection.new sockfd (64 * 1024 * 1024) Buffer.kInitialSize config.connectionCallback
        config.messageCallback config.writeCompleteCallback config.highWaterMarkCallback true)
    name := Function.update w.name w.accepted connName
    loopOf := Function.update w.loopOf w.accepted w.getNextLoop.1
    alive := Function.update w.alive w.accepted true
    connections := Function.update w.connections connName (some w.accepted)
    accepted := w.accepted + 1
    nextConnId := w.nextConnId + 1
    next := w.getNextLoop.2 }

def newConnection (file : Nat → List Byte) (config : ServerConfig) (w : ThreadedServer θ)
    (thread : ServerThread θ) (sockfd : Nat) : ThreadedServer θ :=
  (w.insertConnection config thread sockfd).runInLoop file thread w.getNextLoop.1 (.ok 0)
    (.server (.connectEstablished w.accepted))

def removeConnection (file : Nat → List Byte) (w : ThreadedServer θ) (thread : ServerThread θ)
    (conn : Nat) : ThreadedServer θ :=
  let w := w.record thread [.removeConnection conn]
  if w.destroyed then w.dangling
  else w.runInLoop file thread 0 (.ok 0) (.server (.removeConnectionInLoop conn))

/-! ### Steps -/

/-- The thread is in user code. -/
def InUserCode (w : ThreadedServer θ) (thread : ServerThread θ) : Prop :=
  (w.stack thread).head? = some (.frame .userCode)

/-- The loop exists, and its thread is between two events or functors. -/
def Between (w : ThreadedServer θ) (loop : Nat) : Prop :=
  loop ≤ w.loopsStarted ∧ (w.loops loop).exited = false ∧ w.stack (.loop loop) = []

/-- The kernel reports a connection only to a loop in whose interest list it is, and connections to
accept only to the main loop, once the acceptor listens. -/
def Reports (w : ThreadedServer θ) (loop : Nat) : ActiveChannel → Prop
  | .connection conn _ =>
      ((w.loops loop).poller.epollfd (w.conns conn).channel.fd).map (·.ptr) = some conn
  | .acceptor => loop = 0 ∧ w.listening = true ∧ w.destroyed = false
  | .wakeup => True

/-- A descriptor is open as long as its connection. -/
def FreshFd (w : ThreadedServer θ) (sockfd : Nat) : Prop :=
  ∀ conn < w.accepted, w.alive conn = true → (w.conns conn).channel.fd ≠ sockfd

/-- An entry of `connections_` belongs to the connection. -/
def Mapped (w : ThreadedServer θ) (conn : Nat) : Prop :=
  w.connections (w.name conn) = some conn

instance (w : ThreadedServer θ) (thread : ServerThread θ) : Decidable (w.InUserCode thread) :=
  inferInstanceAs (Decidable (_ = some _))

instance (w : ThreadedServer θ) (loop : Nat) : Decidable (w.Between loop) :=
  inferInstanceAs (Decidable (_ ∧ _))

instance (w : ThreadedServer θ) (loop : Nat) : (a : ActiveChannel) → Decidable (w.Reports loop a)
  | .connection conn _ => inferInstanceAs (Decidable (_ = some conn))
  | .acceptor => inferInstanceAs (Decidable (_ ∧ _))
  | .wakeup => inferInstanceAs (Decidable True)

instance (w : ThreadedServer θ) (sockfd : Nat) : Decidable (w.FreshFd sockfd) :=
  inferInstanceAs (Decidable (∀ conn < w.accepted, _))

instance (w : ThreadedServer θ) (conn : Nat) : Decidable (w.Mapped conn) :=
  inferInstanceAs (Decidable (_ = some conn))

def handleEvent (file : Nat → List Byte) (config : ServerConfig) (w : ThreadedServer θ)
    (loop : Nat) (accepted : Option Nat) : ActiveChannel → ThreadedServer θ
  | .connection conn revents =>
      if w.alive conn then w.pushFrames (.loop loop) ((eventFrames conn revents).map .frame)
      else w.dangling
  | .acceptor =>
      if w.destroyed then w.dangling
      else
        match accepted with
        | some sockfd => w.newConnection file config (.loop loop) sockfd
        | none => w
  | .wakeup => w

/-- The thread goes on with the topmost frame, which has been taken from its stack. -/
def runFrame (file : Nat → List Byte) (w : ThreadedServer θ) (thread : ServerThread θ)
    (read : Except Errno (List Byte)) (write : Except Errno Nat) :
    ThreadFrame → Option (ThreadedServer θ)
  | .frame (.handleClose conn) => some (w.callMember file thread conn .handleClose)
  | .frame (.handleError conn) => some (w.callMember file thread conn .handleError)
  | .frame (.handleRead conn) => some (w.callMember file thread conn (.handleRead read))
  | .frame (.handleWrite conn) => some (w.callMember file thread conn (.handleWrite write))
  | .frame (.removeConnection conn) => some (w.removeConnection file thread conn)
  | .frame .userCode => some w
  | .send conn data =>
      some (if w.alive conn then
        w.runInLoop file thread (w.loopOf conn) write (.sendInLoop conn data)
      else w.dangling)
  | .sendFile conn fileDescriptor offset count =>
      some (if w.alive conn then
        w.runInLoop file thread (w.loopOf conn) write
          (.server (.task conn (.sendFileInLoop fileDescriptor offset count)))
      else w.dangling)
  | .shutdown conn =>
      some (if w.alive conn then
        { w with
          conns := Function.update w.conns conn
            { w.conns conn with state := .kDisconnecting } }.pushFrames thread [.setState conn]
      else w.dangling)
  | .setState conn =>
      some (if w.alive conn then
        w.runInLoop file thread (w.loopOf conn) write (.shutdownInLoop conn)
      else w.dangling)
  | .startPool left =>
      some (if w.destroyed then w.dangling
      else
        match left with
        | 0 => w.pushFrames thread [.listen]
        | left + 1 =>
            { w with loopsStarted := w.loopsStarted + 1 }.pushFrames thread [.startPool left])
  | .listen =>
      some (if w.destroyed then w.dangling else w.runInLoop file thread 0 write .listen)
  | .destructor =>
      guarded (∀ conn < w.accepted, ¬w.Mapped conn) (w.pushFrames thread [.joinPool 1])
  | .joinPool loop =>
      if w.loopsStarted < loop then some { w with destroyed := true }
      else if (w.loops loop).exited then some (w.pushFrames thread [.joinPool (loop + 1)])
      else
        some ((w.modifyLoop loop fun l => { l with quit := true }).pushFrames thread
          [.joinPool loop])

/-- `threadPool_->start` and then `listen`. Without sub loops, `threadInitCallback_` is called for the
main loop. -/
def startFrames (numThreads : Nat) : List ThreadFrame :=
  if numThreads = 0 then [.frame .userCode, .startPool 0] else [.startPool numThreads]

/-- The kernel drops the descriptor of a destroyed connection from its interest lists. -/
def closeFd (conn : Nat) (l : IoLoop) : IoLoop :=
  { l with
    poller := { l.poller with
      epollfd := fun fd =>
        if (l.poller.epollfd fd).map (·.ptr) = some conn then none else l.poller.epollfd fd } }

def move (file : Nat → List Byte) (config : ServerConfig) (numThreads : Nat)
    (w : ThreadedServer θ) : ThreadedAction θ → Option (ThreadedServer θ)
  | .start thread =>
      guarded (w.InUserCode thread ∧ w.destroying = false)
        (if w.started = 0 then
          { w with started := w.started + 1 }.pushFrames thread (startFrames numThreads)
        else { w with started := w.started + 1 })
  | .send thread conn data =>
      guarded (w.InUserCode thread ∧ w.alive conn = true)
        (if (w.conns conn).state = .kConnected then w.pushFrames thread [.send conn data] else w)
  | .sendFile thread conn fileDescriptor offset count =>
      guarded (w.InUserCode thread ∧ w.alive conn = true)
        (if (w.conns conn).connected then
          w.pushFrames thread [.sendFile conn fileDescriptor offset count]
        else w)
  | .shutdown thread conn =>
      guarded (w.InUserCode thread ∧ w.alive conn = true)
        (if (w.conns conn).state = .kConnected then w.pushFrames thread [.shutdown conn] else w)
  | .queueInLoop thread loop =>
      guarded (w.InUserCode thread ∧ loop ≤ w.loopsStarted) (w.queueInLoop loop [.server .user])
  | .destroyServer =>
      guarded (w.InUserCode (.loop 0) ∧ w.destroying = false)
        ({ w with destroying := true }.pushFrames (.loop 0) [.destructor])
  | .destroyItem conn =>
      guarded ((w.stack (.loop 0)).head? = some .destructor ∧ conn < w.accepted ∧ w.Mapped conn)
        ({ w with
          connections := Function.update w.connections (w.name conn) none }.runInLoop file (.loop 0)
            (w.loopOf conn) (.ok 0) (.server (.connectDestroyed conn)))
  | .frame thread read write =>
      match w.stack thread with
      | [] => none
      | frame :: _ => (w.popFrame thread).runFrame file thread read write frame
  | .poll loop active =>
      guarded (w.Between loop ∧ (w.loops loop).phase = .polling ∧ (w.loops loop).quit = false ∧
          ∀ a ∈ active, w.Reports loop a)
        (w.modifyLoop loop fun l => { l with activeChannels := active, phase := .dispatching })
  | .dispatch loop accepted =>
      match (w.loops loop).activeChannels with
      | [] => none
      | a :: rest =>
          guarded (w.Between loop ∧ (w.loops loop).phase = .dispatching ∧
              ∀ sockfd, accepted = some sockfd → w.FreshFd sockfd)
            ((w.modifyLoop loop fun l => { l with activeChannels := rest }).handleEvent file config
              loop accepted a)
  | .doPendingFunctors loop =>
      guarded (w.Between loop ∧ (w.loops loop).phase = .dispatching ∧
          (w.loops loop).activeChannels = [])
        (w.modifyLoop loop fun l => { l with queue := l.queue.start, phase := .calling })
  | .runFunctor loop write =>
      match (w.loops loop).queue.todo with
      | [] => none
      | functor :: _ =>
          guarded (w.Between loop ∧ (w.loops loop).phase = .calling)
            ((w.modifyLoop loop fun l => { l with queue := l.queue.next }).callFunctor file
              (.loop loop) write functor)
  | .endBatch loop =>
      guarded (w.Between loop ∧ (w.loops loop).phase = .calling ∧ (w.loops loop).queue.todo = [])
        (w.modifyLoop loop fun l => { l with queue := l.queue.finish, phase := .polling })
  | .exit loop =>
      guarded (w.Between loop ∧ loop ≠ 0 ∧ (w.loops loop).phase = .polling ∧
          (w.loops loop).quit = true)
        (w.modifyLoop loop fun l => { l with exited := true })
  | .destroy conn =>
      some ({ w with alive := Function.update w.alive conn false }.modifyLoop (w.loopOf conn)
        (closeFd conn))

def step (file : Nat → List Byte) (config : ServerConfig) (numThreads : Nat)
    (w : ThreadedServer θ) (action : ThreadedAction θ) : Option (ThreadedServer θ) :=
  if w.undefined then none else w.move file config numThreads action

def system (file : Nat → List Byte) (config : ServerConfig) (numThreads : Nat) :
    System (ThreadedServer θ) (ThreadedAction θ) where
  init w := w = new
  step := step file config numThreads

section Steps

variable {file : Nat → List Byte} {config : ServerConfig} {numThreads : Nat}
  {w w' : ThreadedServer θ} {loop : Nat}

theorem move_frame {thread : ServerThread θ} {read : Except Errno (List Byte)}
    {write : Except Errno Nat}
    (h : w.move file config numThreads (.frame thread read write) = some w') :
    ∃ frame rest, w.stack thread = frame :: rest ∧
      (w.popFrame thread).runFrame file thread read write frame = some w' := by
  simp only [move] at h
  split at h
  · cases h
  · rename_i frame rest hstack
    exact ⟨frame, rest, hstack, h⟩

theorem move_dispatch {accepted : Option Nat}
    (h : w.move file config numThreads (.dispatch loop accepted) = some w') :
    ∃ a rest, (w.loops loop).activeChannels = a :: rest ∧
      (w.Between loop ∧ (w.loops loop).phase = .dispatching ∧
        ∀ sockfd, accepted = some sockfd → w.FreshFd sockfd) ∧
      w' = (w.modifyLoop loop fun l => { l with activeChannels := rest }).handleEvent file config
        loop accepted a := by
  simp only [move] at h
  split at h
  · cases h
  · rename_i a rest hactive
    obtain ⟨hguard, heq⟩ := guarded_eq_some.mp h
    exact ⟨a, rest, hactive, hguard, heq.symm⟩

theorem move_runFunctor {write : Except Errno Nat}
    (h : w.move file config numThreads (.runFunctor loop write) = some w') :
    ∃ functor rest, (w.loops loop).queue.todo = functor :: rest ∧
      (w.Between loop ∧ (w.loops loop).phase = .calling) ∧
      w' = (w.modifyLoop loop fun l => { l with queue := l.queue.next }).callFunctor file
        (.loop loop) write functor := by
  simp only [move] at h
  split at h
  · cases h
  · rename_i functor rest htodo
    obtain ⟨hguard, heq⟩ := guarded_eq_some.mp h
    exact ⟨functor, rest, htodo, hguard, heq.symm⟩

end Steps

end ThreadedServer

end MuduoCore
