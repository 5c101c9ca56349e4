import MuduoCore.TcpConnection.Runs
import Mathlib.Data.Fintype.Basic

/-!
# TcpServer

`src/TcpServer.cpp` with its main loop, `n` sub loops and all its connections: accepts, event batches,
close paths and functor batches of all loops, in any order. The thread of a loop works off a stack of
what is left to do in its current handler or functor; what the user does in a callback are steps
between. A connection is alive as long as somebody holds a `TcpConnectionPtr`.

Loop 0 is the main loop. The channels of the acceptor and of the eventfds live as long as their loops
and are left out of the interest lists. The server stays alive, and `send`, `shutdown` and `sendFile`
are called on the connection's own loop.
-/

namespace MuduoCore

/-- What the user has set on the server, and its address; `toIpPort` prints at most 21 characters. The
server has no setter for a `highWaterMarkCallback`: it stands for one that the user sets on every
connection before anything is sent on it. -/
structure ServerConfig where
  name : List Char
  ipPort : List Char
  ipPort_length : ipPort.length ≤ 21
  connectionCallback : Bool
  messageCallback : Bool
  writeCompleteCallback : Bool
  highWaterMarkCallback : Bool

/-- `%d`. -/
def decimal : Int → List Char
  | .ofNat m => Nat.toDigits 10 m
  | .negSucc m => '-' :: Nat.toDigits 10 (m + 1)

/-- `name_ + buf`, where `snprintf` prints `"-%s#%d"` into the 64 bytes of `buf`. -/
def ServerConfig.connName (config : ServerConfig) (id : BitVec 32) : List Char :=
  config.name ++ ('-' :: config.ipPort ++ '#' :: decimal id.toInt).take 63

inductive ServerFunctor where
  | connectEstablished (conn : Nat)
  | connectDestroyed (conn : Nat)
  | removeConnectionInLoop (conn : Nat)
  | task (conn : Nat) (task : Task)
  | user
  deriving DecidableEq, Repr

/-- The `TcpConnectionPtr` in the functor. -/
def ServerFunctor.holds : ServerFunctor → Option Nat
  | connectEstablished conn | connectDestroyed conn | removeConnectionInLoop conn | task conn _ =>
      some conn
  | user => none

/-- What is left to do in the handler or functor that a loop is in. -/
inductive Frame where
  | handleClose (conn : Nat)
  | handleError (conn : Nat)
  | handleRead (conn : Nat)
  | handleWrite (conn : Nat)
  | removeConnection (conn : Nat)
  | userCode
  deriving DecidableEq, Repr

/-- `handleClose` keeps a `TcpConnectionPtr` while it calls `closeCallback_`. -/
def Frame.holds : Frame → Option Nat
  | removeConnection conn => some conn
  | _ => none

inductive ActiveChannel where
  | connection (conn : Nat) (revents : EventMask)
  | acceptor
  | wakeup
  deriving DecidableEq, Repr

inductive Phase where
  | polling
  | dispatching
  | calling
  deriving DecidableEq, Repr

/-- A loop with its thread. `activeChannels` are still to be dispatched, `guard` is held by the
`handleEvent` that is running, `functors` is the whole vector of the running `doPendingFunctors`, and
`todo` what it has not called yet. -/
structure ServerLoop where
  poller : EPollPoller Nat
  pendingFunctors : List ServerFunctor
  phase : Phase
  activeChannels : List ActiveChannel
  guard : Option Nat
  stack : List Frame
  functors : List ServerFunctor
  todo : List ServerFunctor

/-- A connection object: `loop` is `loop_`, and `trace` what happened to it. -/
structure ServerConnection (n : ℕ) where
  name : List Char
  loop : Fin (n + 1)
  tcp : TcpConnection
  trace : List Event

/-- `next` is `next_` of the thread pool. A connection is known by the number of connections accepted
before it. `userHeld` says that the user has copies of its `TcpConnectionPtr`, and `undefined` that
the process has used a connection after its end. -/
structure Server (n : ℕ) where
  conns : Nat → ServerConnection n
  alive : Nat → Bool
  loops : Fin (n + 1) → ServerLoop
  connections : List Char → Option Nat
  accepted : Nat
  nextConnId : BitVec 32
  next : Nat
  userHeld : Nat → Bool
  undefined : Bool

inductive ServerAction (n : ℕ) where
  | poll (loop : Fin (n + 1)) (active : List ActiveChannel)
  | dispatch (loop : Fin (n + 1)) (accepted : Option Nat)
  | frame (loop : Fin (n + 1)) (read : Except Errno (List Byte)) (write : Except Errno Nat)
  | handled (loop : Fin (n + 1))
  | doPendingFunctors (loop : Fin (n + 1))
  | runFunctor (loop : Fin (n + 1)) (write : Except Errno Nat)
  | endBatch (loop : Fin (n + 1))
  | send (loop : Fin (n + 1)) (conn : Nat) (data : List Byte) (write : Except Errno Nat)
  | sendFile (loop : Fin (n + 1)) (conn fileDescriptor offset count : Nat) (write : Except Errno Nat)
  | shutdown (loop : Fin (n + 1)) (conn : Nat)
  | queueInLoop (loop : Fin (n + 1))
  | hold (conn : Nat)
  | drop (conn : Nat)

namespace ServerLoop

def new : ServerLoop where
  poller := EPollPoller.new
  pendingFunctors := []
  phase := .polling
  activeChannels := []
  guard := none
  stack := []
  functors := []
  todo := []

/-- The thread of the loop, its queue or its batch holds the connection. -/
def holds (l : ServerLoop) (conn : Nat) : Bool :=
  (l.pendingFunctors ++ l.functors).any (fun functor => functor.holds == some conn) ||
    l.guard == some conn || l.stack.any fun frame => frame.holds == some conn

def push (l : ServerLoop) (functor : ServerFunctor) : ServerLoop :=
  { l with pendingFunctors := l.pendingFunctors ++ [functor] }

end ServerLoop

/-- The callbacks of a connection, in the order of its trace. `removeConnection` is the
`closeCallback_` that the server has set. -/
def callbackFrames (conn : Nat) (trace : List Event) : List Frame :=
  trace.filterMap fun event => match event with
    | .connectionCallback _ | .messageCallback => some .userCode
    | .closeCallback => some (.removeConnection conn)
    | _ => none

/-- The callbacks that `handleEventWithGuard` calls for `revents_`, in its order. -/
def eventFrames (conn : Nat) (revents : EventMask) : List Frame :=
  (if revents &&& EPOLLHUP ≠ 0#32 ∧ revents &&& EPOLLIN = 0#32 then [.handleClose conn] else []) ++
    (if revents &&& EPOLLERR ≠ 0#32 then [.handleError conn] else []) ++
    (if revents &&& (EPOLLIN ||| EPOLLPRI) ≠ 0#32 then [.handleRead conn] else []) ++
    (if revents &&& EPOLLOUT ≠ 0#32 then [.handleWrite conn] else [])

/-- The loop after a member function of one of its connections: the functors it queued, and the
callbacks that are called from it. -/
def ServerLoop.after (l : ServerLoop) (conn : Nat) (s : Session Nat) : ServerLoop :=
  { l with
    poller := s.poller
    pendingFunctors := l.pendingFunctors ++ s.pendingFunctors.map (.task conn)
    stack := callbackFrames conn s.trace ++ l.stack }

namespace Server

variable {n : ℕ}

def noConnection : ServerConnection n where
  name := []
  loop := 0
  tcp := { TcpConnection.new 0 0 0 false false false false false with state := .kDisconnected }
  trace := []

def new : Server n where
  conns _ := noConnection
  alive _ := false
  loops _ := ServerLoop.new
  connections _ := none
  accepted := 0
  nextConnId := 1
  next := 0
  userHeld _ := false
  undefined := false

def modifyLoop (w : Server n) (loop : Fin (n + 1)) (f : ServerLoop → ServerLoop) : Server n :=
  { w with loops := Function.update w.loops loop (f (w.loops loop)) }

def setConn (w : Server n) (conn : Nat) (c : ServerConnection n) : Server n :=
  { w with conns := Function.update w.conns conn c }

/-- An entry of `connections_`, a loop or the user holds the connection. -/
def held (w : Server n) (conn : Nat) : Bool :=
  w.connections (w.conns conn).name == some conn ||
    decide (∃ loop, (w.loops loop).holds conn = true) || w.userHeld conn

/-- A connection that nobody holds is destroyed. -/
def reap (w : Server n) : Server n := { w with alive := fun conn => w.alive conn && w.held conn }

/-! ### Calls of a connection on its own loop -/

def session (w : Server n) (conn : Nat) : Session Nat where
  self := conn
  conn := (w.conns conn).tcp
  poller := (w.loops (w.conns conn).loop).poller
  pendingFunctors := []
  trace := []

def onConnection (w : Server n) (conn : Nat) (f : Session Nat → Session Nat) : Server n :=
  let s := f (w.session conn)
  let c := w.conns conn
  (w.setConn conn { c with tcp := s.conn, trace := c.trace ++ s.trace }).modifyLoop c.loop
    fun l => l.after conn s

/-! ### The server -/

/-- `getNextLoop`, and `next_` after it. -/
def getNextLoop (w : Server n) : Fin (n + 1) × Nat :=
  if h : w.next < n then (⟨w.next + 1, by omega⟩, if n ≤ w.next + 1 then 0 else w.next + 1)
  else (0, w.next)

/-- `newConnection` up to the call of `runInLoop`. -/
def insertConnection (config : ServerConfig) (w : Server n) (sockfd : Nat) : Server n :=
  let name := config.connName w.nextConnId
  { w with
    conns := Function.update w.conns w.accepted
      { name := name
        loop := w.getNextLoop.1
        tcp := TcpConnection.new sockfd (64 * 1024 * 1024) Buffer.kInitialSize
          config.connectionCallback config.messageCallback config.writeCompleteCallback
          config.highWaterMarkCallback true
        trace := [] }
    alive := Function.update w.alive w.accepted true
    connections := Function.update w.connections name (some w.accepted)
    accepted := w.accepted + 1
    nextConnId := w.nextConnId + 1
    next := w.getNextLoop.2
    userHeld := Function.update w.userHeld w.accepted false }

def newConnection (config : ServerConfig) (w : Server n) (sockfd : Nat) : Server n :=
  let ioLoop := w.getNextLoop.1
  let inserted := w.insertConnection config sockfd
  if ioLoop = 0 then inserted.onConnection w.accepted Session.connectEstablished
  else inserted.modifyLoop ioLoop fun l => l.push (.connectEstablished w.accepted)

/-- On the thread of the main loop. -/
def removeConnectionInLoop (w : Server n) (conn : Nat) : Server n :=
  { w with connections := Function.update w.connections (w.conns conn).name none }.modifyLoop
    (w.conns conn).loop fun l => l.push (.connectDestroyed conn)

/-- On the thread of `loop`. -/
def removeConnection (w : Server n) (loop : Fin (n + 1)) (conn : Nat) : Server n :=
  if loop = 0 then w.removeConnectionInLoop conn
  else w.modifyLoop 0 fun l => l.push (.removeConnectionInLoop conn)

/-! ### Steps -/

/-- The kernel reports a connection only to a loop in whose interest list it is, and connections to
accept only to the main loop. -/
def Reports (w : Server n) (loop : Fin (n + 1)) : ActiveChannel → Prop
  | .connection conn _ =>
      ((w.loops loop).poller.epollfd (w.conns conn).tcp.channel.fd).map (·.ptr) = some conn
  | .acceptor => loop = 0
  | .wakeup => True

instance (w : Server n) (loop : Fin (n + 1)) :
    (active : ActiveChannel) → Decidable (w.Reports loop active)
  | .connection conn _ => inferInstanceAs (Decidable (_ = some conn))
  | .acceptor => inferInstanceAs (Decidable (loop = 0))
  | .wakeup => inferInstanceAs (Decidable True)

/-- A new descriptor is none of those that are open. -/
def FreshFd (w : Server n) (sockfd : Nat) : Prop :=
  ∀ conn < w.accepted, w.alive conn = true → (w.conns conn).tcp.channel.fd ≠ sockfd

instance (w : Server n) (sockfd : Nat) : Decidable (w.FreshFd sockfd) :=
  inferInstanceAs (Decidable (∀ conn < w.accepted, _))

def Idle (w : Server n) (loop : Fin (n + 1)) : Prop :=
  (w.loops loop).stack = [] ∧ (w.loops loop).guard = none

instance (w : Server n) (loop : Fin (n + 1)) : Decidable (w.Idle loop) :=
  inferInstanceAs (Decidable (_ ∧ _))

def handleEvent (config : ServerConfig) (w : Server n) (loop : Fin (n + 1)) (accepted : Option Nat) :
    ActiveChannel → Server n
  | .connection conn revents =>
      if w.alive conn then
        w.modifyLoop loop fun l =>
          { l with
            guard := if (w.conns conn).tcp.channel.tied then some conn else none
            stack := eventFrames conn revents }
      else { w with undefined := true }
  | .acceptor =>
      match accepted with
      | some sockfd => w.newConnection config sockfd
      | none => w
  | .wakeup => w

def runFrame (w : Server n) (loop : Fin (n + 1)) (read : Except Errno (List Byte))
    (write : Except Errno Nat) : Frame → Server n
  | .handleClose conn => w.onConnection conn Session.handleClose
  | .handleError conn => w.onConnection conn Session.handleError
  | .handleRead conn => w.onConnection conn fun s => s.handleRead read
  | .handleWrite conn => w.onConnection conn fun s => s.handleWrite write
  | .removeConnection conn => w.removeConnection loop conn
  | .userCode => w

def callFunctor (file : Nat → List Byte) (w : Server n) (loop : Fin (n + 1))
    (write : Except Errno Nat) : ServerFunctor → Server n
  | .connectEstablished conn => w.onConnection conn Session.connectEstablished
  | .connectDestroyed conn => w.onConnection conn Session.connectDestroyed
  | .removeConnectionInLoop conn => w.removeConnectionInLoop conn
  | .task conn (.sendFileInLoop fileDescriptor offset count) =>
      if w.alive conn then
        w.onConnection conn fun s => s.sendFileInLoop file fileDescriptor offset count write
      else { w with undefined := true }
  | .task _ _ | .user => w.modifyLoop loop fun l => { l with stack := .userCode :: l.stack }

/-- The user calls a member function in a callback on the thread of `loop`. -/
def MayCall (w : Server n) (loop : Fin (n + 1)) (conn : Nat) : Prop :=
  (w.loops loop).stack.head? = some .userCode ∧ w.alive conn = true ∧ (w.conns conn).loop = loop

instance (w : Server n) (loop : Fin (n + 1)) (conn : Nat) : Decidable (w.MayCall loop conn) :=
  inferInstanceAs (Decidable (_ ∧ _))

def move (file : Nat → List Byte) (config : ServerConfig) (w : Server n) :
    ServerAction n → Option (Server n)
  | .poll loop active =>
      guarded ((w.loops loop).phase = .polling ∧ ∀ a ∈ active, w.Reports loop a)
        (w.modifyLoop loop fun l => { l with activeChannels := active, phase := .dispatching })
  | .dispatch loop accepted =>
      match (w.loops loop).activeChannels with
      | [] => none
      | a :: rest =>
          guarded ((w.loops loop).phase = .dispatching ∧ w.Idle loop ∧
              ∀ sockfd, accepted = some sockfd → w.FreshFd sockfd)
            ((w.modifyLoop loop fun l => { l with activeChannels := rest }).handleEvent config loop
              accepted a)
  | .frame loop read write =>
      match (w.loops loop).stack with
      | [] => none
      | frame :: rest =>
          some ((w.modifyLoop loop fun l => { l with stack := rest }).runFrame loop read write frame)
  | .handled loop =>
      guarded ((w.loops loop).stack = []) (w.modifyLoop loop fun l => { l with guard := none })
  | .doPendingFunctors loop =>
      guarded ((w.loops loop).phase = .dispatching ∧ w.Idle loop ∧
          (w.loops loop).activeChannels = [])
        (w.modifyLoop loop fun l =>
          { l with
            functors := l.pendingFunctors
            todo := l.pendingFunctors
            pendingFunctors := []
            phase := .calling })
  | .runFunctor loop write =>
      match (w.loops loop).todo with
      | [] => none
      | functor :: rest =>
          guarded ((w.loops loop).phase = .calling ∧ (w.loops loop).stack = [])
            ((w.modifyLoop loop fun l => { l with todo := rest }).callFunctor file loop write
              functor)
  | .endBatch loop =>
      guarded ((w.loops loop).phase = .calling ∧ (w.loops loop).stack = [] ∧
          (w.loops loop).todo = [])
        (w.modifyLoop loop fun l => { l with functors := [], phase := .polling })
  | .send loop conn data write =>
      guarded (w.MayCall loop conn) (w.onConnection conn fun s => s.send data write)
  | .sendFile loop conn fileDescriptor offset count write =>
      guarded (w.MayCall loop conn)
        (w.onConnection conn fun s => s.sendFile file fileDescriptor offset count write)
  | .shutdown loop conn => guarded (w.MayCall loop conn) (w.onConnection conn Session.shutdown)
  | .queueInLoop loop => some (w.modifyLoop loop fun l => l.push .user)
  | .hold conn =>
      guarded (w.alive conn = true)
        { w with userHeld := Function.update w.userHeld conn true }
  | .drop conn => some { w with userHeld := Function.update w.userHeld conn false }

def step (file : Nat → List Byte) (config : ServerConfig) (w : Server n) (action : ServerAction n) :
    Option (Server n) :=
  if w.undefined then none else (w.move file config action).map reap

def system (file : Nat → List Byte) (config : ServerConfig) :
    System (Server n) (ServerAction n) where
  init w := w = new
  step := step file config

section Steps

variable {file : Nat → List Byte} {config : ServerConfig} {w w' : Server n} {loop : Fin (n + 1)}

theorem move_dispatch {accepted : Option Nat}
    (h : w.move file config (.dispatch loop accepted) = some w') :
    ∃ a rest, (w.loops loop).activeChannels = a :: rest ∧
      ((w.loops loop).phase = .dispatching ∧ w.Idle loop ∧
        ∀ sockfd, accepted = some sockfd → w.FreshFd sockfd) ∧
      w' = (w.modifyLoop loop fun l => { l with activeChannels := rest }).handleEvent config loop
        accepted a := by
  simp only [move] at h
  split at h
  · cases h
  · rename_i a rest hactive
    obtain ⟨hguard, heq⟩ := guarded_eq_some.mp h
    exact ⟨a, rest, hactive, hguard, heq.symm⟩

theorem move_frame {read : Except Errno (List Byte)} {write : Except Errno Nat}
    (h : w.move file config (.frame loop read write) = some w') :
    ∃ frame rest, (w.loops loop).stack = frame :: rest ∧
      w' = (w.modifyLoop loop fun l => { l with stack := rest }).runFrame loop read write frame := by
  simp only [move] at h
  split at h
  · cases h
  · rename_i frame rest hstack
    exact ⟨frame, rest, hstack, (Option.some.inj h).symm⟩

theorem move_runFunctor {write : Except Errno Nat}
    (h : w.move file config (.runFunctor loop write) = some w') :
    ∃ functor rest, (w.loops loop).todo = functor :: rest ∧
      ((w.loops loop).phase = .calling ∧ (w.loops loop).stack = []) ∧
      w' = (w.modifyLoop loop fun l => { l with todo := rest }).callFunctor file loop write
        functor := by
  simp only [move] at h
  split at h
  · cases h
  · rename_i functor rest htodo
    obtain ⟨hguard, heq⟩ := guarded_eq_some.mp h
    exact ⟨functor, rest, htodo, hguard, heq.symm⟩

theorem step_eq_some {action : ServerAction n} (h : w.step file config action = some w') :
    ∃ v, w.move file config action = some v ∧ w' = v.reap := by
  rw [step] at h
  split at h
  · cases h
  · obtain ⟨v, hmove, rfl⟩ := Option.map_eq_some_iff.mp h
    exact ⟨v, hmove, rfl⟩

end Steps

end Server

end MuduoCore
