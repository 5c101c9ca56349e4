import MuduoCore.Lib.BatchQueue
import MuduoCore.TcpConnection.Effects
import MuduoCore.TcpConnection.Runs

/-!
# A connection between threads

Any number of threads with a `TcpConnectionPtr` call `send`, `sendFile` and `shutdown`, beside the loop
of the connection and the main loop. The test of `state_`, its store, the push under `mutex_` and each
functor are steps of their own, and a connection that nobody holds is destroyed.

The thread of the loop is `none`. What the user does there in a callback are further calls of it, with
the `TcpConnectionPtr` that the callback is given.
-/

namespace MuduoCore

/-- The functors of the two loops that concern the connection. `ticket` is not part of the functor of
`sendInLoop`: it is the number of the call, kept here to tell the calls apart. -/
inductive SharedFunctor where
  | sendInLoop (ticket : Nat) (data : List Byte)
  | shutdownInLoop
  | task (task : Task)
  | connectDestroyed
  | removeConnectionInLoop
  deriving DecidableEq, Repr

/-- Whether the functor owns a `TcpConnectionPtr`. `sendInLoop` and `shutdownInLoop` are bound to
`this`. -/
def SharedFunctor.holdsConnection : SharedFunctor → Bool
  | sendInLoop _ _ | shutdownInLoop => false
  | task _ | connectDestroyed | removeConnectionInLoop => true

/-- Where a thread is in a call: past the test of `state_`, with the store of `shutdown` still to come
or the call of `runInLoop`. -/
inductive CallPoint where
  | idle
  | send (data : List Byte)
  | sendFile (fileDescriptor offset count : Nat)
  | shutdown
  | setState
  deriving DecidableEq, Repr

/-- `subLoop` says that the loop of the connection is not the main loop, `mapped` that it is in
`connections_`, `closing` that `handleClose` is about to call `closeCallback_`, and `holders` are the
threads of the user's copies of its `TcpConnectionPtr`. `returned`, `owed` and `executed` record what
happened: the payloads of the calls of `send` that were accepted and have returned, how many of them
before the last `shutdown` that was accepted, and the calls whose `sendInLoop` was executed. -/
structure SharedConnection (θ κ : Type*) where
  session : Session κ
  io : BatchQueue SharedFunctor
  main : BatchQueue SharedFunctor
  subLoop : Bool
  mapped : Bool
  closing : Bool
  holders : List (Option θ)
  alive : Bool
  calls : Option θ → CallPoint
  undefined : Bool
  returned : List (List Byte)
  owed : Nat
  executed : List (Nat × List Byte)

inductive SharedAction (θ : Type*) where
  | send (thread : Option θ) (data : List Byte)
  | sendFile (thread : Option θ) (fileDescriptor offset count : Nat)
  | shutdown (thread : Option θ)
  | setState (thread : Option θ)
  | runInLoop (thread : Option θ) (answer : Except Errno Nat)
  | hold (thread : Option θ)
  | drop (thread : Option θ)
  | handleRead (answer : Except Errno (List Byte))
  | handleWrite (answer : Except Errno Nat)
  | handleClose
  | handleError
  | closeCallback
  | doPendingFunctors
  | runFunctor (answer : Except Errno Nat)
  | release
  | mainDoPendingFunctors
  | mainRunFunctor
  | mainRelease

namespace SharedConnection

variable {θ κ : Type*}

/-- Somebody holds the connection: `connections_`, the running `handleClose`, a functor of a loop or
the user. -/
def held (w : SharedConnection θ κ) : Bool :=
  w.mapped || w.closing || w.io.stored.any (·.holdsConnection) ||
    w.main.stored.any (·.holdsConnection) || !w.holders.isEmpty

def reap (w : SharedConnection θ κ) : SharedConnection θ κ := { w with alive := w.alive && w.held }

/-- After a member function on the thread of the loop: the functors it queued go behind the others. -/
def collect (w : SharedConnection θ κ) (s : Session κ) : SharedConnection θ κ :=
  { w with
    session := { s with pendingFunctors := [] }
    io := w.io.push (s.pendingFunctors.map .task) }

/-! ### The close path -/

def removeConnectionInLoop (w : SharedConnection θ κ) : SharedConnection θ κ :=
  { w with mapped := false, io := w.io.push [.connectDestroyed] }

def removeConnection (w : SharedConnection θ κ) : SharedConnection θ κ :=
  if w.subLoop then { w with main := w.main.push [.removeConnectionInLoop] }
  else w.removeConnectionInLoop

/-- After a handler, which may have come to the call of `closeCallback_`. -/
def handled (w : SharedConnection θ κ) (s : Session κ) : SharedConnection θ κ :=
  { w.collect s with closing := decide (.closeCallback ∈ s.trace.drop w.session.trace.length) }

/-! ### Calls -/

/-- The call of a functor on the thread of its loop. -/
def call (file : Nat → List Byte) (w : SharedConnection θ κ) (answer : Except Errno Nat) :
    SharedFunctor → SharedConnection θ κ
  | .sendInLoop ticket data =>
      { w.collect (w.session.sendInLoop data answer) with
        executed := w.executed ++ [(ticket, data)] }
  | .shutdownInLoop => w.collect w.session.shutdownInLoop
  | .task task => w.collect (Running.runTask file w.session answer task)
  | .connectDestroyed => w.collect w.session.connectDestroyed
  | .removeConnectionInLoop => w.removeConnectionInLoop

def runInLoop (file : Nat → List Byte) (w : SharedConnection θ κ) (thread : Option θ)
    (answer : Except Errno Nat) (functor : SharedFunctor) : SharedConnection θ κ :=
  match thread with
  | none => w.call file answer functor
  | some _ => { w with io := w.io.push [functor] }

def MayCall [DecidableEq θ] (w : SharedConnection θ κ) (thread : Option θ) : Prop :=
  w.calls thread = .idle ∧ thread ∈ w.holders

/-- The loop is between two functors or two events. -/
def Between (w : SharedConnection θ κ) : Prop := w.calls none = .idle ∧ w.closing = false

/-- An event may be handled: it comes before the functors, for a channel that the poller knows. -/
def MayHandle (w : SharedConnection θ κ) : Prop :=
  w.Between ∧ w.io.running = false ∧ w.alive = true ∧ w.session.conn.channel.index ≠ .kNew

instance [DecidableEq θ] (w : SharedConnection θ κ) (thread : Option θ) :
    Decidable (w.MayCall thread) :=
  inferInstanceAs (Decidable (_ ∧ _))

instance (w : SharedConnection θ κ) : Decidable w.Between := inferInstanceAs (Decidable (_ ∧ _))

instance (w : SharedConnection θ κ) : Decidable w.MayHandle := inferInstanceAs (Decidable (_ ∧ _))

variable [DecidableEq θ]

def setCall (w : SharedConnection θ κ) (thread : Option θ) (point : CallPoint) :
    SharedConnection θ κ :=
  { w with calls := Function.update w.calls thread point }

/-! ### Steps -/

def move (file : Nat → List Byte) (w : SharedConnection θ κ) :
    SharedAction θ → Option (SharedConnection θ κ)
  | .send thread data =>
      guarded (w.MayCall thread)
        (if w.session.conn.state = .kConnected then w.setCall thread (.send data) else w)
  | .sendFile thread fileDescriptor offset count =>
      guarded (w.MayCall thread)
        (if w.session.conn.connected then
          w.setCall thread (.sendFile fileDescriptor offset count)
        else w)
  | .shutdown thread =>
      guarded (w.MayCall thread)
        (if w.session.conn.state = .kConnected then
          { w.setCall thread .shutdown with owed := w.returned.length }
        else w)
  | .setState thread =>
      guarded (w.calls thread = .shutdown)
        { w.setCall thread .setState with session := w.session.setState .kDisconnecting }
  | .runInLoop thread answer =>
      match w.calls thread with
      | .send data =>
          some ({ w.setCall thread .idle with returned := w.returned ++ [data] }.runInLoop file thread
            answer (.sendInLoop w.returned.length data))
      | .sendFile fileDescriptor offset count =>
          some ((w.setCall thread .idle).runInLoop file thread answer
            (.task (.sendFileInLoop fileDescriptor offset count)))
      | .setState => some ((w.setCall thread .idle).runInLoop file thread answer .shutdownInLoop)
      | .idle | .shutdown => none
  | .hold thread => guarded (w.alive = true) { w with holders := thread :: w.holders }
  | .drop thread =>
      guarded (thread ∈ w.holders ∧ w.calls thread = .idle)
        { w with holders := w.holders.erase thread }
  | .handleRead answer => guarded w.MayHandle (w.handled (w.session.handleRead answer))
  | .handleWrite answer => guarded w.MayHandle (w.handled (w.session.handleWrite answer))
  | .handleClose => guarded w.MayHandle (w.handled w.session.handleClose)
  | .handleError => guarded w.MayHandle (w.handled w.session.handleError)
  | .closeCallback =>
      guarded (w.calls none = .idle ∧ w.closing = true) { w with closing := false }.removeConnection
  | .doPendingFunctors =>
      guarded (w.Between ∧ w.io.running = false) { w with io := w.io.start }
  | .runFunctor answer =>
      match w.io.todo with
      | [] => none
      | functor :: _ =>
          guarded w.Between
            (if functor.holdsConnection || w.alive then
              ({ w with io := w.io.next }).call file answer functor
            else { w with undefined := true })
  | .release =>
      guarded (w.Between ∧ w.io.running = true ∧ w.io.todo = []) { w with io := w.io.finish }
  | .mainDoPendingFunctors => guarded (w.main.running = false) { w with main := w.main.start }
  | .mainRunFunctor =>
      match w.main.todo with
      | [] => none
      | _ :: _ => some { w with main := w.main.next }.removeConnectionInLoop
  | .mainRelease =>
      guarded (w.main.running = true ∧ w.main.todo = []) { w with main := w.main.finish }

def step (file : Nat → List Byte) (w : SharedConnection θ κ) (action : SharedAction θ) :
    Option (SharedConnection θ κ) :=
  if w.undefined then none else (w.move file action).map reap

section Steps

variable {file : Nat → List Byte} {w w' : SharedConnection θ κ}

/-- A call of `runInLoop` by the thread that is at one. -/
theorem move_runInLoop {thread : Option θ} {answer : Except Errno Nat}
    (h : w.move file (.runInLoop thread answer) = some w') :
    (∃ data, w.calls thread = .send data ∧
        w' = { w.setCall thread .idle with returned := w.returned ++ [data] }.runInLoop file thread
          answer (.sendInLoop w.returned.length data)) ∨
      (∃ fileDescriptor offset count, w.calls thread = .sendFile fileDescriptor offset count ∧
        w' = (w.setCall thread .idle).runInLoop file thread answer
          (.task (.sendFileInLoop fileDescriptor offset count))) ∨
      w.calls thread = .setState ∧
        w' = (w.setCall thread .idle).runInLoop file thread answer .shutdownInLoop := by
  simp only [move] at h
  split at h
  · rename_i data hcall
    exact .inl ⟨data, hcall, (Option.some.inj h).symm⟩
  · rename_i fileDescriptor offset count hcall
    exact .inr (.inl ⟨fileDescriptor, offset, count, hcall, (Option.some.inj h).symm⟩)
  · rename_i hcall
    exact .inr (.inr ⟨hcall, (Option.some.inj h).symm⟩)
  · cases h
  · cases h

theorem move_runFunctor {answer : Except Errno Nat}
    (h : w.move file (.runFunctor answer) = some w') :
    ∃ functor rest, w.io.todo = functor :: rest ∧
      w' = if functor.holdsConnection || w.alive then
          ({ w with io := w.io.next }).call file answer functor
        else { w with undefined := true } := by
  simp only [move] at h
  split at h
  · cases h
  · rename_i functor rest htodo
    exact ⟨functor, rest, htodo, (guarded_eq_some.mp h).2.symm⟩

theorem move_mainRunFunctor (h : w.move file .mainRunFunctor = some w') :
    ∃ functor rest, w.main.todo = functor :: rest ∧
      w' = { w with main := w.main.next }.removeConnectionInLoop := by
  simp only [move] at h
  split at h
  · cases h
  · rename_i functor rest htodo
    exact ⟨functor, rest, htodo, (Option.some.inj h).symm⟩

theorem step_eq_some {action : SharedAction θ}
    (h : w.step file action = some w') : ∃ v, w.move file action = some v ∧ w' = v.reap := by
  rw [step] at h
  split at h
  · cases h
  · obtain ⟨v, hmove, rfl⟩ := Option.map_eq_some_iff.mp h
    exact ⟨v, hmove, rfl⟩

end Steps

/-- An established connection in `connections_`, before any call. -/
structure Initial (w : SharedConnection θ κ) : Prop where
  established : Running.Established ⟨w.session, []⟩
  io_eq : w.io = .empty
  main_eq : w.main = .empty
  mapped : w.mapped = true
  closing : w.closing = false
  holders_eq : w.holders = []
  alive : w.alive = true
  calls_eq : ∀ thread, w.calls thread = .idle
  undefined : w.undefined = false
  returned_eq : w.returned = []
  owed_eq : w.owed = 0
  executed_eq : w.executed = []

def system (file : Nat → List Byte) : System (SharedConnection θ κ) (SharedAction θ) where
  init := Initial
  step := step file

/-- `subLoop` says whether the connection belongs to a sub loop. -/
def established (session : Session κ) (subLoop : Bool) : SharedConnection θ κ where
  session := session
  io := .empty
  main := .empty
  subLoop := subLoop
  mapped := true
  closing := false
  holders := []
  alive := true
  calls _ := .idle
  undefined := false
  returned := []
  owed := 0
  executed := []

omit [DecidableEq θ] in
theorem initial_established {session : Session κ} (h : Running.Established ⟨session, []⟩)
    (subLoop : Bool) : (established session subLoop : SharedConnection θ κ).Initial :=
  ⟨h, rfl, rfl, rfl, rfl, rfl, rfl, fun _ => rfl, rfl, rfl, rfl, rfl⟩

end SharedConnection

end MuduoCore
