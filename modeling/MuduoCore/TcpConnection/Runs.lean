import MuduoCore.TcpConnection.Basic
import MuduoCore.Lib.Transition

/-!
# Runs of one connection

Everything that can happen to an established connection on the thread of its loop, in any order: calls
of the user, events of the poller and the functors that the connection queued for itself. The answers
of the kernel are part of the steps.
-/

namespace MuduoCore

/-- A connection and the functors that `doPendingFunctors` swapped out and has not executed yet. -/
structure Running (κ : Type*) where
  session : Session κ
  functors : List Task

inductive Step where
  | send (data : List Byte) (answer : Except Errno Nat)
  | sendFile (fileDescriptor offset count : Nat) (answer : Except Errno Nat)
  | shutdown
  | handleRead (answer : Except Errno (List Byte))
  | handleWrite (answer : Except Errno Nat)
  | handleClose
  | handleError
  | connectDestroyed
  | doPendingFunctors
  | runFunctor (answer : Except Errno Nat)

namespace Running

variable {κ : Type*}

/-- The user's callbacks among the functors are recorded nowhere: what they do are further steps. -/
def runTask (file : Nat → List Byte) (s : Session κ) (answer : Except Errno Nat) : Task → Session κ
  | .sendFileInLoop fileDescriptor offset count =>
      s.sendFileInLoop file fileDescriptor offset count answer
  | .writeCompleteCallback => s
  | .highWaterMarkCallback _ => s

def step (file : Nat → List Byte) (r : Running κ) : Step → Option (Running κ)
  | .send data answer => some { r with session := r.session.send data answer }
  | .sendFile fileDescriptor offset count answer =>
      some { r with session := r.session.sendFile file fileDescriptor offset count answer }
  | .shutdown => some { r with session := r.session.shutdown }
  | .handleRead answer => some { r with session := r.session.handleRead answer }
  | .handleWrite answer => some { r with session := r.session.handleWrite answer }
  | .handleClose => some { r with session := r.session.handleClose }
  | .handleError => some { r with session := r.session.handleError }
  | .connectDestroyed => some { r with session := r.session.connectDestroyed }
  | .doPendingFunctors =>
      if r.functors = [] then
        some { session := { r.session with pendingFunctors := [] }
               functors := r.session.pendingFunctors }
      else none
  | .runFunctor answer =>
      match r.functors with
      | [] => none
      | task :: rest => some { session := runTask file r.session answer task, functors := rest }

section Steps

variable {file : Nat → List Byte} {r r' : Running κ}

theorem step_doPendingFunctors (hstep : step file r .doPendingFunctors = some r') :
    r.functors = [] ∧
      r' = { session := { r.session with pendingFunctors := [] }
             functors := r.session.pendingFunctors } := by
  simp only [step] at hstep
  split at hstep
  · rename_i hempty
    exact ⟨hempty, (Option.some.inj hstep).symm⟩
  · cases hstep

theorem step_runFunctor {answer : Except Errno Nat}
    (hstep : step file r (.runFunctor answer) = some r') :
    ∃ task rest, r.functors = task :: rest ∧
      r' = { session := runTask file r.session answer task, functors := rest } := by
  simp only [step] at hstep
  split at hstep
  · cases hstep
  · rename_i task rest hfunctors
    exact ⟨task, rest, hfunctors, (Option.some.inj hstep).symm⟩

end Steps

/-- A new connection on its loop, before `connectEstablished`. -/
def fresh (self : κ) (poller : EPollPoller κ) (fd highWaterMark bufferSize : Nat)
    (connectionCallback messageCallback writeCompleteCallback highWaterMarkCallback
      closeCallback : Bool) : Session κ :=
  { self := self
    conn := TcpConnection.new fd highWaterMark bufferSize connectionCallback messageCallback
      writeCompleteCallback highWaterMarkCallback closeCallback
    poller := poller
    pendingFunctors := []
    trace := [] }

def Established (r : Running κ) : Prop :=
  ∃ (self : κ) (poller : EPollPoller κ) (fd highWaterMark bufferSize : Nat)
    (connectionCallback messageCallback writeCompleteCallback highWaterMarkCallback
      closeCallback : Bool),
    r.session = (fresh self poller fd highWaterMark bufferSize connectionCallback messageCallback
      writeCompleteCallback highWaterMarkCallback closeCallback).connectEstablished ∧
    r.functors = []

/-- The runs of one connection; `file` gives the content of each file descriptor. -/
def system (file : Nat → List Byte) : System (Running κ) Step where
  init := Established
  step := step file

def sample : Running Unit where
  session := (fresh () EPollPoller.new 7 64 16 true true true true true).connectEstablished
  functors := []

theorem established_sample : Established sample :=
  ⟨(), EPollPoller.new, 7, 64, 16, true, true, true, true, true, rfl, rfl⟩

end Running

end MuduoCore
