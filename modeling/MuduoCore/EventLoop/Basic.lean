import MuduoCore.Lib.Transition
import Mathlib.Algebra.Group.Nat.Defs

/-!
# EventLoop

`src/EventLoop.cpp` with every store and load of the shared members, every critical section and every
access to the eventfd as a step of its own. The loop's thread has a program counter; any number of
other threads `θ` may be inside `queueInLoop` or `quit`. What a functor or an event handler does is
left open: while one runs, the loop's thread may take any of the steps of user code.
-/

namespace MuduoCore

/-- Where the loop's thread is. User code of that thread runs in `outside`, `handling`, `running` and
`releasing`, where the executed functors are destroyed. -/
inductive Point where
  | outside
  | entered
  | testing
  | aboutToPoll
  | polling
  | dispatching
  | handling
  | swapping
  | batch
  | running
  | releasing
  | leaving
  deriving DecidableEq, Repr

def Point.isUserCode : Point → Bool
  | outside | handling | running | releasing => true
  | _ => false

/-- Where another thread is in a call of `queueInLoop` or `quit`: it has pushed, or stored `quit_`, and
has not yet called `wakeup`. -/
inductive Call where
  | idle
  | inQueueInLoop
  | inQuit
  deriving DecidableEq, Repr

inductive Active where
  | wakeupChannel
  | other
  deriving DecidableEq, Repr

/-- `functors` is what is left of the local vector of `doPendingFunctors`, `inCall` whether the loop's
thread is between its push and its test in `queueInLoop`. `pushed` and `executed` record what
happened. -/
structure EventLoop (F θ : Type*) where
  looping : Bool
  quit : Bool
  callingPendingFunctors : Bool
  pendingFunctors : List F
  wakeupFd : Nat
  activeChannels : List Active
  point : Point
  functors : List F
  inCall : Bool
  calls : θ → Call
  pushed : List F
  executed : List F

inductive LoopAction (F θ : Type*) where
  | queueInLoop (thread : θ) (functor : F)
  | quit (thread : θ)
  | wakeup (thread : θ)
  | ownQueueInLoop (functor : F)
  | ownWakeup
  | ownQuit
  | enter
  | clearQuit
  | test
  | poll
  | pollReturns (active : List Active)
  | handleEvent
  | handlerReturns
  | doPendingFunctors
  | swap
  | runFunctor
  | functorReturns
  | finishBatch
  | release
  | leave
  deriving DecidableEq

/-- `::write` of 1 to an eventfd, which fails when the counter is at its maximum. -/
def eventfdWrite (counter : Nat) : Nat := if counter + 1 ≤ 2 ^ 64 - 2 then counter + 1 else counter

theorem eventfdWrite_pos (counter : Nat) : 0 < eventfdWrite counter := by
  unfold eventfdWrite
  split <;> omega

namespace EventLoop

variable {F θ : Type*}

def new : EventLoop F θ where
  looping := false
  quit := false
  callingPendingFunctors := false
  pendingFunctors := []
  wakeupFd := 0
  activeChannels := []
  point := .outside
  functors := []
  inCall := false
  calls _ := .idle
  pushed := []
  executed := []

/-- The critical section of `queueInLoop`. -/
def push (l : EventLoop F θ) (functor : F) : EventLoop F θ :=
  { l with
    pendingFunctors := l.pendingFunctors ++ [functor]
    pushed := l.pushed ++ [functor] }

def wakeup (l : EventLoop F θ) : EventLoop F θ := { l with wakeupFd := eventfdWrite l.wakeupFd }

/-- The read of the eventfd, which takes the whole counter. -/
def handleRead (l : EventLoop F θ) : EventLoop F θ := { l with wakeupFd := 0 }

def At (l : EventLoop F θ) (point : Point) : Prop := l.point = point ∧ l.inCall = false

def InUserCode (l : EventLoop F θ) : Prop := l.point.isUserCode = true ∧ l.inCall = false

instance (l : EventLoop F θ) (point : Point) : Decidable (l.At point) :=
  inferInstanceAs (Decidable (_ ∧ _))

instance (l : EventLoop F θ) : Decidable l.InUserCode := inferInstanceAs (Decidable (_ ∧ _))

def goto (l : EventLoop F θ) (point : Point) : EventLoop F θ := { l with point := point }

variable [DecidableEq θ]

def setCall (l : EventLoop F θ) (thread : θ) (call : Call) : EventLoop F θ :=
  { l with calls := Function.update l.calls thread call }

/-- Poll reports the wakeup channel only when the eventfd is readable, and may return with any other
channels or, after the timeout or a signal, with none. -/
def step (l : EventLoop F θ) : LoopAction F θ → Option (EventLoop F θ)
  | .queueInLoop thread functor =>
      guarded (l.calls thread = .idle) ((l.push functor).setCall thread .inQueueInLoop)
  | .quit thread =>
      guarded (l.calls thread = .idle) ({ l with quit := true }.setCall thread .inQuit)
  | .wakeup thread => guarded (l.calls thread ≠ .idle) (l.wakeup.setCall thread .idle)
  | .ownQueueInLoop functor => guarded l.InUserCode { l.push functor with inCall := true }
  | .ownWakeup =>
      guarded (l.inCall = true)
        { (if l.callingPendingFunctors then l.wakeup else l) with inCall := false }
  | .ownQuit => guarded l.InUserCode { l with quit := true }
  | .enter => guarded (l.At .outside) { l with looping := true, point := .entered }
  | .clearQuit => guarded (l.At .entered) { l with quit := false, point := .testing }
  | .test => guarded (l.At .testing) (l.goto (if l.quit then .leaving else .aboutToPoll))
  | .poll => guarded (l.At .aboutToPoll) { l with activeChannels := [], point := .polling }
  | .pollReturns active =>
      guarded (l.At .polling ∧ (.wakeupChannel ∈ active → 0 < l.wakeupFd))
        { l with activeChannels := active, point := .dispatching }
  | .handleEvent =>
      match l.activeChannels with
      | [] => none
      | .wakeupChannel :: rest =>
          guarded (l.At .dispatching) { l.handleRead with activeChannels := rest }
      | .other :: rest =>
          guarded (l.At .dispatching) { l with activeChannels := rest, point := .handling }
  | .handlerReturns => guarded (l.At .handling) (l.goto .dispatching)
  | .doPendingFunctors =>
      guarded (l.At .dispatching ∧ l.activeChannels = [])
        { l with functors := [], callingPendingFunctors := true, point := .swapping }
  | .swap =>
      guarded (l.At .swapping)
        { l with functors := l.pendingFunctors, pendingFunctors := l.functors, point := .batch }
  | .runFunctor =>
      match l.functors with
      | [] => none
      | functor :: rest =>
          guarded (l.At .batch)
            { l with functors := rest, executed := l.executed ++ [functor], point := .running }
  | .functorReturns => guarded (l.At .running) (l.goto .batch)
  | .finishBatch =>
      guarded (l.At .batch ∧ l.functors = [])
        { l with callingPendingFunctors := false, point := .releasing }
  | .release => guarded (l.At .releasing) (l.goto .testing)
  | .leave => guarded (l.At .leaving) { l with looping := false, point := .outside }

def system : System (EventLoop F θ) (LoopAction F θ) where
  init l := l = new
  step := step

/-! ### What a step can do -/

variable {l l' : EventLoop F θ}

theorem step_handleEvent (hstep : l.step .handleEvent = some l') :
    l.At .dispatching ∧ ∃ rest,
      l.activeChannels = .wakeupChannel :: rest ∧ l' = { l.handleRead with activeChannels := rest } ∨
      l.activeChannels = .other :: rest ∧
        l' = { l with activeChannels := rest, point := .handling } := by
  simp only [step] at hstep
  split at hstep
  · cases hstep
  · rename_i rest hactive
    obtain ⟨hat, rfl⟩ := guarded_eq_some.mp hstep
    exact ⟨hat, rest, .inl ⟨hactive, rfl⟩⟩
  · rename_i rest hactive
    obtain ⟨hat, rfl⟩ := guarded_eq_some.mp hstep
    exact ⟨hat, rest, .inr ⟨hactive, rfl⟩⟩

theorem step_runFunctor (hstep : l.step .runFunctor = some l') :
    l.At .batch ∧ ∃ functor rest, l.functors = functor :: rest ∧
      l' = { l with functors := rest, executed := l.executed ++ [functor], point := .running } := by
  simp only [step] at hstep
  split at hstep
  · cases hstep
  · rename_i functor rest hfunctors
    obtain ⟨hat, rfl⟩ := guarded_eq_some.mp hstep
    exact ⟨hat, functor, rest, hfunctors, rfl⟩

end EventLoop

end MuduoCore
