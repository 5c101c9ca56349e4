import MuduoCore.EventLoop.Basic

/-!
# EventLoopThread

`src/EventLoopThread.cpp`: the owner with `startLoop` and the destructor, the child with `threadFunc`,
and the loop that the child runs. The thread `none` of the loop is the owner; other threads, and the
functors and handlers of the child, may call `queueInLoop` and `quit` as well.
-/

namespace MuduoCore

/-- Where the child is in `threadFunc`. The loop is constructed from `initializing`, where the
`callback_` of the user runs, to `unpublished`. -/
inductive ChildPoint where
  | notStarted
  | started
  | initializing
  | published
  | looping
  | returned
  | unpublished
  | finished
  deriving DecidableEq, Repr

/-- Where the owner is: `found` has read `loop_` in the destructor, `calling` has read it again for
the call of `quit`, `quitting` has stored `quit_`, and in `joining` the call has returned. -/
inductive OwnerPoint where
  | idle
  | waiting
  | started
  | destructing
  | found
  | calling
  | quitting
  | joining
  | destroyed
  deriving DecidableEq, Repr

/-- `loopSet` is `loop_ != nullptr`. `undefined` is set when the owner has used a null pointer or a
loop that is gone. -/
structure EventLoopThread (F θ : Type*) where
  loop : EventLoop F (Option θ)
  child : ChildPoint
  owner : OwnerPoint
  loopSet : Bool
  undefined : Bool

inductive ThreadAction (F θ : Type*) where
  | startLoop
  | startLoopReturns
  | construct
  | publish
  | unpublish
  | finish
  | loop (action : LoopAction F (Option θ))
  | destructor
  | testLoop
  | loadLoop
  | storeQuit
  | wakeup
  | join
  deriving DecidableEq

namespace EventLoopThread

variable {F θ : Type*}

def LoopExists (s : EventLoopThread F θ) : Prop :=
  s.child ≠ .notStarted ∧ s.child ≠ .started ∧ s.child ≠ .finished

instance (s : EventLoopThread F θ) : Decidable s.LoopExists := inferInstanceAs (Decidable (_ ∧ _))

/-- Who may take a step of the loop. Other threads have the pointer only while the loop exists, the
owner uses it between `startLoop` and the destructor, and the child runs `callback_` and then
`loop`. -/
def Allows (s : EventLoopThread F θ) : LoopAction F (Option θ) → Prop
  | .queueInLoop none _ => s.owner = .started
  | .wakeup none => s.owner = .started
  | .quit none => False
  | .queueInLoop (some _) _ | .wakeup (some _) | .quit (some _) => s.LoopExists
  | .ownQueueInLoop _ | .ownWakeup | .ownQuit => s.child = .initializing ∨ s.child = .looping
  | .enter => s.child = .published
  | _ => s.child = .looping

instance (s : EventLoopThread F θ) (action : LoopAction F (Option θ)) :
    Decidable (s.Allows action) := by
  unfold Allows
  split <;> infer_instance

def follow (child : ChildPoint) : LoopAction F (Option θ) → ChildPoint
  | .enter => .looping
  | .leave => .returned
  | _ => child

variable [DecidableEq θ]

def onLoop (s : EventLoopThread F θ) (action : LoopAction F (Option θ)) :
    Option (EventLoopThread F θ) :=
  (s.loop.step action).map fun l => { s with loop := l, child := follow s.child action }

def move (s : EventLoopThread F θ) : ThreadAction F θ → Option (EventLoopThread F θ)
  | .startLoop =>
      guarded (s.owner = .idle ∧ s.child = .notStarted)
        { s with owner := .waiting, child := .started }
  | .startLoopReturns =>
      guarded (s.owner = .waiting ∧ s.loopSet = true) { s with owner := .started }
  | .construct =>
      guarded (s.child = .started) { s with child := .initializing, loop := EventLoop.new }
  | .publish =>
      guarded (s.child = .initializing ∧ s.loop.inCall = false)
        { s with child := .published, loopSet := true }
  | .unpublish =>
      guarded (s.child = .returned) { s with child := .unpublished, loopSet := false }
  | .finish => guarded (s.child = .unpublished) { s with child := .finished }
  | .loop action =>
      if s.Allows action then s.onLoop action else none
  | .destructor =>
      guarded (s.owner = .started ∧ s.loop.calls none = .idle) { s with owner := .destructing }
  | .testLoop =>
      guarded (s.owner = .destructing)
        { s with owner := if s.loopSet then .found else .destroyed }
  | .loadLoop =>
      guarded (s.owner = .found)
        (if s.loopSet then { s with owner := .calling } else { s with undefined := true })
  | .storeQuit =>
      if s.owner = .calling then
        if s.LoopExists then
          (s.onLoop (.quit none)).map fun s => { s with owner := .quitting }
        else some { s with undefined := true }
      else none
  | .wakeup =>
      if s.owner = .quitting then
        if s.LoopExists then
          (s.onLoop (.wakeup none)).map fun s => { s with owner := .joining }
        else some { s with undefined := true }
      else none
  | .join =>
      guarded (s.owner = .joining ∧ s.child = .finished) { s with owner := .destroyed }

def step (s : EventLoopThread F θ) (action : ThreadAction F θ) : Option (EventLoopThread F θ) :=
  if s.undefined then none else s.move action

def new : EventLoopThread F θ where
  loop := EventLoop.new
  child := .notStarted
  owner := .idle
  loopSet := false
  undefined := false

def system : System (EventLoopThread F θ) (ThreadAction F θ) where
  init s := s = new
  step := step

/-! ### What a step can do -/

/-- The steps of the two threads, with their guards. -/
inductive Moves (s : EventLoopThread F θ) : ThreadAction F θ → EventLoopThread F θ → Prop where
  | startLoop (howner : s.owner = .idle) (hchild : s.child = .notStarted) :
      Moves s .startLoop { s with owner := .waiting, child := .started }
  | startLoopReturns (howner : s.owner = .waiting) (hset : s.loopSet = true) :
      Moves s .startLoopReturns { s with owner := .started }
  | construct (hchild : s.child = .started) :
      Moves s .construct { s with child := .initializing, loop := EventLoop.new }
  | publish (hchild : s.child = .initializing) (hcall : s.loop.inCall = false) :
      Moves s .publish { s with child := .published, loopSet := true }
  | unpublish (hchild : s.child = .returned) :
      Moves s .unpublish { s with child := .unpublished, loopSet := false }
  | finish (hchild : s.child = .unpublished) : Moves s .finish { s with child := .finished }
  | loop {action : LoopAction F (Option θ)} {l : EventLoop F (Option θ)}
      (hallowed : s.Allows action) (hloop : EventLoop.step s.loop action = some l) :
      Moves s (.loop action) { s with loop := l, child := follow s.child action }
  | destructor (howner : s.owner = .started) (hidle : s.loop.calls none = .idle) :
      Moves s .destructor { s with owner := .destructing }
  | testSet (howner : s.owner = .destructing) (hset : s.loopSet = true) :
      Moves s .testLoop { s with owner := .found }
  | testNull (howner : s.owner = .destructing) (hset : s.loopSet = false) :
      Moves s .testLoop { s with owner := .destroyed }
  | loadSet (howner : s.owner = .found) (hset : s.loopSet = true) :
      Moves s .loadLoop { s with owner := .calling }
  | loadNull (howner : s.owner = .found) (hset : s.loopSet = false) :
      Moves s .loadLoop { s with undefined := true }
  | storeQuit {l : EventLoop F (Option θ)} (howner : s.owner = .calling) (hexists : s.LoopExists)
      (hloop : EventLoop.step s.loop (.quit none) = some l) :
      Moves s .storeQuit { s with loop := l, owner := .quitting }
  | storeDangling (howner : s.owner = .calling) (hgone : ¬s.LoopExists) :
      Moves s .storeQuit { s with undefined := true }
  | wakeup {l : EventLoop F (Option θ)} (howner : s.owner = .quitting) (hexists : s.LoopExists)
      (hloop : EventLoop.step s.loop (.wakeup none) = some l) :
      Moves s .wakeup { s with loop := l, owner := .joining }
  | wakeupDangling (howner : s.owner = .quitting) (hgone : ¬s.LoopExists) :
      Moves s .wakeup { s with undefined := true }
  | join (howner : s.owner = .joining) (hchild : s.child = .finished) :
      Moves s .join { s with owner := .destroyed }

variable {s s' : EventLoopThread F θ} {action : ThreadAction F θ}

theorem moves_of_step (hstep : s.step action = some s') : s.undefined = false ∧ s.Moves action s' := by
  unfold step at hstep
  split at hstep
  · cases hstep
  · rename_i hdefined
    refine ⟨Bool.eq_false_iff.mpr hdefined, ?_⟩
    cases action with
    | startLoop =>
        obtain ⟨hguard, rfl⟩ := guarded_eq_some.mp hstep
        exact .startLoop hguard.1 hguard.2
    | startLoopReturns =>
        obtain ⟨hguard, rfl⟩ := guarded_eq_some.mp hstep
        exact .startLoopReturns hguard.1 hguard.2
    | construct =>
        obtain ⟨hguard, rfl⟩ := guarded_eq_some.mp hstep
        exact .construct hguard
    | publish =>
        obtain ⟨hguard, rfl⟩ := guarded_eq_some.mp hstep
        exact .publish hguard.1 hguard.2
    | unpublish =>
        obtain ⟨hguard, rfl⟩ := guarded_eq_some.mp hstep
        exact .unpublish hguard
    | finish =>
        obtain ⟨hguard, rfl⟩ := guarded_eq_some.mp hstep
        exact .finish hguard
    | loop loopAction =>
        simp only [move] at hstep
        split at hstep
        · rename_i hallowed
          obtain ⟨l, hl, rfl⟩ := Option.map_eq_some_iff.mp hstep
          exact .loop hallowed hl
        · cases hstep
    | destructor =>
        obtain ⟨hguard, rfl⟩ := guarded_eq_some.mp hstep
        exact .destructor hguard.1 hguard.2
    | testLoop =>
        obtain ⟨hguard, rfl⟩ := guarded_eq_some.mp hstep
        by_cases hset : s.loopSet = true
        · rw [if_pos hset]
          exact .testSet hguard hset
        · rw [if_neg hset]
          exact .testNull hguard (Bool.eq_false_iff.mpr hset)
    | loadLoop =>
        obtain ⟨hguard, rfl⟩ := guarded_eq_some.mp hstep
        by_cases hset : s.loopSet = true
        · rw [if_pos hset]
          exact .loadSet hguard hset
        · rw [if_neg hset]
          exact .loadNull hguard (Bool.eq_false_iff.mpr hset)
    | storeQuit =>
        simp only [move] at hstep
        split at hstep
        · rename_i howner
          split at hstep
          · rename_i hexists
            obtain ⟨t, ht, rfl⟩ := Option.map_eq_some_iff.mp hstep
            obtain ⟨l, hl, rfl⟩ := Option.map_eq_some_iff.mp ht
            exact .storeQuit howner hexists hl
          · rename_i hgone
            obtain rfl := Option.some.inj hstep
            exact .storeDangling howner hgone
        · cases hstep
    | wakeup =>
        simp only [move] at hstep
        split at hstep
        · rename_i howner
          split at hstep
          · rename_i hexists
            obtain ⟨t, ht, rfl⟩ := Option.map_eq_some_iff.mp hstep
            obtain ⟨l, hl, rfl⟩ := Option.map_eq_some_iff.mp ht
            exact .wakeup howner hexists hl
          · rename_i hgone
            obtain rfl := Option.some.inj hstep
            exact .wakeupDangling howner hgone
        · cases hstep
    | join =>
        obtain ⟨hguard, rfl⟩ := guarded_eq_some.mp hstep
        exact .join hguard.1 hguard.2

theorem Moves.step (hmoves : s.Moves action s') (hdefined : s.undefined = false) :
    EventLoopThread.step s action = some s' := by
  have hmove : s.move action = some s' := by
    cases hmoves with
    | startLoop howner hchild => exact guarded_eq_some.mpr ⟨⟨howner, hchild⟩, rfl⟩
    | startLoopReturns howner hset => exact guarded_eq_some.mpr ⟨⟨howner, hset⟩, rfl⟩
    | construct hchild => exact guarded_eq_some.mpr ⟨hchild, rfl⟩
    | publish hchild hcall => exact guarded_eq_some.mpr ⟨⟨hchild, hcall⟩, rfl⟩
    | unpublish hchild => exact guarded_eq_some.mpr ⟨hchild, rfl⟩
    | finish hchild => exact guarded_eq_some.mpr ⟨hchild, rfl⟩
    | loop hallowed hloop => rw [move, if_pos hallowed, onLoop, hloop, Option.map_some]
    | destructor howner hidle => exact guarded_eq_some.mpr ⟨⟨howner, hidle⟩, rfl⟩
    | testSet howner hset => exact guarded_eq_some.mpr ⟨howner, by rw [if_pos hset]⟩
    | testNull howner hset => exact guarded_eq_some.mpr ⟨howner, by simp [hset]⟩
    | loadSet howner hset => exact guarded_eq_some.mpr ⟨howner, by rw [if_pos hset]⟩
    | loadNull howner hset => exact guarded_eq_some.mpr ⟨howner, by simp [hset]⟩
    | storeQuit howner hexists hloop =>
        rw [move, if_pos howner, if_pos hexists, onLoop, hloop]
        rfl
    | storeDangling howner hgone => rw [move, if_pos howner, if_neg hgone]
    | wakeup howner hexists hloop =>
        rw [move, if_pos howner, if_pos hexists, onLoop, hloop]
        rfl
    | wakeupDangling howner hgone => rw [move, if_pos howner, if_neg hgone]
    | join howner hchild => exact guarded_eq_some.mpr ⟨⟨howner, hchild⟩, rfl⟩
  rw [EventLoopThread.step, if_neg (by simp [hdefined]), hmove]

end EventLoopThread

end MuduoCore
