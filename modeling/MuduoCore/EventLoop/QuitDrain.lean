import MuduoCore.EventLoop.FunctorQueue

/-!
# Functors at quit

`loop` tests `quit_` after the batch that `doPendingFunctors` has swapped out. What is pushed after
that swap waits for another iteration, and a quit stored before the test prevents it.
-/

namespace MuduoCore

variable {F θ : Type*}

/-- From the test of `quit_` to the swap. -/
def Point.willSwap : Point → Bool
  | aboutToPoll | polling | dispatching | handling | swapping => true
  | _ => false

def LoopAction.isQuit : LoopAction F θ → Bool
  | quit _ | ownQuit => true
  | _ => false

namespace EventLoop

/-- `loop` is running, and has stored `quit_ = false`. -/
def Running (l : EventLoop F θ) : Prop := l.point ≠ .outside ∧ l.point ≠ .entered

instance (l : EventLoop F θ) : Decidable l.Running := inferInstanceAs (Decidable (_ ∧ _))

/-- How many functors, counted in the order of their pushes, a swap has taken so far. -/
def swapped (l : EventLoop F θ) : Nat := l.executed.length + l.functors.length

/-- The functor at place `i` has been swapped out, or will be before the next test of `quit_`. -/
def Covers (l : EventLoop F θ) (i : Nat) : Prop := l.point.willSwap = true ∨ i < l.swapped

variable {l l' : EventLoop F θ} {i : Nat}

theorem Queued.length_eq (h : Queued l) :
    l.swapped + l.pendingFunctors.length = l.pushed.length := by
  have hlength := congrArg List.length h.order
  simp only [List.length_append] at hlength
  exact hlength

theorem Covers.of_same (h : l.Covers i) (hpoint : l.point.willSwap = true → l'.point.willSwap = true)
    (hswapped : l.swapped ≤ l'.swapped) : l'.Covers i := by
  apply h.imp hpoint
  intro hi
  omega

variable [DecidableEq θ] {action : LoopAction F θ}

/-- One step: only the swap ends the way from a test to a swap, and it takes everything. -/
theorem Covers.step (h : l.Covers i) (hqueued : Queued l) (hi : i < l.pushed.length)
    (hstep : EventLoop.step l action = some l') : l'.Covers i := by
  have hlast := hqueued.length_eq
  cases action with
  | swap =>
      obtain ⟨hat, rfl⟩ := guarded_eq_some.mp hstep
      have hnone : l.functors = [] := hqueued.outside_batch (by rw [hat.1]; rfl)
      right
      simp only [swapped, hnone, List.length_nil] at hlast ⊢
      omega
  | doPendingFunctors =>
      obtain ⟨⟨hat, -⟩, rfl⟩ := guarded_eq_some.mp hstep
      exact .inl rfl
  | runFunctor =>
      obtain ⟨hat, functor, rest, hfunctors, rfl⟩ := step_runFunctor hstep
      apply h.of_same
      · rw [hat.1]
        intro hswap
        cases hswap
      · simp only [swapped, hfunctors, List.length_append, List.length_cons, List.length_nil]
        omega
  | handleEvent =>
      obtain ⟨-, rest, ⟨-, rfl⟩ | ⟨-, rfl⟩⟩ := step_handleEvent hstep
      · exact h.of_same id le_rfl
      · exact .inl rfl
  | ownWakeup =>
      obtain ⟨-, rfl⟩ := guarded_eq_some.mp hstep
      split <;> exact h.of_same id le_rfl
  | queueInLoop | quit | wakeup | ownQueueInLoop | ownQuit =>
      obtain ⟨-, rfl⟩ := guarded_eq_some.mp hstep
      exact h.of_same id le_rfl
  | poll | handlerReturns =>
      obtain ⟨-, rfl⟩ := guarded_eq_some.mp hstep
      exact .inl rfl
  | pollReturns active =>
      obtain ⟨-, rfl⟩ := guarded_eq_some.mp hstep
      exact .inl rfl
  | finishBatch =>
      obtain ⟨⟨hat, -⟩, rfl⟩ := guarded_eq_some.mp hstep
      refine h.of_same ?_ le_rfl
      rw [hat.1]
      intro hswap
      cases hswap
  | enter | clearQuit | test | functorReturns | release | leave =>
      obtain ⟨hat, rfl⟩ := guarded_eq_some.mp hstep
      refine h.of_same ?_ le_rfl
      rw [hat.1]
      intro hswap
      cases hswap

theorem pushed_step (hstep : step l action = some l') : l.pushed <+: l'.pushed := by
  cases action with
  | queueInLoop | ownQueueInLoop =>
      obtain ⟨-, rfl⟩ := guarded_eq_some.mp hstep
      exact List.prefix_append _ _
  | ownWakeup =>
      obtain ⟨-, rfl⟩ := guarded_eq_some.mp hstep
      split <;> exact List.prefix_rfl
  | handleEvent =>
      obtain ⟨-, rest, ⟨-, rfl⟩ | ⟨-, rfl⟩⟩ := step_handleEvent hstep
      · exact List.prefix_rfl
      · exact List.prefix_rfl
  | runFunctor =>
      obtain ⟨-, functor, rest, -, rfl⟩ := step_runFunctor hstep
      exact List.prefix_rfl
  | _ =>
      obtain ⟨-, rfl⟩ := guarded_eq_some.mp hstep
      exact List.prefix_rfl

theorem Covers.run (h : l.Covers i) (hqueued : Queued l) (hi : i < l.pushed.length)
    {actions : List (LoopAction F θ)} (hrun : system.Run l actions l') :
    l'.Covers i ∧ Queued l' ∧ l.pushed <+: l'.pushed := by
  refine hrun.invariant (I := fun u => u.Covers i ∧ Queued u ∧ l.pushed <+: u.pushed)
    ⟨h, hqueued, List.prefix_rfl⟩ ?_
  rintro t action u ⟨hcovers, ht, hprefix⟩ - hstep
  have hit := hi.trans_le hprefix.length_le
  exact ⟨hcovers.step ht hit hstep, ht.step hstep, hprefix.trans (pushed_step hstep)⟩

omit [DecidableEq θ] in
/-- Outside the batches, what was swapped out was executed. -/
theorem Covers.executed (h : l.Covers i) (hqueued : Queued l) (hswap : l.point.willSwap = false)
    (hbatch : l.point.inBatch = false) : l.executed[i]? = l.pushed[i]? := by
  have hi : i < l.executed.length := by
    obtain hpoint | hi := h
    · rw [hswap] at hpoint
      cases hpoint
    · rwa [swapped, hqueued.outside_batch hbatch, List.length_nil, Nat.add_zero] at hi
  rw [← hqueued.order, List.append_assoc, List.getElem?_append_left hi]

/-- A running loop stays in `loop` until it leaves it. -/
theorem Running.step (h : l.Running) (hstep : EventLoop.step l action = some l') :
    l'.Running ∨ action = .leave ∧ l'.point = .outside := by
  cases action with
  | leave =>
      obtain ⟨-, rfl⟩ := guarded_eq_some.mp hstep
      exact .inr ⟨rfl, rfl⟩
  | enter =>
      obtain ⟨hat, -⟩ := guarded_eq_some.mp hstep
      exact absurd hat.1 h.1
  | queueInLoop | quit | wakeup | ownQueueInLoop | ownQuit =>
      obtain ⟨-, rfl⟩ := guarded_eq_some.mp hstep
      exact .inl h
  | ownWakeup =>
      obtain ⟨-, rfl⟩ := guarded_eq_some.mp hstep
      left
      split <;> exact h
  | handleEvent =>
      left
      obtain ⟨-, rest, ⟨-, rfl⟩ | ⟨-, rfl⟩⟩ := step_handleEvent hstep
      · exact h
      · exact ⟨by simp, by simp⟩
  | runFunctor =>
      left
      obtain ⟨-, functor, rest, -, rfl⟩ := step_runFunctor hstep
      exact ⟨by simp, by simp⟩
  | test =>
      obtain ⟨-, rfl⟩ := guarded_eq_some.mp hstep
      left
      simp only [Running, goto]
      split <;> decide
  | _ =>
      obtain ⟨-, rfl⟩ := guarded_eq_some.mp hstep
      exact .inl ⟨by simp [goto], by simp [goto]⟩

/-! ### The way out -/

/-- What the loop's thread does from a batch to the end of `loop`, when the user's code returns. -/
def returns : LoopAction F θ → Bool
  | .ownWakeup | .runFunctor | .functorReturns | .finishBatch | .release | .test => true
  | _ => false

/-- A way of the loop's own thread from `l` to the end of `loop`, with the rest of the batch
executed. -/
def Leaves (l : EventLoop F θ) : Prop :=
  ∃ actions u, system.RunUnder (fun _ action => returns action = true) l actions u ∧
    u.At .leaving ∧ u.executed = l.executed ++ l.functors

theorem Leaves.of_step (h : l'.Leaves) (hreturns : returns action = true)
    (hstep : EventLoop.step l action = some l')
    (hexecuted : l'.executed ++ l'.functors = l.executed ++ l.functors) : l.Leaves := by
  obtain ⟨actions, u, hrun, hat, hall⟩ := h
  exact ⟨action :: actions, u, .cons hreturns hstep hrun, hat, hall.trans hexecuted⟩

theorem leaves_of_testing (hat : l.At .testing) (hquit : l.quit = true) (hnone : l.functors = []) :
    l.Leaves := by
  have hstep : EventLoop.step l .test = some (l.goto .leaving) := by
    apply guarded_eq_some.mpr
    rw [hquit]
    exact ⟨hat, rfl⟩
  refine ⟨[.test], _, .single rfl hstep, ⟨rfl, hat.2⟩, ?_⟩
  rw [hnone, List.append_nil]
  rfl

theorem leaves_of_releasing (hat : l.At .releasing) (hquit : l.quit = true)
    (hnone : l.functors = []) : l.Leaves := by
  have hstep : EventLoop.step l .release = some (l.goto .testing) := guarded_eq_some.mpr ⟨hat, rfl⟩
  exact (leaves_of_testing (l := l.goto .testing) ⟨rfl, hat.2⟩ hquit hnone).of_step rfl hstep rfl

theorem leaves_of_batch {l : EventLoop F θ} (hat : l.At .batch) (hquit : l.quit = true) :
    l.Leaves := by
  generalize hfunctors : l.functors = functors
  induction functors generalizing l with
  | nil =>
      set done : EventLoop F θ := { l with callingPendingFunctors := false, point := .releasing }
      have hstep : EventLoop.step l .finishBatch = some done :=
        guarded_eq_some.mpr ⟨⟨hat, hfunctors⟩, rfl⟩
      have hdone : done.Leaves := leaves_of_releasing ⟨rfl, hat.2⟩ hquit hfunctors
      exact hdone.of_step rfl hstep rfl
  | cons functor rest ih =>
      set run : EventLoop F θ :=
        { l with functors := rest, executed := l.executed ++ [functor], point := .running }
      have hrun : EventLoop.step l .runFunctor = some run := by
        simp only [EventLoop.step, hfunctors]
        exact guarded_eq_some.mpr ⟨hat, rfl⟩
      have hreturn : EventLoop.step run .functorReturns = some (run.goto .batch) :=
        guarded_eq_some.mpr ⟨⟨rfl, hat.2⟩, rfl⟩
      have hrest : (run.goto .batch).Leaves := ih ⟨rfl, hat.2⟩ hquit rfl
      refine (hrest.of_step rfl hreturn rfl).of_step rfl hrun ?_
      rw [hfunctors]
      exact List.append_assoc l.executed [functor] rest

/-- Once it runs and `quit_` is set, `loop` can end without another swap, unless one is due. -/
theorem leaves_of_running (hqueued : Queued l) (hrunning : l.Running) (hquit : l.quit = true)
    (hswap : l.point.willSwap = false) : l.Leaves := by
  have hidle : ∀ l : EventLoop F θ, Queued l → l.Running → l.quit = true →
      l.point.willSwap = false → l.inCall = false → l.Leaves := by
    intro l hqueued hrunning hquit hswap hinCall
    have hnone : l.point.inBatch = false → l.functors = [] := hqueued.outside_batch
    cases hpoint : l.point with
    | outside => exact absurd hpoint hrunning.1
    | entered => exact absurd hpoint hrunning.2
    | testing => exact leaves_of_testing ⟨hpoint, hinCall⟩ hquit (hnone (by rw [hpoint]; rfl))
    | batch => exact leaves_of_batch ⟨hpoint, hinCall⟩ hquit
    | running =>
        have hreturn : EventLoop.step l .functorReturns = some (l.goto .batch) :=
          guarded_eq_some.mpr ⟨⟨hpoint, hinCall⟩, rfl⟩
        have hbatch : (l.goto .batch).Leaves := leaves_of_batch ⟨rfl, hinCall⟩ hquit
        exact hbatch.of_step rfl hreturn rfl
    | releasing => exact leaves_of_releasing ⟨hpoint, hinCall⟩ hquit (hnone (by rw [hpoint]; rfl))
    | leaving =>
        refine ⟨[], l, .nil l, ⟨hpoint, hinCall⟩, ?_⟩
        rw [hnone (by rw [hpoint]; rfl), List.append_nil]
    | _ =>
        rw [hpoint] at hswap
        cases hswap
  cases hinCall : l.inCall with
  | false => exact hidle l hqueued hrunning hquit hswap hinCall
  | true =>
      set settled : EventLoop F θ :=
        { (if l.callingPendingFunctors then l.wakeup else l) with inCall := false } with hsettled
      have hstep : EventLoop.step l .ownWakeup = some settled :=
        guarded_eq_some.mpr ⟨hinCall, rfl⟩
      have hsame : settled.point = l.point ∧ settled.quit = l.quit ∧
          settled.executed ++ settled.functors = l.executed ++ l.functors := by
        rw [hsettled]
        split <;> exact ⟨rfl, rfl, rfl⟩
      obtain ⟨hpoint, hset, hexecuted⟩ := hsame
      have hleaves : settled.Leaves := by
        apply hidle settled (hqueued.step hstep)
        · rw [Running, hpoint]
          exact hrunning
        · rw [hset, hquit]
        · rw [hpoint, hswap]
        · rfl
      exact hleaves.of_step rfl hstep hexecuted

theorem isQuit_step (hquit : LoopAction.isQuit action = true) (hstep : step l action = some l') :
    l'.quit = true ∧ l'.point = l.point ∧ l'.executed = l.executed ∧ l'.functors = l.functors ∧
      l'.pushed = l.pushed := by
  cases action with
  | quit | ownQuit =>
      obtain ⟨-, rfl⟩ := guarded_eq_some.mp hstep
      exact ⟨rfl, rfl, rfl, rfl, rfl⟩
  | _ => cases hquit

/-- A functor that was pushed before a running loop is told to quit, by whichever thread, is executed
before `loop` returns in every run that follows, exactly when the swap has taken it already or is
still to come before the next test of `quit_`. -/
theorem executed_before_return_iff (h : system.Reachable l) (hrunning : l.Running)
    (hquit : LoopAction.isQuit action = true) (hstep : step l action = some l')
    (hi : i < l.pushed.length) :
    (∀ actions u, system.Run l' actions u → u.point = .leaving →
        u.executed[i]? = l.pushed[i]?) ↔ l.Covers i := by
  have hqueued := queued_of_reachable h
  have hqueued' := hqueued.step hstep
  obtain ⟨hset, hpoint, hexecuted, hfunctors, hpushed⟩ := isQuit_step hquit hstep
  constructor
  · intro hall
    by_contra hnot
    obtain ⟨hswap, hlast⟩ := not_or.mp hnot
    have hleaves : l'.Leaves := by
      apply leaves_of_running hqueued'
      · rw [Running, hpoint]
        exact hrunning
      · exact hset
      · rw [hpoint]
        simpa using hswap
    obtain ⟨actions, u, hrun, hat, hdone⟩ := hleaves
    have hlost := hall actions u (hrun.weaken fun _ _ _ => trivial) hat.1
    have hlength : u.executed.length = l.swapped := by
      rw [hdone, List.length_append, hexecuted, hfunctors, swapped]
    rw [List.getElem?_eq_none (by omega), List.getElem?_eq_getElem hi] at hlost
    cases hlost
  · intro hcovers actions u hrun hat
    have hcovers' : l'.Covers i := by
      rw [Covers, swapped, hpoint, hexecuted, hfunctors]
      exact hcovers
    obtain ⟨hlast, hu, rest, hrest⟩ := hcovers'.run hqueued' (by rwa [hpushed]) hrun
    rw [hlast.executed hu (by rw [hat]; rfl) (by rw [hat]; rfl), ← hrest, hpushed,
      List.getElem?_append_left hi]

end EventLoop

end MuduoCore
