import MuduoCore.EventLoop.FunctorQueue

/-!
# Wakeups

Once the queue has been swapped out, whatever is pushed before the next dispatch phase comes with a
write to the eventfd: from another thread always, from a functor because `callingPendingFunctors_` is
set. The loop's thread itself does not write anywhere else, so what it queues outside its event
handlers and functors may wait for a poll that nothing interrupts.
-/

namespace MuduoCore

variable {F θ : Type*}

/-- From the return of poll to the swap. What is pending here is executed before the next poll. -/
def Point.beforeSwap : Point → Bool
  | dispatching | handling | swapping => true
  | _ => false

def Point.isCalling : Point → Bool
  | swapping | batch | running => true
  | _ => false

namespace EventLoop

/-- The eventfd is readable, or somebody is about to make it so. -/
def Notified (l : EventLoop F θ) : Prop :=
  0 < l.wakeupFd ∨ (∃ thread, l.calls thread = .inQueueInLoop) ∨
    (l.inCall = true ∧ l.callingPendingFunctors = true)

structure Awake (l : EventLoop F θ) : Prop where
  calling : l.callingPendingFunctors = l.point.isCalling
  notified : l.point.beforeSwap = false → l.pendingFunctors = [] ∨ l.Notified

/-- The loop's thread queues functors in event handlers and in functors only, or when a wakeup is
under way anyway. -/
def QueuesNoticed (l : EventLoop F θ) : LoopAction F θ → Prop
  | .ownQueueInLoop _ =>
      l.point = .handling ∨ l.point = .running ∨ 0 < l.wakeupFd ∨
        ∃ thread, l.calls thread = .inQueueInLoop
  | _ => True

namespace Awake

variable {l l' : EventLoop F θ}

theorem new : Awake (EventLoop.new : EventLoop F θ) := ⟨rfl, fun _ => Or.inl rfl⟩

theorem of_same (h : Awake l) (hcalling : l'.callingPendingFunctors = l.callingPendingFunctors)
    (hpending : l'.pendingFunctors = l.pendingFunctors) (hfd : l'.wakeupFd = l.wakeupFd)
    (hcalls : l'.calls = l.calls) (hinCall : l'.inCall = l.inCall)
    (hphase : l'.point.isCalling = l.point.isCalling)
    (hswap : l'.point.beforeSwap = false → l.point.beforeSwap = false) : Awake l' := by
  refine ⟨?_, ?_⟩
  · rw [hcalling, hphase]
    exact h.calling
  · intro hbefore
    rw [hpending, Notified, hfd, hcalls, hinCall, hcalling]
    exact h.notified (hswap hbefore)

theorem of_beforeSwap (hcalling : l'.callingPendingFunctors = l'.point.isCalling)
    (hswap : l'.point.beforeSwap = true) : Awake l' :=
  ⟨hcalling, fun hbefore => by rw [hswap] at hbefore; cases hbefore⟩

theorem ownWakeup (h : Awake l) :
    Awake { (if l.callingPendingFunctors then l.wakeup else l) with inCall := false } := by
  cases hcase : l.callingPendingFunctors with
  | true =>
      refine ⟨h.calling, fun _ => Or.inr (Or.inl ?_)⟩
      exact eventfdWrite_pos l.wakeupFd
  | false =>
      refine ⟨h.calling, ?_⟩
      intro hbefore
      apply (h.notified hbefore).imp_right
      intro hnotified
      rcases hnotified with hfd | hthread | hown
      · exact Or.inl hfd
      · exact Or.inr (Or.inl hthread)
      · rw [hcase] at hown
        exact absurd hown.2 (by decide)

variable [DecidableEq θ]

theorem queueInLoop (h : Awake l) (thread : θ) (functor : F) :
    Awake ((l.push functor).setCall thread .inQueueInLoop) := by
  refine ⟨h.calling, fun _ => Or.inr (Or.inr (Or.inl ⟨thread, ?_⟩))⟩
  simp [setCall]

theorem quit (h : Awake l) {thread : θ} (hidle : l.calls thread = .idle) :
    Awake ({ l with quit := true }.setCall thread .inQuit) := by
  refine ⟨h.calling, fun hbefore => (h.notified hbefore).imp_right ?_⟩
  intro hnotified
  rcases hnotified with hfd | ⟨other, hother⟩ | hown
  · exact Or.inl hfd
  · refine Or.inr (Or.inl ⟨other, ?_⟩)
    have hne : other ≠ thread := by
      rintro rfl
      rw [hidle] at hother
      cases hother
    simp [setCall, hne, hother]
  · exact Or.inr (Or.inr hown)

theorem step {action : LoopAction F θ} (h : Awake l) (hqueued : Queued l)
    (hok : QueuesNoticed l action) (hstep : EventLoop.step l action = some l') : Awake l' := by
  cases action with
  | queueInLoop thread functor =>
      obtain ⟨-, rfl⟩ := guarded_eq_some.mp hstep
      exact h.queueInLoop thread functor
  | quit thread =>
      obtain ⟨hidle, rfl⟩ := guarded_eq_some.mp hstep
      exact h.quit hidle
  | wakeup thread =>
      obtain ⟨-, rfl⟩ := guarded_eq_some.mp hstep
      exact ⟨h.calling, fun _ => Or.inr (Or.inl (eventfdWrite_pos l.wakeupFd))⟩
  | ownQueueInLoop functor =>
      obtain ⟨-, rfl⟩ := guarded_eq_some.mp hstep
      rcases hok with hpoint | hpoint | hfd | hthread
      · exact .of_beforeSwap h.calling (by simp [push, hpoint, Point.beforeSwap])
      · refine ⟨h.calling, fun _ => Or.inr (Or.inr (Or.inr ⟨rfl, ?_⟩))⟩
        exact h.calling.trans (by rw [hpoint]; rfl)
      · exact ⟨h.calling, fun _ => Or.inr (Or.inl hfd)⟩
      · exact ⟨h.calling, fun _ => Or.inr (Or.inr (Or.inl hthread))⟩
  | ownWakeup =>
      obtain ⟨-, rfl⟩ := guarded_eq_some.mp hstep
      exact h.ownWakeup
  | ownQuit =>
      obtain ⟨-, rfl⟩ := guarded_eq_some.mp hstep
      exact h.of_same rfl rfl rfl rfl rfl rfl id
  | test =>
      obtain ⟨hat, rfl⟩ := guarded_eq_some.mp hstep
      refine h.of_same rfl rfl rfl rfl rfl ?_ fun _ => by rw [hat.1]; rfl
      rw [hat.1]
      cases l.quit <;> rfl
  | pollReturns active =>
      obtain ⟨⟨hat, -⟩, rfl⟩ := guarded_eq_some.mp hstep
      exact .of_beforeSwap (h.calling.trans (by rw [hat.1]; rfl)) rfl
  | handleEvent =>
      obtain ⟨hat, rest, ⟨-, rfl⟩ | ⟨-, rfl⟩⟩ := step_handleEvent hstep
      · exact .of_beforeSwap h.calling (by simp [handleRead, hat.1, Point.beforeSwap])
      · exact .of_beforeSwap (h.calling.trans (by rw [hat.1]; rfl)) rfl
  | handlerReturns =>
      obtain ⟨hat, rfl⟩ := guarded_eq_some.mp hstep
      exact .of_beforeSwap (h.calling.trans (by rw [hat.1]; rfl)) rfl
  | doPendingFunctors =>
      obtain ⟨-, rfl⟩ := guarded_eq_some.mp hstep
      exact .of_beforeSwap rfl rfl
  | swap =>
      obtain ⟨hat, rfl⟩ := guarded_eq_some.mp hstep
      refine ⟨h.calling.trans (by rw [hat.1]; rfl), fun _ => Or.inl ?_⟩
      exact hqueued.outside_batch (by rw [hat.1]; rfl)
  | runFunctor =>
      obtain ⟨hat, functor, rest, -, rfl⟩ := step_runFunctor hstep
      exact h.of_same rfl rfl rfl rfl rfl (by rw [hat.1]; rfl) fun _ => by rw [hat.1]; rfl
  | finishBatch =>
      obtain ⟨⟨hat, -⟩, rfl⟩ := guarded_eq_some.mp hstep
      refine ⟨rfl, ?_⟩
      intro _
      apply (h.notified (by rw [hat.1]; rfl)).imp_right
      intro hnotified
      rcases hnotified with hfd | hthread | hown
      · exact Or.inl hfd
      · exact Or.inr (Or.inl hthread)
      · rw [hat.2] at hown
        exact absurd hown.1 (by decide)
  | enter | clearQuit | poll | functorReturns | release | leave =>
      obtain ⟨hat, rfl⟩ := guarded_eq_some.mp hstep
      exact h.of_same rfl rfl rfl rfl rfl (by rw [hat.1]; rfl) fun _ => by rw [hat.1]; rfl

end Awake

variable [DecidableEq θ]

/-- **No wakeup is lost** as long as the loop's thread queues functors in its event handlers and
functors, or with a wakeup under way: when it is about to block or blocks with the eventfd at 0,
nothing is pending, or another thread has yet to write. -/
theorem no_lost_wakeup {l : EventLoop F θ} (h : system.ReachableUnder QueuesNoticed l)
    (hpoll : l.point = .aboutToPoll ∨ l.point = .polling) (hzero : l.wakeupFd = 0) :
    l.pendingFunctors = [] ∨ ∃ thread, l.calls thread = .inQueueInLoop := by
  have hinv : Queued l ∧ Awake l := by
    refine h.invariant (I := fun l => Queued l ∧ Awake l) ?_ fun _ _ _ hinv hok hstep =>
      ⟨hinv.1.step hstep, hinv.2.step hinv.1 hok hstep⟩
    rintro l rfl
    exact ⟨Queued.new, Awake.new⟩
  have hcalling : l.callingPendingFunctors = false := by
    rw [hinv.2.calling]
    rcases hpoll with hpoint | hpoint <;> rw [hpoint] <;> rfl
  have hbefore : l.point.beforeSwap = false := by
    rcases hpoll with hpoint | hpoint <;> rw [hpoint] <;> rfl
  apply (hinv.2.notified hbefore).imp_right
  intro hnotified
  rcases hnotified with hfd | hthread | hown
  · omega
  · exact hthread
  · rw [hcalling] at hown
    exact absurd hown.2 (by decide)

/-- Another thread has pushed, and the loop is on its way into poll. -/
theorem no_lost_wakeup_in_flight :
    ∃ l : EventLoop Nat Unit, l.point = .aboutToPoll ∧ l.wakeupFd = 0 ∧ l.pendingFunctors = [1] ∧
      (l.pendingFunctors = [] ∨ ∃ thread, l.calls thread = .inQueueInLoop) := by
  have hrun : system.RunUnder QueuesNoticed (new : EventLoop Nat Unit)
      [.enter, .clearQuit, .test, .queueInLoop () 1] _ :=
    .cons trivial rfl (.cons trivial rfl (.cons trivial rfl (.single trivial rfl)))
  exact ⟨_, rfl, rfl, rfl, no_lost_wakeup ⟨new, _, rfl, hrun⟩ (Or.inl rfl) rfl⟩

/-- The loop's thread queues a functor before it enters `loop`. -/
theorem wakeup_lost_before_loop :
    ∃ l : EventLoop Nat Unit,
      system.exec new [.ownQueueInLoop 1, .ownWakeup, .enter, .clearQuit, .test, .poll] = some l ∧
      l.point = .polling ∧ l.wakeupFd = 0 ∧ l.pendingFunctors = [1] ∧
      ∀ thread, l.calls thread = .idle :=
  ⟨_, rfl, rfl, rfl, rfl, fun _ => rfl⟩

end EventLoop

end MuduoCore
