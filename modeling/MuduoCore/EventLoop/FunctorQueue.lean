import MuduoCore.EventLoop.Basic

/-!
# The functor queue

The functors that were executed, what is left of the batch, and `pendingFunctors_` are always the
functors in the order of their pushes. A batch is what was pending at the swap, and nothing else.
-/

namespace MuduoCore

variable {F θ : Type*}

/-- The local vector of `doPendingFunctors` holds functors. -/
def Point.inBatch : Point → Bool
  | batch | running => true
  | _ => false

namespace EventLoop

structure Queued (l : EventLoop F θ) : Prop where
  order : l.executed ++ l.functors ++ l.pendingFunctors = l.pushed
  outside_batch : l.point.inBatch = false → l.functors = []

namespace Queued

variable {l l' : EventLoop F θ}

theorem new : Queued (EventLoop.new : EventLoop F θ) := ⟨rfl, fun _ => rfl⟩

theorem of_same (h : Queued l) (hexecuted : l'.executed = l.executed)
    (hfunctors : l'.functors = l.functors) (hpending : l'.pendingFunctors = l.pendingFunctors)
    (hpushed : l'.pushed = l.pushed) (hpoint : l'.point.inBatch = l.point.inBatch) : Queued l' := by
  refine ⟨?_, ?_⟩
  · rw [hexecuted, hfunctors, hpending, hpushed]
    exact h.order
  · rw [hpoint, hfunctors]
    exact h.outside_batch

theorem push (h : Queued l) (functor : F) : Queued (l.push functor) := by
  refine ⟨?_, h.outside_batch⟩
  simp only [EventLoop.push]
  rw [← List.append_assoc, h.order]

theorem step [DecidableEq θ] {action : LoopAction F θ} (h : Queued l)
    (hstep : EventLoop.step l action = some l') : Queued l' := by
  cases action with
  | queueInLoop thread functor =>
      obtain ⟨-, rfl⟩ := guarded_eq_some.mp hstep
      exact (h.push functor).of_same rfl rfl rfl rfl rfl
  | ownQueueInLoop functor =>
      obtain ⟨-, rfl⟩ := guarded_eq_some.mp hstep
      exact (h.push functor).of_same rfl rfl rfl rfl rfl
  | ownWakeup =>
      obtain ⟨-, rfl⟩ := guarded_eq_some.mp hstep
      split <;> exact h.of_same rfl rfl rfl rfl rfl
  | test =>
      obtain ⟨hat, rfl⟩ := guarded_eq_some.mp hstep
      refine h.of_same rfl rfl rfl rfl ?_
      rw [hat.1]
      cases l.quit <;> rfl
  | handleEvent =>
      obtain ⟨hat, rest, ⟨-, rfl⟩ | ⟨-, rfl⟩⟩ := step_handleEvent hstep
      · exact h.of_same rfl rfl rfl rfl rfl
      · exact h.of_same rfl rfl rfl rfl (by rw [hat.1]; rfl)
  | doPendingFunctors =>
      obtain ⟨⟨hat, -⟩, rfl⟩ := guarded_eq_some.mp hstep
      have hnil : l.functors = [] := h.outside_batch (by rw [hat.1]; rfl)
      exact h.of_same rfl hnil.symm rfl rfl (by rw [hat.1]; rfl)
  | swap =>
      obtain ⟨hat, rfl⟩ := guarded_eq_some.mp hstep
      have hnil : l.functors = [] := h.outside_batch (by rw [hat.1]; rfl)
      refine ⟨?_, fun hpoint => by cases hpoint⟩
      rw [← h.order, hnil, List.append_nil, List.append_nil]
  | runFunctor =>
      obtain ⟨-, functor, rest, hfunctors, rfl⟩ := step_runFunctor hstep
      refine ⟨?_, fun hpoint => by cases hpoint⟩
      rw [← h.order, hfunctors]
      simp
  | functorReturns =>
      obtain ⟨hat, rfl⟩ := guarded_eq_some.mp hstep
      exact h.of_same rfl rfl rfl rfl (by rw [hat.1]; rfl)
  | finishBatch =>
      obtain ⟨⟨-, hnil⟩, rfl⟩ := guarded_eq_some.mp hstep
      exact ⟨h.order, fun _ => hnil⟩
  | quit | wakeup | ownQuit =>
      obtain ⟨-, rfl⟩ := guarded_eq_some.mp hstep
      exact h.of_same rfl rfl rfl rfl rfl
  | pollReturns active =>
      obtain ⟨⟨hat, -⟩, rfl⟩ := guarded_eq_some.mp hstep
      exact h.of_same rfl rfl rfl rfl (by rw [hat.1]; rfl)
  | enter | clearQuit | poll | handlerReturns | release | leave =>
      obtain ⟨hat, rfl⟩ := guarded_eq_some.mp hstep
      exact h.of_same rfl rfl rfl rfl (by rw [hat.1]; rfl)

end Queued

variable [DecidableEq θ]

theorem queued_of_reachable {l : EventLoop F θ} (h : system.Reachable l) : Queued l := by
  refine h.invariant ?_ fun _ _ _ hinv _ hstep => hinv.step hstep
  rintro l rfl
  exact Queued.new

/-- Between two swaps functors only move from the batch to the executed ones. -/
theorem executed_step {l l' : EventLoop F θ} {action : LoopAction F θ} (h : Queued l)
    (hswap : action ≠ .swap) (hstep : step l action = some l') :
    ∃ done, l'.executed = l.executed ++ done ∧ done ++ l'.functors = l.functors := by
  have hsame : ∀ u : EventLoop F θ, u.executed = l.executed → u.functors = l.functors →
      ∃ done, u.executed = l.executed ++ done ∧ done ++ u.functors = l.functors :=
    fun u hexecuted hfunctors => ⟨[], by rw [hexecuted, List.append_nil], hfunctors⟩
  cases action with
  | swap => exact absurd rfl hswap
  | ownWakeup =>
      obtain ⟨-, rfl⟩ := guarded_eq_some.mp hstep
      split <;> exact hsame _ rfl rfl
  | handleEvent =>
      obtain ⟨-, rest, ⟨-, rfl⟩ | ⟨-, rfl⟩⟩ := step_handleEvent hstep
      · exact hsame _ rfl rfl
      · exact hsame _ rfl rfl
  | doPendingFunctors =>
      obtain ⟨⟨hat, -⟩, rfl⟩ := guarded_eq_some.mp hstep
      exact hsame _ rfl (h.outside_batch (by rw [hat.1]; rfl)).symm
  | runFunctor =>
      obtain ⟨-, functor, rest, hfunctors, rfl⟩ := step_runFunctor hstep
      exact ⟨[functor], rfl, hfunctors.symm⟩
  | _ =>
      obtain ⟨-, rfl⟩ := guarded_eq_some.mp hstep
      exact hsame _ rfl rfl

/-- **Exactly once and in order.** And until the next swap, what `doPendingFunctors` executes and what
it has left are the functors that were pending at its swap. -/
theorem functors_exactly_once {l : EventLoop F θ} (h : system.Reachable l) :
    l.executed ++ l.functors ++ l.pendingFunctors = l.pushed ∧
      ∀ before after actions, system.Reachable before → step before .swap = some after →
        system.RunUnder (fun _ action => action ≠ .swap) after actions l →
        ∃ done, l.executed = before.executed ++ done ∧
          done ++ l.functors = before.pendingFunctors := by
  refine ⟨(queued_of_reachable h).order, ?_⟩
  intro before after actions hbefore hswap hrun
  have hqueued := queued_of_reachable hbefore
  have hstart := hqueued.step hswap
  obtain ⟨-, rfl⟩ := guarded_eq_some.mp hswap
  have hbatch : Queued l ∧ ∃ done, l.executed = before.executed ++ done ∧
      done ++ l.functors = before.pendingFunctors := by
    refine hrun.invariant (I := fun l => Queued l ∧ ∃ done, l.executed = before.executed ++ done ∧
      done ++ l.functors = before.pendingFunctors) ⟨hstart, [], by simp, rfl⟩ ?_
    rintro t action u ⟨ht, done, hexecuted, hfunctors⟩ hne hstep
    obtain ⟨more, hmore, hrest⟩ := executed_step ht hne hstep
    refine ⟨ht.step hstep, done ++ more, ?_, ?_⟩
    · rw [hmore, hexecuted, List.append_assoc]
    · rw [List.append_assoc, hrest, hfunctors]
  exact hbatch.2

/-- A functor that queues another one while a third is pushed by another thread. -/
theorem functors_exactly_once_nested :
    ∃ l : EventLoop Nat Unit,
      l.executed = [1] ∧ l.functors = [] ∧ l.pendingFunctors = [2, 3] ∧ l.pushed = [1, 2, 3] ∧
      ∃ done, l.executed = [] ++ done ∧ done ++ l.functors = [1] := by
  obtain ⟨before, after, l, hbefore, hswap, hrun, hend⟩ :
      ∃ before after l : EventLoop Nat Unit,
        system.exec new [.enter, .clearQuit, .test, .poll, .queueInLoop () 1, .wakeup (),
          .pollReturns [.wakeupChannel], .handleEvent, .doPendingFunctors] = some before ∧
        step before .swap = some after ∧
        system.exec after [.runFunctor, .ownQueueInLoop 2, .queueInLoop () 3, .ownWakeup,
          .functorReturns, .finishBatch] = some l ∧
        l.executed = [1] ∧ l.functors = [] ∧ l.pendingFunctors = [2, 3] ∧ l.pushed = [1, 2, 3] ∧
        before.executed = [] ∧ before.pendingFunctors = [1] :=
    ⟨_, _, _, rfl, rfl, rfl, rfl, rfl, rfl, rfl, rfl, rfl⟩
  obtain ⟨hexecuted, hfunctors, hpending, hpushed, hnone, hone⟩ := hend
  have hreach : system.Reachable before := System.reachable_of_exec rfl hbefore
  have hafter : system.Reachable after := hreach.step (a := .swap) trivial hswap
  have hlast : system.Reachable l := hafter.run (System.run_of_exec hrun)
  have hbatch : system.RunUnder (fun _ action => action ≠ .swap) after _ l :=
    System.runUnder_of_exec (by simp) hrun
  have hdone := (functors_exactly_once hlast).2 before after _ hreach hswap hbatch
  refine ⟨l, hexecuted, hfunctors, hpending, hpushed, ?_⟩
  rwa [hnone, hone] at hdone

end EventLoop

end MuduoCore
