import MuduoCore.Lib.BatchQueue
import MuduoCore.Lib.Simulation
import MuduoCore.EventLoop.FunctorQueue

/-!
# The loop as a batch queue

Seen from its functors, the loop with its mutex, its flags and its wakeups is a queue that is emptied
in batches. So a functor waits for at most the rest of one batch and the whole of the next, and a
model of several loops may take each of the loop's critical sections as one step of such a queue.
-/

namespace MuduoCore

variable {F θ : Type*}

/-- What an action does to the queue. -/
def LoopAction.onQueue : LoopAction F θ → List (BatchQueue.Action F)
  | queueInLoop _ functor | ownQueueInLoop functor => [.push [functor]]
  | swap => [.start]
  | runFunctor => [.next]
  | finishBatch => [.finish]
  | _ => []

def LoopAction.finishes : LoopAction F θ → Bool
  | finishBatch => true
  | _ => false

namespace EventLoop

/-- The queue of the loop, with the functors that were executed. -/
structure StandsFor (l : EventLoop F θ) (v : BatchQueue F × List F) : Prop where
  pending_eq : v.1.pending = l.pendingFunctors
  todo_eq : v.1.todo = l.functors
  executed_eq : v.2 = l.executed
  running_eq : v.1.running = l.point.inBatch

namespace StandsFor

variable {l l' : EventLoop F θ} {v : BatchQueue F × List F}

theorem of_same (h : StandsFor l v) (hpending : l'.pendingFunctors = l.pendingFunctors)
    (hfunctors : l'.functors = l.functors) (hexecuted : l'.executed = l.executed)
    (hpoint : l'.point.inBatch = l.point.inBatch) : StandsFor l' v where
  pending_eq := h.pending_eq.trans hpending.symm
  todo_eq := h.todo_eq.trans hfunctors.symm
  executed_eq := h.executed_eq.trans hexecuted.symm
  running_eq := h.running_eq.trans hpoint.symm

theorem idle (h : StandsFor l v) (hpoint : l.point.inBatch = false) : v.1.running = false :=
  h.running_eq.trans hpoint

theorem push (h : StandsFor l v) (functor : F) :
    StandsFor (l.push functor) (v.1.push [functor], v.2) where
  pending_eq := by
    rw [BatchQueue.push, h.pending_eq]
    rfl
  todo_eq := h.todo_eq
  executed_eq := h.executed_eq
  running_eq := h.running_eq

variable [DecidableEq θ]

theorem step {action : LoopAction F θ} (h : StandsFor l v)
    (hstep : EventLoop.step l action = some l') :
    ∃ v', BatchQueue.system.Run v action.onQueue v' ∧ StandsFor l' v' := by
  cases action with
  | queueInLoop thread functor =>
      obtain ⟨-, rfl⟩ := guarded_eq_some.mp hstep
      exact ⟨_, .single (a := BatchQueue.Action.push [functor]) trivial rfl,
        (h.push functor).of_same rfl rfl rfl rfl⟩
  | ownQueueInLoop functor =>
      obtain ⟨-, rfl⟩ := guarded_eq_some.mp hstep
      exact ⟨_, .single (a := BatchQueue.Action.push [functor]) trivial rfl,
        (h.push functor).of_same rfl rfl rfl rfl⟩
  | swap =>
      obtain ⟨hat, rfl⟩ := guarded_eq_some.mp hstep
      have hidle := h.idle (by rw [hat.1]; rfl)
      refine ⟨_, .single (a := BatchQueue.Action.start) trivial (guarded_eq_some.mpr ⟨hidle, rfl⟩), ?_⟩
      refine ⟨?_, h.pending_eq, h.executed_eq, rfl⟩
      rw [← h.todo_eq, BatchQueue.todo_eq_nil hidle]
      rfl
  | runFunctor =>
      obtain ⟨hat, functor, rest, hfunctors, rfl⟩ := step_runFunctor hstep
      have htodo : v.1.todo = functor :: rest := h.todo_eq.trans hfunctors
      have hnext : BatchQueue.system.step v .next = some (v.1.next, v.2 ++ [functor]) := by
        simp only [BatchQueue.system]
        split
        · rename_i hnil
          rw [htodo] at hnil
          cases hnil
        · rename_i first others hcons
          obtain ⟨rfl, -⟩ := List.cons.inj (htodo.symm.trans hcons)
          rfl
      refine ⟨_, .single trivial hnext, h.pending_eq, ?_, ?_, ?_⟩
      · rw [BatchQueue.next_todo, htodo, List.tail_cons]
      · rw [h.executed_eq]
      · exact h.running_eq.trans (by rw [hat.1]; rfl)
  | finishBatch =>
      obtain ⟨⟨hat, hnil⟩, rfl⟩ := guarded_eq_some.mp hstep
      have hrunning : v.1.running = true := h.running_eq.trans (by rw [hat.1]; rfl)
      have htodo : v.1.todo = [] := h.todo_eq.trans hnil
      refine ⟨(v.1.finish, v.2), .single (a := BatchQueue.Action.finish) trivial ?_, h.pending_eq,
        hnil.symm, h.executed_eq, rfl⟩
      exact guarded_eq_some.mpr ⟨⟨hrunning, htodo⟩, rfl⟩
  | ownWakeup =>
      obtain ⟨-, rfl⟩ := guarded_eq_some.mp hstep
      split
      · exact ⟨v, .nil v, h.of_same rfl rfl rfl rfl⟩
      · exact ⟨v, .nil v, h.of_same rfl rfl rfl rfl⟩
  | test =>
      obtain ⟨hat, rfl⟩ := guarded_eq_some.mp hstep
      refine ⟨v, .nil v, h.of_same rfl rfl rfl ?_⟩
      rw [hat.1]
      cases l.quit <;> rfl
  | handleEvent =>
      obtain ⟨hat, rest, ⟨-, rfl⟩ | ⟨-, rfl⟩⟩ := step_handleEvent hstep
      · exact ⟨v, .nil v, h.of_same rfl rfl rfl rfl⟩
      · exact ⟨v, .nil v, h.of_same rfl rfl rfl (by rw [hat.1]; rfl)⟩
  | doPendingFunctors =>
      obtain ⟨⟨hat, -⟩, rfl⟩ := guarded_eq_some.mp hstep
      have hidle := h.idle (by rw [hat.1]; rfl)
      exact ⟨v, .nil v, h.pending_eq, BatchQueue.todo_eq_nil hidle, h.executed_eq, hidle⟩
  | quit | wakeup | ownQuit =>
      obtain ⟨-, rfl⟩ := guarded_eq_some.mp hstep
      exact ⟨v, .nil v, h.of_same rfl rfl rfl rfl⟩
  | pollReturns active =>
      obtain ⟨⟨hat, -⟩, rfl⟩ := guarded_eq_some.mp hstep
      exact ⟨v, .nil v, h.of_same rfl rfl rfl (by rw [hat.1]; rfl)⟩
  | enter | clearQuit | poll | handlerReturns | functorReturns | release | leave =>
      obtain ⟨hat, rfl⟩ := guarded_eq_some.mp hstep
      exact ⟨v, .nil v, h.of_same rfl rfl rfl (by rw [hat.1]; rfl)⟩

end StandsFor

variable [DecidableEq θ]

theorem standsFor_init (l : EventLoop F θ) (hinit : system.init l) :
    ∃ v, BatchQueue.system.init v ∧ StandsFor l v := by
  obtain rfl : l = new := hinit
  exact ⟨(BatchQueue.empty, []), rfl, rfl, rfl, rfl, rfl⟩

/-- **A loop is a batch queue.** Every run of the loop and of the threads that call it, in steps as
small as its critical sections, loads and stores, is a run of the queue in which a push, the swap, the
call of a functor and the end of the batch are atomic. -/
theorem refines_batchQueue :
    Refines (system : System (EventLoop F θ) (LoopAction F θ)) (fun _ _ => True)
      BatchQueue.system (fun _ _ => True) StandsFor LoopAction.onQueue where
  init := standsFor_init
  step _ _ _ _ hstands _ hstep := hstands.step hstep

omit [DecidableEq θ] in
theorem countP_onQueue (actions : List (LoopAction F θ)) :
    (actions.flatMap LoopAction.onQueue).countP BatchQueue.Action.finishes =
      actions.countP LoopAction.finishes := by
  induction actions with
  | nil => rfl
  | cons action actions ih =>
      rw [List.flatMap_cons, List.countP_append, List.countP_cons, ih, Nat.add_comm]
      cases action <;> rfl

/-- **No functor waits for more than two batches.** What was pushed at some moment is executed, in the
order of the pushes, once the batch that runs at the moment and the next one have finished, whatever
else the threads do; when no batch runs, the next one is enough. -/
theorem executed_by_next_batch {l l' : EventLoop F θ} {actions : List (LoopAction F θ)}
    (h : system.Reachable l) (hrun : system.Run l actions l')
    (hfinished : (if l.point.inBatch then 2 else 1) ≤ actions.countP LoopAction.finishes) :
    l.pushed <+: l'.executed := by
  have hrefines : Refines (system : System (EventLoop F θ) (LoopAction F θ)) (fun _ _ => True)
      BatchQueue.system (fun _ _ => True) StandsFor LoopAction.onQueue :=
    ⟨standsFor_init, fun _ _ _ _ hstands _ hstep => hstands.step hstep⟩
  obtain ⟨v, -, hstands⟩ := hrefines.simulates.reachable h
  obtain ⟨v', hqueue, hstands'⟩ := hrefines.run hstands hrun
  rw [← hstands.running_eq, ← countP_onQueue] at hfinished
  have hworked := BatchQueue.worked_off hqueue hfinished
  have hpushed : v.2 ++ v.1.waiting = l.pushed := by
    rw [← (queued_of_reachable h).order, BatchQueue.waiting, hstands.executed_eq, hstands.todo_eq,
      hstands.pending_eq, List.append_assoc]
  rw [hpushed, hstands'.executed_eq] at hworked
  exact hworked

/-- A functor that another one queues, with the batch of the first one still running. -/
theorem executed_by_next_batch_nested :
    ∃ l l' : EventLoop Nat Unit,
      system.exec new [.enter, .clearQuit, .test, .poll, .queueInLoop () 1, .wakeup (),
        .pollReturns [.wakeupChannel], .handleEvent, .doPendingFunctors, .swap, .runFunctor,
        .ownQueueInLoop 2, .ownWakeup] = some l ∧
      system.exec l [.functorReturns, .finishBatch, .release, .test, .poll,
        .pollReturns [.wakeupChannel], .handleEvent, .doPendingFunctors, .swap, .queueInLoop () 3,
        .runFunctor, .functorReturns, .finishBatch] = some l' ∧
      l.pushed = [1, 2] ∧ l'.pendingFunctors = [3] ∧ l.pushed <+: l'.executed := by
  obtain ⟨l, l', hfst, hsnd, hpushed, hpending, hbatch⟩ : ∃ l l' : EventLoop Nat Unit,
      system.exec new [.enter, .clearQuit, .test, .poll, .queueInLoop () 1, .wakeup (),
        .pollReturns [.wakeupChannel], .handleEvent, .doPendingFunctors, .swap, .runFunctor,
        .ownQueueInLoop 2, .ownWakeup] = some l ∧
      system.exec l [.functorReturns, .finishBatch, .release, .test, .poll,
        .pollReturns [.wakeupChannel], .handleEvent, .doPendingFunctors, .swap, .queueInLoop () 3,
        .runFunctor, .functorReturns, .finishBatch] = some l' ∧
      l.pushed = [1, 2] ∧ l'.pendingFunctors = [3] ∧ l.point.inBatch = true :=
    ⟨_, _, rfl, rfl, rfl, rfl, rfl⟩
  refine ⟨l, l', hfst, hsnd, hpushed, hpending, ?_⟩
  refine executed_by_next_batch (System.reachable_of_exec rfl hfst) (System.run_of_exec hsnd) ?_
  rw [hbatch]
  decide

end EventLoop

end MuduoCore
