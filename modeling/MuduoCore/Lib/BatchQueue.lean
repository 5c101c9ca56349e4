import MuduoCore.Lib.Transition
import Mathlib.Data.List.Infix

/-!
# Queues that are emptied in batches

New entries are `pending`. A batch takes all of them at once, works them off in their order and stores
them until it is finished, so that an entry may still be stored when it waits no more.
-/

namespace MuduoCore

structure BatchQueue (α : Type*) where
  pending : List α
  batch : List α
  todo : List α
  running : Bool
  suffix : todo <:+ batch
  idle : running = false → batch = []

namespace BatchQueue

variable {α : Type*}

def empty : BatchQueue α where
  pending := []
  batch := []
  todo := []
  running := false
  suffix := List.suffix_rfl
  idle _ := rfl

def push (q : BatchQueue α) (entries : List α) : BatchQueue α :=
  { q with pending := q.pending ++ entries }

def start (q : BatchQueue α) : BatchQueue α where
  pending := []
  batch := q.pending
  todo := q.pending
  running := true
  suffix := List.suffix_rfl
  idle h := by cases h

def next (q : BatchQueue α) : BatchQueue α :=
  { q with
    todo := q.todo.tail
    suffix := (List.tail_suffix q.todo).trans q.suffix }

def finish (q : BatchQueue α) : BatchQueue α where
  pending := q.pending
  batch := []
  todo := []
  running := false
  suffix := List.suffix_rfl
  idle _ := rfl

/-- What is still to be worked off, in the order in which it will be. -/
def waiting (q : BatchQueue α) : List α := q.todo ++ q.pending

def stored (q : BatchQueue α) : List α := q.batch ++ q.pending

variable {q : BatchQueue α} {entries rest : List α} {a : α}

theorem todo_eq_nil (h : q.running = false) : q.todo = [] := by
  have hsuffix := q.suffix
  rw [q.idle h] at hsuffix
  exact List.suffix_nil.mp hsuffix

@[simp]
theorem waiting_empty : (empty : BatchQueue α).waiting = [] := rfl

@[simp]
theorem stored_empty : (empty : BatchQueue α).stored = [] := rfl

@[simp]
theorem waiting_push : (q.push entries).waiting = q.waiting ++ entries := by
  simp only [waiting, push, List.append_assoc]

@[simp]
theorem stored_push : (q.push entries).stored = q.stored ++ entries := by
  simp only [stored, push, List.append_assoc]

theorem waiting_start (h : q.running = false) : q.start.waiting = q.waiting := by
  rw [waiting, waiting, todo_eq_nil h, List.nil_append]
  exact List.append_nil _

theorem stored_start (h : q.running = false) : q.start.stored = q.stored := by
  rw [stored, stored, q.idle h, List.nil_append]
  exact List.append_nil _

@[simp]
theorem next_todo : q.next.todo = q.todo.tail := rfl

theorem waiting_next (h : q.todo = a :: rest) : q.waiting = a :: q.next.waiting := by
  simp only [waiting, next, h, List.tail_cons, List.cons_append]

@[simp]
theorem stored_next : q.next.stored = q.stored := rfl

theorem waiting_finish (h : q.todo = []) : q.finish.waiting = q.waiting := by
  rw [waiting, waiting, h]
  rfl

@[simp]
theorem stored_finish : q.finish.stored = q.pending := rfl

theorem mem_stored_of_mem_waiting (h : a ∈ q.waiting) : a ∈ q.stored := by
  obtain htodo | hpending := List.mem_append.mp h
  · exact List.mem_append_left _ (q.suffix.subset htodo)
  · exact List.mem_append_right _ hpending

/-! ### Runs of a queue -/

inductive Action (α : Type*) where
  | push (entries : List α)
  | start
  | next
  | finish

def Action.finishes : Action α → Bool
  | finish => true
  | _ => false

/-- A queue, with the entries that were worked off. -/
def system : System (BatchQueue α × List α) (Action α) where
  init v := v = (empty, [])
  step v
    | .push entries => some (v.1.push entries, v.2)
    | .start => guarded (v.1.running = false) (v.1.start, v.2)
    | .next =>
        match v.1.todo with
        | [] => none
        | a :: _ => some (v.1.next, v.2 ++ [a])
    | .finish => guarded (v.1.running = true ∧ v.1.todo = []) (v.1.finish, v.2)

theorem system_next {v w : BatchQueue α × List α} (hstep : system.step v .next = some w) :
    ∃ a, v.1.todo = a :: v.1.next.todo ∧ w = (v.1.next, v.2 ++ [a]) := by
  simp only [system] at hstep
  split at hstep
  · cases hstep
  · rename_i a rest htodo
    obtain rfl := Option.some.inj hstep
    refine ⟨a, ?_, rfl⟩
    rw [next_todo, htodo, List.tail_cons]

/-- Where the entries `before` are when `left` batches may still finish before all of them are worked
off. -/
structure Due (before : List α) (left : Nat) (v : BatchQueue α × List α) : Prop where
  all : before <+: v.2 ++ v.1.waiting
  started : left ≤ 1 → v.1.running = true → before <+: v.2 ++ v.1.todo
  done : left = 0 → before <+: v.2

theorem Due.step {before : List α} {left : Nat} {v w : BatchQueue α × List α} {a : Action α}
    (h : Due before left v) (hstep : system.step v a = some w) :
    Due before (left - if a.finishes then 1 else 0) w := by
  cases a with
  | push entries =>
      obtain rfl := Option.some.inj hstep
      refine ⟨?_, h.started, h.done⟩
      rw [waiting_push, ← List.append_assoc]
      exact h.all.trans (List.prefix_append _ entries)
  | start =>
      obtain ⟨hidle, rfl⟩ := guarded_eq_some.mp hstep
      refine ⟨?_, ?_, h.done⟩
      · rw [waiting_start hidle]
        exact h.all
      · intro _ _
        have hall := h.all
        rw [waiting, todo_eq_nil hidle] at hall
        exact hall
  | next =>
      obtain ⟨b, htodo, rfl⟩ := system_next hstep
      refine ⟨?_, ?_, ?_⟩
      · have hall := h.all
        rw [waiting_next htodo] at hall
        rw [List.append_assoc]
        exact hall
      · intro hleft hrunning
        have hstarted := h.started hleft hrunning
        rw [htodo] at hstarted
        rw [List.append_assoc]
        exact hstarted
      · intro hleft
        exact (h.done hleft).trans (List.prefix_append _ [b])
  | finish =>
      obtain ⟨⟨hrunning, htodo⟩, rfl⟩ := guarded_eq_some.mp hstep
      have hdone : left ≤ 1 → before <+: v.2 := by
        intro hleft
        have hstarted := h.started hleft hrunning
        rw [htodo, List.append_nil] at hstarted
        exact hstarted
      refine ⟨?_, fun _ hidle => (by cases hidle), ?_⟩
      · rw [waiting_finish htodo]
        exact h.all
      · intro hleft
        refine hdone ?_
        simp only [Action.finishes, if_pos] at hleft
        omega

/-- The batch rule: what waits in a queue is worked off, in its order, when the batch that takes it
has finished. That is the next one, or the one after a batch that is running. -/
theorem worked_off {ok : BatchQueue α × List α → Action α → Prop}
    {v w : BatchQueue α × List α} {as : List (Action α)} (hrun : system.RunUnder ok v as w)
    (hfinished : (if v.1.running then 2 else 1) ≤ as.countP Action.finishes) :
    v.2 ++ v.1.waiting <+: w.2 := by
  have hdue : Due (v.2 ++ v.1.waiting)
      ((if v.1.running then 2 else 1) - as.countP Action.finishes) w := by
    refine hrun.history (P := fun as w => Due (v.2 ++ v.1.waiting)
      ((if v.1.running then 2 else 1) - as.countP Action.finishes) w) ?_ ?_
    · refine ⟨List.prefix_rfl, ?_, ?_⟩
      · intro hleft hrunning
        rw [hrunning] at hleft
        cases hleft with
        | step hless => cases hless
      · intro hleft
        split at hleft
        · cases hleft
        · cases hleft
    · intro as t a u ht _ hstep
      have hnext := ht.step hstep
      rw [List.countP_append, List.countP_singleton, ← Nat.sub_sub]
      exact hnext
  exact hdue.done (by omega)

end BatchQueue

end MuduoCore
