import Mathlib.Data.List.Basic
import Mathlib.Data.List.Nodup
import Mathlib.Data.Int.CardIntervalMod

/-!
# Serving a queue round robin

A round takes entries from the head of a queue until it has no room left. The entries that are ready
are served and go to the end of the queue, the others are dropped. An entry that stays ready keeps
its place until it is served, so it moves forward by the size of every round that passes it over.

Where there is no queue and the turn simply goes round, the shares differ by at most one.
-/

namespace MuduoCore.RoundRobin

variable {α : Type*}

/-- The entries that a round with `room` serves, and what it leaves of the queue. -/
def serve (ready : α → Bool) : Nat → List α → List α × List α
  | _, [] => ([], [])
  | 0, queue => ([], queue)
  | room + 1, a :: queue =>
      if ready a then
        let round := serve ready room queue
        (a :: round.1, round.2)
      else serve ready (room + 1) queue

/-- The queue after a round. -/
def rotate (ready : α → Bool) (room : Nat) (queue : List α) : List α :=
  (serve ready room queue).2 ++ (serve ready room queue).1

variable {ready : α → Bool} {room : Nat} {queue : List α} {a b : α}

/-- A round goes through a front of the queue, and stops early only when it has no room left. -/
theorem serve_eq (ready : α → Bool) (room : Nat) (queue : List α) :
    ∃ front, queue = front ++ (serve ready room queue).2 ∧
      (serve ready room queue).1 = front.filter ready ∧
      (serve ready room queue).1.length ≤ room ∧
      ((serve ready room queue).2 = [] ∨ (serve ready room queue).1.length = room) := by
  induction queue generalizing room with
  | nil => exact ⟨[], rfl, rfl, Nat.zero_le _, .inl rfl⟩
  | cons a queue ih =>
      cases room with
      | zero => exact ⟨[], rfl, rfl, Nat.le_refl _, .inr rfl⟩
      | succ room =>
          by_cases hready : ready a = true
          · obtain ⟨front, hqueue, hserved, hroom, hstop⟩ := ih room
            refine ⟨a :: front, ?_, ?_, ?_, ?_⟩
            · rw [serve, if_pos hready, List.cons_append]
              exact congrArg (List.cons a) hqueue
            · rw [serve, if_pos hready, List.filter_cons_of_pos hready]
              exact congrArg (List.cons a) hserved
            · rw [serve, if_pos hready]
              exact Nat.succ_le_succ hroom
            · rw [serve, if_pos hready]
              exact hstop.imp_right (congrArg Nat.succ)
          · obtain ⟨front, hqueue, hserved, hroom, hstop⟩ := ih (room + 1)
            refine ⟨a :: front, ?_, ?_, ?_, ?_⟩
            · rw [serve, if_neg hready, List.cons_append]
              exact congrArg (List.cons a) hqueue
            · rw [serve, if_neg hready, List.filter_cons_of_neg hready]
              exact hserved
            · rw [serve, if_neg hready]
              exact hroom
            · rw [serve, if_neg hready]
              exact hstop

theorem ready_of_mem_serve (hmem : a ∈ (serve ready room queue).1) : ready a = true := by
  obtain ⟨front, -, hserved, -⟩ := serve_eq ready room queue
  rw [hserved] at hmem
  exact (List.mem_filter.mp hmem).2

theorem length_serve_le : (serve ready room queue).1.length ≤ room := by
  obtain ⟨_, -, -, hroom, -⟩ := serve_eq ready room queue
  exact hroom

theorem mem_of_mem_serve (hmem : a ∈ (serve ready room queue).1) : a ∈ queue := by
  obtain ⟨front, hqueue, hserved, -⟩ := serve_eq ready room queue
  rw [hserved] at hmem
  rw [hqueue]
  exact List.mem_append_left _ (List.mem_filter.mp hmem).1

theorem nodup_serve (hnodup : queue.Nodup) : (serve ready room queue).1.Nodup := by
  obtain ⟨front, hqueue, hserved, -⟩ := serve_eq ready room queue
  rw [hqueue] at hnodup
  rw [hserved]
  exact hnodup.of_append_left.filter _

/-- A ready entry is served or still in the queue. -/
theorem mem_left_of_notMem_serve (hready : ready a = true) (hmem : a ∈ queue)
    (hnot : a ∉ (serve ready room queue).1) : a ∈ (serve ready room queue).2 := by
  obtain ⟨front, hqueue, hserved, -⟩ := serve_eq ready room queue
  rw [hqueue] at hmem
  rcases List.mem_append.mp hmem with hfront | hleft
  · rw [hserved] at hnot
    exact absurd (List.mem_filter.mpr ⟨hfront, hready⟩) hnot
  · exact hleft

/-- A round that passes a ready entry over is full. -/
theorem length_serve_of_passed (hready : ready a = true) (hmem : a ∈ queue)
    (hnot : a ∉ (serve ready room queue).1) : (serve ready room queue).1.length = room := by
  have hleft := mem_left_of_notMem_serve hready hmem hnot
  obtain ⟨_, -, -, -, hstop⟩ := serve_eq ready room queue
  rcases hstop with hnil | hfull
  · rw [hnil] at hleft
    cases hleft
  · exact hfull

theorem mem_of_mem_rotate (hmem : a ∈ rotate ready room queue) : a ∈ queue := by
  rcases List.mem_append.mp hmem with hleft | hserved
  · obtain ⟨front, hqueue, -⟩ := serve_eq ready room queue
    rw [hqueue]
    exact List.mem_append_right _ hleft
  · exact mem_of_mem_serve hserved

theorem mem_rotate_of_ready (hready : ready a = true) (hmem : a ∈ queue) :
    a ∈ rotate ready room queue := by
  by_cases hserved : a ∈ (serve ready room queue).1
  · exact List.mem_append_right _ hserved
  · exact List.mem_append_left _ (mem_left_of_notMem_serve hready hmem hserved)

theorem nodup_rotate (hnodup : queue.Nodup) : (rotate ready room queue).Nodup := by
  obtain ⟨front, hqueue, hserved, -⟩ := serve_eq ready room queue
  rw [hqueue] at hnodup
  have hparts := List.nodup_append.mp (List.perm_append_comm.nodup_iff.mp hnodup)
  rw [rotate, hserved]
  refine List.nodup_append.mpr ⟨hparts.1, hparts.2.1.filter _, ?_⟩
  intro a ha b hb
  exact hparts.2.2 a ha b (List.mem_filter.mp hb).1

/-! ### The place of an entry that waits -/

section Place

variable [DecidableEq α]

/-- A round that passes a ready entry over moves it forward by all the room it had. -/
theorem idxOf_rotate_add (hready : ready a = true) (hmem : a ∈ queue)
    (hnot : a ∉ (serve ready room queue).1) :
    (rotate ready room queue).idxOf a + room ≤ queue.idxOf a := by
  have hleft := mem_left_of_notMem_serve hready hmem hnot
  have hfull := length_serve_of_passed hready hmem hnot
  obtain ⟨front, hqueue, hserved, -⟩ := serve_eq ready room queue
  have hfront : a ∉ front := by
    intro hin
    rw [hserved] at hnot
    exact hnot (List.mem_filter.mpr ⟨hin, hready⟩)
  have hroom : room ≤ front.length := by
    rw [← hfull, hserved]
    exact List.length_filter_le ready front
  have hplace : queue.idxOf a = (serve ready room queue).2.idxOf a + front.length := by
    conv_lhs => rw [hqueue]
    rw [List.idxOf_append_of_notMem hfront, Nat.add_comm]
  rw [rotate, List.idxOf_append_of_mem hleft, hplace]
  exact Nat.add_le_add_left hroom _

/-- An entry that joins the queue does not move those that are there. -/
theorem idxOf_append_singleton (hmem : a ∈ queue) : (queue ++ [b]).idxOf a = queue.idxOf a :=
  List.idxOf_append_of_mem hmem

/-- An entry that leaves the queue lets the others move forward. -/
theorem idxOf_erase_le (hne : a ≠ b) : (queue.erase b).idxOf a ≤ queue.idxOf a := by
  induction queue with
  | nil => exact Nat.le_refl _
  | cons c queue ih =>
      by_cases hc : c = a
      · subst hc
        rw [List.erase_cons_tail (by simpa using hne), List.idxOf_cons_self]
        exact Nat.zero_le _
      · rw [List.idxOf_cons_ne _ hc]
        by_cases hb : c = b
        · subst hb
          rw [List.erase_cons_head]
          exact Nat.le_succ _
        · rw [List.erase_cons_tail (by simpa using hb), List.idxOf_cons_ne _ hc]
          exact Nat.succ_le_succ ih

end Place

/-! ### Going round -/

/-- The share of a residue among the first `total` numbers. -/
theorem count_mod_eq {n i : Nat} (hi : i < n) (total : Nat) :
    Nat.count (fun k => k % n = i) total = total / n + if i < total % n then 1 else 0 := by
  have hcount := Nat.count_modEq_card total (Nat.zero_lt_of_lt hi) i
  rw [Nat.mod_eq_of_lt hi] at hcount
  rw [← hcount]
  simp only [Nat.ModEq, Nat.mod_eq_of_lt hi]

theorem count_mod_le {n i j : Nat} (hi : i < n) (hj : j < n) (total : Nat) :
    Nat.count (fun k => k % n = i) total ≤ Nat.count (fun k => k % n = j) total + 1 := by
  rw [count_mod_eq hi, count_mod_eq hj]
  split
  · omega
  · omega

end MuduoCore.RoundRobin
