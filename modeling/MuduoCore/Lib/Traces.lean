import Mathlib.Data.List.Pairwise
import Mathlib.Data.List.Count

/-!
# What may follow an event

For an event `x` of a trace, the events after it are restricted to those that satisfy `P`. Where `x`
itself does not, it happens at most once.
-/

namespace MuduoCore

variable {α : Type*} {x : α} {P : α → Prop} {trace more : List α}

/-- Whatever follows an `x` satisfies `P`. -/
def FollowedBy (x : α) (P : α → Prop) (trace : List α) : Prop :=
  trace.Pairwise fun earlier later => earlier = x → P later

namespace FollowedBy

theorem append_of_notMem (hx : x ∉ trace) (hmore : FollowedBy x P more) :
    FollowedBy x P (trace ++ more) := by
  refine List.pairwise_append.mpr ⟨?_, hmore, ?_⟩
  · apply List.pairwise_of_forall_mem_list
    intro earlier hearlier _ _ heq
    exact absurd (heq ▸ hearlier) hx
  · intro earlier hearlier _ _ heq
    exact absurd (heq ▸ hearlier) hx

theorem of_notMem (hx : x ∉ trace) : FollowedBy x P trace := by
  simpa using append_of_notMem (P := P) hx List.Pairwise.nil

theorem append (htrace : FollowedBy x P trace) (hmore : ∀ event ∈ more, P event) :
    FollowedBy x P (trace ++ more) := by
  refine List.pairwise_append.mpr ⟨htrace, ?_, fun _ _ event hmem _ => hmore event hmem⟩
  exact List.pairwise_of_forall_mem_list fun _ _ event hmem _ => hmore event hmem

theorem forall_after {before after : List α} (h : FollowedBy x P (before ++ x :: after)) :
    ∀ event ∈ after, P event := by
  have hsuffix := (List.pairwise_append.mp h).2.1
  intro event hmem
  exact (List.pairwise_cons.mp hsuffix).1 event hmem rfl

theorem count_le [BEq α] [LawfulBEq α] (h : FollowedBy x P trace) (hx : ¬P x) :
    trace.count x ≤ 1 := by
  induction trace with
  | nil => exact Nat.zero_le _
  | cons event trace ih =>
      obtain ⟨hhead, htail⟩ := List.pairwise_cons.mp h
      by_cases heq : event = x
      · subst heq
        have hnone : event ∉ trace := fun hmem => hx (hhead _ hmem rfl)
        have hzero := List.count_eq_zero_of_not_mem hnone
        rw [List.count_cons_self]
        omega
      · rw [List.count_cons_of_ne heq]
        exact ih htail

end FollowedBy

/-- An event of a longer trace is an old one or comes later. -/
theorem exists_before_append {before after : List α} (h : trace ++ more = before ++ x :: after) :
    (∃ rest, trace = before ++ x :: rest) ∨
      ∃ events, before = trace ++ events ∧ more = events ++ x :: after := by
  obtain ⟨events, hbefore, hmore⟩ | ⟨rest, hold, hmore⟩ := List.append_eq_append_iff.mp h
  · exact .inr ⟨events, hbefore, hmore⟩
  · cases rest with
    | nil =>
        rw [List.append_nil] at hold
        exact .inr ⟨[], by rw [hold, List.append_nil], hmore.symm⟩
    | cons event rest =>
        obtain ⟨rfl, -⟩ := List.cons_eq_cons.mp hmore
        exact .inl ⟨rest, hold⟩

end MuduoCore
