import MuduoCore.Lib.Transition

/-!
# Systems that come to rest

Where every allowed step lowers a measure, a run is no longer than the measure is high at its start,
and it ends in a state where no allowed step is enabled, whichever steps are taken.
-/

namespace MuduoCore

namespace System

variable {σ α : Type*} {S : System σ α} {ok : σ → α → Prop} {I : σ → Prop} {μ : σ → ℕ} {s t : σ}
  {as : List α}

/-- No allowed step is enabled. -/
def Halted (S : System σ α) (ok : σ → α → Prop) (s : σ) : Prop :=
  ∀ a t, ok s a → S.step s a ≠ some t

/-- Where `I` holds, an allowed step keeps it and lowers `μ`. -/
structure Descends (S : System σ α) (ok : σ → α → Prop) (I : σ → Prop) (μ : σ → ℕ) : Prop where
  keeps : ∀ s a t, I s → ok s a → S.step s a = some t → I t
  lowers : ∀ s a t, I s → ok s a → S.step s a = some t → μ t < μ s

namespace Descends

theorem invariant (h : S.Descends ok I μ) (hrun : S.RunUnder ok s as t) (hs : I s) : I t :=
  hrun.invariant hs h.keeps

theorem length_le (h : S.Descends ok I μ) (hrun : S.RunUnder ok s as t) (hs : I s) :
    as.length + μ t ≤ μ s := by
  induction hrun with
  | nil => exact (Nat.zero_add _).le
  | @snoc t u as a hrun hok hstep ih =>
    have hlower := h.lowers t a u (h.invariant hrun hs) hok hstep
    rw [List.length_append, List.length_singleton]
    omega

/-- Some run comes to rest. -/
theorem exists_halted (h : S.Descends ok I μ) (hs : I s) :
    ∃ as t, S.RunUnder ok s as t ∧ S.Halted ok t := by
  induction hμ : μ s using Nat.strongRecOn generalizing s with
  | ind m ih =>
    by_cases hhalted : S.Halted ok s
    · exact ⟨[], s, .nil s, hhalted⟩
    · simp only [Halted, not_forall, not_not] at hhalted
      obtain ⟨a, t, hok, hstep⟩ := hhalted
      have hlower := hμ ▸ h.lowers s a t hs hok hstep
      obtain ⟨as, u, hrun, hend⟩ := ih (μ t) hlower (h.keeps s a t hs hok hstep) rfl
      exact ⟨a :: as, u, .cons hok hstep hrun, hend⟩

end Descends

end System

end MuduoCore
