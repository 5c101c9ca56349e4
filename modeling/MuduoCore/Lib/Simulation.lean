import MuduoCore.Lib.Transition

/-!
# Simulations between transition systems

A system simulates another one when each of its states stands for a state of the other, each initial
state for an initial one, and each step for a run of the other system. Then so does each of its runs,
and what holds in all reachable states of the other system holds of it as well. Where each action
stands for a fixed list of actions of the other system, so does each run.
-/

namespace MuduoCore

variable {σ τ α β : Type*}

structure Simulates (S : System σ α) (ok : σ → α → Prop) (T : System τ β) (ok' : τ → β → Prop)
    (stands : σ → τ → Prop) : Prop where
  init : ∀ s, S.init s → ∃ t, T.init t ∧ stands s t
  step : ∀ s t a s', stands s t → ok s a → S.step s a = some s' →
    ∃ bs t', T.RunUnder ok' t bs t' ∧ stands s' t'

namespace Simulates

variable {S : System σ α} {ok : σ → α → Prop} {T : System τ β} {ok' : τ → β → Prop}
  {stands : σ → τ → Prop}

theorem run (h : Simulates S ok T ok' stands) {s s' : σ} {t : τ} {as : List α}
    (hstands : stands s t) (hrun : S.RunUnder ok s as s') :
    ∃ bs t', T.RunUnder ok' t bs t' ∧ stands s' t' := by
  induction hrun with
  | nil => exact ⟨[], t, .nil t, hstands⟩
  | snoc _ hok hstep ih =>
      obtain ⟨bs, u, hbefore, hu⟩ := ih
      obtain ⟨cs, v, hafter, hv⟩ := h.step _ _ _ _ hu hok hstep
      exact ⟨bs ++ cs, v, hbefore.append hafter, hv⟩

theorem reachable (h : Simulates S ok T ok' stands) {s : σ} (hreach : S.ReachableUnder ok s) :
    ∃ t, T.ReachableUnder ok' t ∧ stands s t := by
  obtain ⟨r, as, hinit, hrun⟩ := hreach
  obtain ⟨t, ht, hstands⟩ := h.init r hinit
  obtain ⟨bs, u, hpath, hu⟩ := h.run hstands hrun
  exact ⟨u, ⟨t, bs, ht, hpath⟩, hu⟩

end Simulates

/-- A simulation in which the actions that a step stands for depend on its own action only. -/
structure Refines (S : System σ α) (ok : σ → α → Prop) (T : System τ β) (ok' : τ → β → Prop)
    (stands : σ → τ → Prop) (label : α → List β) : Prop where
  init : ∀ s, S.init s → ∃ t, T.init t ∧ stands s t
  step : ∀ s t a s', stands s t → ok s a → S.step s a = some s' →
    ∃ t', T.RunUnder ok' t (label a) t' ∧ stands s' t'

namespace Refines

variable {S : System σ α} {ok : σ → α → Prop} {T : System τ β} {ok' : τ → β → Prop}
  {stands : σ → τ → Prop} {label : α → List β}

theorem simulates (h : Refines S ok T ok' stands label) : Simulates S ok T ok' stands where
  init := h.init
  step s t a s' hstands hok hstep := by
    obtain ⟨t', hrun, hstands'⟩ := h.step s t a s' hstands hok hstep
    exact ⟨label a, t', hrun, hstands'⟩

theorem run (h : Refines S ok T ok' stands label) {s s' : σ} {t : τ} {as : List α}
    (hstands : stands s t) (hrun : S.RunUnder ok s as s') :
    ∃ t', T.RunUnder ok' t (as.flatMap label) t' ∧ stands s' t' := by
  induction hrun with
  | nil => exact ⟨t, .nil t, hstands⟩
  | @snoc _ _ as a _ hok hstep ih =>
      obtain ⟨u, hbefore, hu⟩ := ih
      obtain ⟨v, hafter, hv⟩ := h.step _ _ _ _ hu hok hstep
      refine ⟨v, ?_, hv⟩
      rw [List.flatMap_append, List.flatMap_singleton]
      exact hbefore.append hafter

end Refines

end MuduoCore
