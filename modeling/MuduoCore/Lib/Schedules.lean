import MuduoCore.Lib.Transition

/-!
# Schedules

An infinite run of a system, in which any number of steps of nobody may stand between two actions.
What a thread does sooner or later is stated of schedules, under the assumption that the scheduler
does not put off for ever an action that could be taken all the time.
-/

namespace MuduoCore

namespace System

variable {σ α : Type*} {S : System σ α} {ok : σ → α → Prop}

/-- An infinite run whose actions all meet `ok`. Where there is no action nothing changes. -/
structure Schedule (S : System σ α) (ok : σ → α → Prop) where
  states : ℕ → σ
  actions : ℕ → Option α
  init : S.init (states 0)
  rests : ∀ n, actions n = none → states (n + 1) = states n
  moves : ∀ n a, actions n = some a →
    ok (states n) a ∧ S.step (states n) a = some (states (n + 1))

def Enabled (S : System σ α) (a : α) (s : σ) : Prop := ∃ t, S.step s a = some t

namespace Schedule

variable (x : S.Schedule ok)

/-- Where `Q` lasts, `a` is not put off for ever. With `Enabled a` for `Q` this is weak fairness. -/
def Just (Q : σ → Prop) (a : α) : Prop :=
  ∀ n, (∀ m, n ≤ m → Q (x.states m)) → ∃ m, n ≤ m ∧ x.actions m = some a

variable {x} {P Q : σ → Prop} {a : α} {n : ℕ}

theorem reachable (x : S.Schedule ok) (n : ℕ) : S.ReachableUnder ok (x.states n) := by
  induction n with
  | zero => exact ⟨x.states 0, [], x.init, .nil _⟩
  | succ n ih =>
      cases haction : x.actions n with
      | none =>
          rw [x.rests n haction]
          exact ih
      | some a =>
          obtain ⟨hok, hstep⟩ := x.moves n a haction
          exact ih.step hok hstep

/-- A step lemma holds from one time of a schedule to the next, also where nothing happens. -/
theorem stays (x : S.Schedule ok)
    (hstep : ∀ s b u, S.ReachableUnder ok s → ok s b → S.step s b = some u → P s → b = a ∨ P u)
    (hP : P (x.states n)) : x.actions n = some a ∨ P (x.states (n + 1)) := by
  cases haction : x.actions n with
  | none =>
      rw [x.rests n haction]
      exact .inr hP
  | some b =>
      obtain ⟨hok, hnext⟩ := x.moves n b haction
      exact (hstep _ b _ (x.reachable n) hok hnext hP).imp_left fun heq => congrArg some heq

/-- What only `a` ends lasts until `a` is taken, and `a` is taken. -/
theorem Just.taken (h : x.Just Q a) (hlasts : ∀ s, S.ReachableUnder ok s → P s → Q s)
    (hstep : ∀ s b u, S.ReachableUnder ok s → ok s b → S.step s b = some u → P s → b = a ∨ P u)
    (hstart : P (x.states n)) : ∃ m, n ≤ m ∧ P (x.states m) ∧ x.actions m = some a := by
  by_contra hnever
  have hafter : ∀ m, n ≤ m → P (x.states m) := by
    intro m hle
    induction m, hle using Nat.le_induction with
    | base => exact hstart
    | succ m hle ih =>
        exact (x.stays hstep ih).resolve_left fun htaken => hnever ⟨m, hle, ih, htaken⟩
  obtain ⟨m, hle, htaken⟩ := h n fun m hle => hlasts _ (x.reachable m) (hafter m hle)
  exact hnever ⟨m, hle, hafter m hle, htaken⟩

end Schedule

end System

end MuduoCore
