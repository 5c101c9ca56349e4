import Mathlib.Tactic.Common
import Mathlib.Order.Lattice
import Mathlib.Data.List.Induction

/-!
# Guarded transition systems

A system is a set of initial states and an executable step: `step s a = some t` when action `a` is
enabled in `s` and leads to `t`. Runs carry the list of actions taken, so that a property of what
happened is a property of that list, and they carry a condition that every step of the run met, so
that a rule proved under an assumption on the steps is the same rule as the unconditional one.
-/

namespace MuduoCore

structure System (σ α : Type*) where
  init : σ → Prop
  step : σ → α → Option σ

/-- A step that is enabled only where `p` holds. -/
def guarded {σ : Type*} (p : Prop) [Decidable p] (s : σ) : Option σ := if p then some s else none

@[simp]
theorem guarded_eq_some {σ : Type*} {p : Prop} [Decidable p] {s t : σ} :
    guarded p s = some t ↔ p ∧ s = t := by
  unfold guarded
  split
  · rename_i hp
    simp [hp]
  · rename_i hp
    simp [hp]

namespace System

variable {σ α τ : Type*} (S : System σ α)

/-- A run from `s` to `t` through the actions `as`, each taken in a state where `ok` allows it. -/
inductive RunUnder (ok : σ → α → Prop) : σ → List α → σ → Prop where
  | nil (s : σ) : RunUnder ok s [] s
  | snoc {s t u : σ} {as : List α} {a : α} :
      RunUnder ok s as t → ok t a → S.step t a = some u → RunUnder ok s (as ++ [a]) u

abbrev Run : σ → List α → σ → Prop := S.RunUnder fun _ _ => True

/-- The states of the runs that start in an initial state and whose steps all meet `ok`. -/
def ReachableUnder (ok : σ → α → Prop) (t : σ) : Prop :=
  ∃ s as, S.init s ∧ S.RunUnder ok s as t

abbrev Reachable (t : σ) : Prop := S.ReachableUnder (fun _ _ => True) t

/-- Executes a list of actions, stopping at the first one that is not enabled. -/
def exec (s : σ) : List α → Option σ
  | [] => some s
  | a :: as => (S.step s a).bind fun t => exec t as

/-- Executes a list of actions, stopping also at the first one that `ok` forbids. -/
def execUnder (ok : σ → α → Prop) [∀ s a, Decidable (ok s a)] (s : σ) : List α → Option σ
  | [] => some s
  | a :: as => if ok s a then (S.step s a).bind fun t => execUnder ok t as else none

/-- `S` with a history: what `record` says of each step, in order. -/
def recording {β : Type*} (record : σ → α → σ → List β) : System (σ × List β) α where
  init s := S.init s.1 ∧ s.2 = []
  step s a := (S.step s.1 a).map fun t => (t, s.2 ++ record s.1 a t)

variable {S} {ok : σ → α → Prop} {s t u : σ} {as bs : List α} {a : α}

namespace RunUnder

theorem single (hok : ok s a) (hstep : S.step s a = some t) : S.RunUnder ok s [a] t := by
  simpa using RunUnder.snoc (RunUnder.nil s) hok hstep

theorem append (hfst : S.RunUnder ok s as t) (hsnd : S.RunUnder ok t bs u) :
    S.RunUnder ok s (as ++ bs) u := by
  induction hsnd with
  | nil => simpa using hfst
  | snoc _ hok hstep ih =>
      rw [← List.append_assoc]
      exact ih.snoc hok hstep

theorem cons (hok : ok s a) (hstep : S.step s a = some t) (hrest : S.RunUnder ok t as u) :
    S.RunUnder ok s (a :: as) u :=
  (single hok hstep).append hrest

/-- What holds before any action and is kept by every allowed step, with the actions so far, holds
of the whole run. -/
theorem history {P : List α → σ → Prop} (hrun : S.RunUnder ok s as t) (hnil : P [] s)
    (hsnoc : ∀ as t a u, P as t → ok t a → S.step t a = some u → P (as ++ [a]) u) : P as t := by
  induction hrun with
  | nil => exact hnil
  | snoc _ hok hstep ih => exact hsnoc _ _ _ _ ih hok hstep

theorem invariant {I : σ → Prop} (hrun : S.RunUnder ok s as t) (hinit : I s)
    (hkeep : ∀ t a u, I t → ok t a → S.step t a = some u → I u) : I t :=
  hrun.history hinit fun _ => hkeep

/-- A run whose steps meet `ok` is a run under every weaker condition. -/
theorem weaken {ok' : σ → α → Prop} (hrun : S.RunUnder ok s as t)
    (hweaker : ∀ s a, ok s a → ok' s a) : S.RunUnder ok' s as t := by
  induction hrun with
  | nil => exact .nil _
  | snoc _ hok hstep ih => exact ih.snoc (hweaker _ _ hok) hstep

/-- A run through `as ++ bs` passes through a state where `as` is done. -/
theorem split (hrun : S.RunUnder ok s (as ++ bs) u) :
    ∃ t, S.RunUnder ok s as t ∧ S.RunUnder ok t bs u := by
  induction bs using List.reverseRecOn generalizing u with
  | nil => exact ⟨u, by simpa using hrun, .nil u⟩
  | append_singleton bs b ih =>
      generalize hcs : as ++ (bs ++ [b]) = cs at hrun
      cases hrun with
      | nil => simp at hcs
      | @snoc t _ ds d hprev hok hstep =>
          rw [← List.append_assoc] at hcs
          obtain ⟨rfl, hlast⟩ := List.append_inj' hcs rfl
          obtain rfl : b = d := by simpa using hlast
          obtain ⟨v, hfst, hsnd⟩ := ih hprev
          exact ⟨v, hfst, hsnd.snoc hok hstep⟩

theorem last (hrun : S.RunUnder ok s (as ++ [a]) u) :
    ∃ t, S.RunUnder ok s as t ∧ ok t a ∧ S.step t a = some u := by
  generalize hbs : as ++ [a] = bs at hrun
  cases hrun with
  | nil => simp at hbs
  | @snoc t _ cs c hprev hok hstep =>
      obtain ⟨rfl, hlast⟩ := List.append_inj' hbs rfl
      obtain rfl : a = c := by simpa using hlast
      exact ⟨t, hprev, hok, hstep⟩

theorem eq_of_nil (hrun : S.RunUnder ok s [] t) : s = t := by
  generalize hnone : ([] : List α) = bs at hrun
  cases hrun with
  | nil => rfl
  | snoc _ _ _ => simp at hnone

theorem head (hrun : S.RunUnder ok s (a :: as) u) :
    ∃ t, ok s a ∧ S.step s a = some t ∧ S.RunUnder ok t as u := by
  have hparts : S.RunUnder ok s ([a] ++ as) u := hrun
  obtain ⟨t, hfst, hrest⟩ := hparts.split
  have hsingle : S.RunUnder ok s ([] ++ [a]) t := hfst
  obtain ⟨r, hnone, hok, hstep⟩ := hsingle.last
  obtain rfl := hnone.eq_of_nil
  exact ⟨t, hok, hstep, hrest⟩

/-- The actions of a run determine where it ends, whatever condition its steps met. -/
theorem unique {ok' : σ → α → Prop} (hrun : S.RunUnder ok s as t) (hother : S.RunUnder ok' s as u) :
    t = u := by
  induction hrun generalizing u with
  | nil => exact hother.eq_of_nil
  | snoc _ _ hstep ih =>
      obtain ⟨v, hprev, -, hlast⟩ := hother.last
      obtain rfl := ih hprev
      exact Option.some.inj (hstep.symm.trans hlast)

end RunUnder

/-- An executed list of actions is a run; every step of it meets a condition on the actions alone. -/
theorem runUnder_of_exec (hok : ∀ a ∈ as, ∀ s, ok s a) (hexec : S.exec s as = some t) :
    S.RunUnder ok s as t := by
  induction as generalizing s with
  | nil =>
      obtain rfl : s = t := by simpa [exec] using hexec
      exact .nil s
  | cons a as ih =>
      obtain ⟨r, hstep, hrest⟩ := Option.bind_eq_some_iff.mp hexec
      have hhead := hok a List.mem_cons_self s
      exact .cons hhead hstep (ih (fun b hb => hok b (List.mem_cons_of_mem a hb)) hrest)

theorem run_of_exec (hexec : S.exec s as = some t) : S.Run s as t :=
  runUnder_of_exec (fun _ _ _ => trivial) hexec

theorem reachable_of_exec (hinit : S.init s) (hexec : S.exec s as = some t) : S.Reachable t :=
  ⟨s, as, hinit, run_of_exec hexec⟩

theorem runUnder_of_execUnder [∀ s a, Decidable (ok s a)]
    (hexec : S.execUnder ok s as = some t) : S.RunUnder ok s as t := by
  induction as generalizing s with
  | nil =>
      obtain rfl : s = t := by simpa [execUnder] using hexec
      exact .nil s
  | cons a as ih =>
      rw [execUnder] at hexec
      split at hexec
      · rename_i hok
        obtain ⟨r, hstep, hrest⟩ := Option.bind_eq_some_iff.mp hexec
        exact .cons hok hstep (ih hrest)
      · cases hexec

theorem reachableUnder_of_execUnder [∀ s a, Decidable (ok s a)] (hinit : S.init s)
    (hexec : S.execUnder ok s as = some t) : S.ReachableUnder ok t :=
  ⟨s, as, hinit, runUnder_of_execUnder hexec⟩

theorem exec_of_execUnder [∀ s a, Decidable (ok s a)] (hexec : S.execUnder ok s as = some t) :
    S.exec s as = some t := by
  induction as generalizing s with
  | nil => exact hexec
  | cons a as ih =>
      rw [execUnder] at hexec
      split at hexec
      · obtain ⟨r, hstep, hrest⟩ := Option.bind_eq_some_iff.mp hexec
        exact Option.bind_eq_some_iff.mpr ⟨r, hstep, ih hrest⟩
      · cases hexec

section Ends

variable {q r : σ → Prop}

/-- An executed list of actions, with what is computed of its last state and what is proved of it. -/
theorem exists_exec (hexec : ∃ t, S.exec s as = some t ∧ q t)
    (hend : ∀ t, S.exec s as = some t → q t → r t) : ∃ t, S.exec s as = some t ∧ q t ∧ r t := by
  obtain ⟨t, ht, hq⟩ := hexec
  exact ⟨t, ht, hq, hend t ht hq⟩

theorem exists_execUnder (ok : σ → α → Prop) [∀ s a, Decidable (ok s a)]
    (hexec : ∃ t, S.execUnder ok s as = some t ∧ q t)
    (hend : ∀ t, S.execUnder ok s as = some t → q t → r t) :
    ∃ t, S.exec s as = some t ∧ q t ∧ r t := by
  obtain ⟨t, ht, hq⟩ := hexec
  exact ⟨t, exec_of_execUnder ht, hq, hend t ht hq⟩

end Ends

theorem ReachableUnder.reachable (hreach : S.ReachableUnder ok t) : S.Reachable t := by
  obtain ⟨s, as, hs, hrun⟩ := hreach
  exact ⟨s, as, hs, hrun.weaken fun _ _ _ => trivial⟩

/-- The invariant rule: an invariant of the initial states and of every allowed step holds in every
state of every run. -/
theorem ReachableUnder.invariant {I : σ → Prop} (hreach : S.ReachableUnder ok t)
    (hinit : ∀ s, S.init s → I s)
    (hkeep : ∀ t a u, I t → ok t a → S.step t a = some u → I u) : I t := by
  obtain ⟨s, as, hs, hrun⟩ := hreach
  exact hrun.invariant (hinit s hs) hkeep

theorem ReachableUnder.run (hreach : S.ReachableUnder ok s) (hrun : S.RunUnder ok s as t) :
    S.ReachableUnder ok t := by
  obtain ⟨r, bs, hr, hpath⟩ := hreach
  exact ⟨r, bs ++ as, hr, hpath.append hrun⟩

theorem ReachableUnder.step (hreach : S.ReachableUnder ok s) (hok : ok s a)
    (hstep : S.step s a = some t) : S.ReachableUnder ok t :=
  hreach.run (.single hok hstep)

/-! ### Histories -/

section Recording

variable {β : Type*} {record : σ → α → σ → List β}

theorem recording_step {v w : σ × List β} (hstep : (S.recording record).step v a = some w) :
    S.step v.1 a = some w.1 ∧ w.2 = v.2 ++ record v.1 a w.1 := by
  obtain ⟨t, ht, rfl⟩ := Option.map_eq_some_iff.mp hstep
  exact ⟨ht, rfl⟩

theorem recording_some (hstep : S.step s a = some t) (past : List β) :
    (S.recording record).step (s, past) a = some (t, past ++ record s a t) :=
  Option.map_eq_some_iff.mpr ⟨t, hstep, rfl⟩

end Recording

end System

end MuduoCore
