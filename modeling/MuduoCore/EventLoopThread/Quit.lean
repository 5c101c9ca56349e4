import MuduoCore.EventLoopThread.Basic

/-!
# Quitting

`loop` clears `quit_` when it is entered, and nothing else ever does. A quit that is stored after that
stays, and the child leaves its loop at the next test; one that is stored before is lost.
-/

namespace MuduoCore

variable {F θ : Type*}

namespace EventLoop

variable [DecidableEq θ] {l l' : EventLoop F θ} {action : LoopAction F θ}

/-- Only the beginning of `loop` clears `quit_`. -/
theorem quit_of_step (hclear : action ≠ .clearQuit) (hquit : l.quit = true)
    (hstep : step l action = some l') : l'.quit = true := by
  cases action with
  | clearQuit => exact absurd rfl hclear
  | quit | ownQuit =>
      obtain ⟨-, rfl⟩ := guarded_eq_some.mp hstep
      rfl
  | ownWakeup =>
      obtain ⟨-, rfl⟩ := guarded_eq_some.mp hstep
      split <;> exact hquit
  | handleEvent =>
      obtain ⟨-, rest, ⟨-, rfl⟩ | ⟨-, rfl⟩⟩ := step_handleEvent hstep
      · exact hquit
      · exact hquit
  | runFunctor =>
      obtain ⟨-, functor, rest, -, rfl⟩ := step_runFunctor hstep
      exact hquit
  | _ =>
      obtain ⟨-, rfl⟩ := guarded_eq_some.mp hstep
      exact hquit

/-- The loop's thread comes to `entered` only by entering `loop`, and to `aboutToPoll` only from a
test that finds `quit_` clear. -/
theorem point_of_step (hstep : step l action = some l') :
    (l'.point = .entered → action = .enter ∨ l.point = .entered ∧ action ≠ .clearQuit) ∧
      (l'.point = .aboutToPoll →
        l.quit = false ∨ l.point = .aboutToPoll ∧ action ≠ .poll) := by
  cases action with
  | test =>
      obtain ⟨-, rfl⟩ := guarded_eq_some.mp hstep
      cases hquit : l.quit <;> simp [goto]
  | ownWakeup =>
      obtain ⟨-, rfl⟩ := guarded_eq_some.mp hstep
      split <;>
        exact ⟨fun hpoint => Or.inr ⟨hpoint, by simp⟩, fun hpoint => Or.inr ⟨hpoint, by simp⟩⟩
  | handleEvent =>
      obtain ⟨hat, rest, ⟨-, rfl⟩ | ⟨-, rfl⟩⟩ := step_handleEvent hstep
      · simp [handleRead, hat.1]
      · simp
  | runFunctor =>
      obtain ⟨-, functor, rest, -, rfl⟩ := step_runFunctor hstep
      simp
  | queueInLoop | quit | wakeup | ownQueueInLoop | ownQuit =>
      obtain ⟨-, rfl⟩ := guarded_eq_some.mp hstep
      exact ⟨fun hpoint => Or.inr ⟨hpoint, by simp⟩, fun hpoint => Or.inr ⟨hpoint, by simp⟩⟩
  | _ =>
      obtain ⟨-, rfl⟩ := guarded_eq_some.mp hstep
      simp [goto]

end EventLoop

namespace EventLoopThread

/-- The child has entered `loop` and stored `quit_ = false`, or is already out of `loop` again. -/
def Cleared (s : EventLoopThread F θ) : Prop :=
  s.child = .looping ∧ s.loop.point ≠ .entered ∨
    s.child = .returned ∨ s.child = .unpublished ∨ s.child = .finished

/-- The destructor of the owner stores `quit_ = true` after the child has stored `quit_ = false`. -/
def QuitsAfterEntry (s : EventLoopThread F θ) : ThreadAction F θ → Prop
  | .storeQuit => s.Cleared
  | _ => True

/-- A quit that `loop` will see. -/
structure Kept (s : EventLoopThread F θ) : Prop where
  cleared : s.Cleared
  quit : s.loop.quit = true

theorem Kept.of_same {s s' : EventLoopThread F θ} (h : s.Kept) (hchild : s'.child = s.child)
    (hloop : s'.loop = s.loop) : s'.Kept := by
  refine ⟨?_, ?_⟩
  · rw [Cleared, hchild, hloop]
    exact h.cleared
  · rw [hloop]
    exact h.quit

/-- The child has not finished `loop` and not begun it either: no quit is kept. -/
theorem Kept.child_ne {s : EventLoopThread F θ} (h : s.Kept) {child : ChildPoint}
    (hbefore : child ∈ [.notStarted, .started, .initializing, .published]) : s.child ≠ child := by
  rintro rfl
  rcases h.cleared with ⟨hchild, -⟩ | hchild | hchild | hchild <;>
    · rw [hchild] at hbefore
      simp at hbefore

variable [DecidableEq θ] {s s' : EventLoopThread F θ}

section OnLoop

variable {action : LoopAction F (Option θ)} {l : EventLoop F (Option θ)}

theorem Cleared.onLoop (h : s.Cleared) (henter : action ≠ .enter)
    (hloop : EventLoop.step s.loop action = some l) :
    Cleared { s with loop := l, child := follow s.child action } := by
  by_cases hleave : action = .leave
  · subst hleave
    exact Or.inr (Or.inl rfl)
  · have hfollow : follow s.child action = s.child := by
      cases action <;> first | rfl | exact absurd rfl henter | exact absurd rfl hleave
    rcases h with ⟨hchild, hpoint⟩ | hchild
    · refine Or.inl ⟨hfollow.trans hchild, ?_⟩
      intro hentered
      rcases (EventLoop.point_of_step hloop).1 hentered with heq | ⟨hold, -⟩
      · exact henter heq
      · exact hpoint hold
    · right
      simpa only [hfollow] using hchild

theorem Kept.onLoop (h : s.Kept) (hallowed : action = .enter ∨ action = .clearQuit → s.Allows action)
    (hloop : EventLoop.step s.loop action = some l) :
    Kept { s with loop := l, child := follow s.child action } := by
  have henter : action ≠ .enter := by
    rintro rfl
    have hchild : s.child = .published := hallowed (Or.inl rfl)
    exact h.child_ne (by simp) hchild
  have hclear : action ≠ .clearQuit := by
    rintro rfl
    have hchild : s.child = .looping := hallowed (Or.inr rfl)
    obtain ⟨hat, -⟩ := guarded_eq_some.mp hloop
    rcases h.cleared with ⟨-, hpoint⟩ | hother | hother | hother
    · exact hpoint hat.1
    all_goals
      rw [hchild] at hother
      cases hother
  exact ⟨h.cleared.onLoop henter hloop, EventLoop.quit_of_step hclear h.quit hloop⟩

end OnLoop

variable {action : ThreadAction F θ}

theorem Kept.step (h : s.Kept) (hmoves : s.Moves action s') : s'.Kept := by
  cases hmoves with
  | startLoop _ hchild => exact absurd hchild (h.child_ne (by simp))
  | construct hchild => exact absurd hchild (h.child_ne (by simp))
  | publish hchild _ => exact absurd hchild (h.child_ne (by simp))
  | unpublish => exact ⟨Or.inr (Or.inr (Or.inl rfl)), h.quit⟩
  | finish => exact ⟨Or.inr (Or.inr (Or.inr rfl)), h.quit⟩
  | loop hallowed hloop => exact h.onLoop (fun _ => hallowed) hloop
  | storeQuit _ _ hloop => exact (h.onLoop (by simp) hloop).of_same rfl rfl
  | wakeup _ _ hloop => exact (h.onLoop (by simp) hloop).of_same rfl rfl
  | _ => exact h.of_same rfl rfl

/-- Where the owner's call of `quit` has stored `quit_`, it is kept. -/
def StoredIsKept (s : EventLoopThread F θ) : Prop :=
  s.owner = .quitting ∨ s.owner = .joining → s.Kept

theorem storedIsKept_step (h : s.StoredIsKept) (hok : QuitsAfterEntry s action)
    (hmoves : s.Moves action s') : s'.StoredIsKept := by
  intro howner
  by_cases hstored : s.owner = .quitting ∨ s.owner = .joining
  · exact (h hstored).step hmoves
  · -- only the store itself brings the owner there
    cases hmoves with
    | storeQuit _ _ hloop =>
        have hcleared := Cleared.onLoop hok (by simp) hloop
        refine ⟨hcleared, ?_⟩
        obtain ⟨-, rfl⟩ := guarded_eq_some.mp hloop
        rfl
    | wakeup hquitting => exact absurd (Or.inl hquitting) hstored
    | construct | publish | unpublish | finish => exact absurd howner hstored
    | loop | loadNull | storeDangling | wakeupDangling => exact absurd howner hstored
    | _ => simp at howner

/-! ### Polls after the quit -/

def isPoll : ThreadAction F θ → Bool
  | .loop .poll => true
  | _ => false

/-- Once a quit is kept the child does not come to a poll again, except from where it has tested
`quit_` before. -/
theorem Kept.aboutToPoll (h : s.Kept) (hmoves : s.Moves action s')
    (hpoint : s'.loop.point = .aboutToPoll) :
    s.loop.point = .aboutToPoll ∧ isPoll action = false := by
  have honLoop : ∀ {loopAction : LoopAction F (Option θ)} {l : EventLoop F (Option θ)},
      EventLoop.step s.loop loopAction = some l → l.point = .aboutToPoll →
        s.loop.point = .aboutToPoll ∧ loopAction ≠ .poll := by
    intro loopAction l hloop hat
    rcases (EventLoop.point_of_step hloop).2 hat with hclear | hsame
    · rw [h.quit] at hclear
      cases hclear
    · exact hsame
  cases hmoves with
  | @loop action l _ hloop =>
      obtain ⟨hold, hne⟩ := honLoop hloop hpoint
      refine ⟨hold, ?_⟩
      cases action <;> first | rfl | exact absurd rfl hne
  | storeQuit _ _ hloop => exact ⟨(honLoop hloop hpoint).1, rfl⟩
  | wakeup _ _ hloop => exact ⟨(honLoop hloop hpoint).1, rfl⟩
  | construct hchild => exact absurd hchild (h.child_ne (by simp))
  | _ => exact ⟨hpoint, rfl⟩

theorem point_of_isPoll (hpoll : isPoll action = true) (hmoves : s.Moves action s') :
    s.loop.point = .aboutToPoll := by
  obtain rfl : action = .loop .poll := by
    cases action with
    | loop action => cases action <;> first | rfl | cases hpoll
    | _ => cases hpoll
  cases hmoves with
  | loop _ hloop => exact (guarded_eq_some.mp hloop).1.1

theorem polls_le_one {ok : EventLoopThread F θ → ThreadAction F θ → Prop}
    {actions : List (ThreadAction F θ)} (h : s.Kept) (hrun : system.RunUnder ok s actions s') :
    actions.countP isPoll ≤ 1 := by
  have hcount : s'.Kept ∧ (actions.countP isPoll = 0 ∨
      actions.countP isPoll = 1 ∧ s'.loop.point ≠ .aboutToPoll) := by
    refine hrun.history (P := fun actions s => s.Kept ∧ (actions.countP isPoll = 0 ∨
      actions.countP isPoll = 1 ∧ s.loop.point ≠ .aboutToPoll)) ⟨h, Or.inl rfl⟩ ?_
    rintro actions t action u ⟨hkept, hpolls⟩ - hstep
    have hmoves := (moves_of_step hstep).2
    refine ⟨hkept.step hmoves, ?_⟩
    rw [List.countP_append, List.countP_singleton]
    cases hpoll : isPoll action with
    | true =>
        have hpoint := point_of_isPoll hpoll hmoves
        have hnone := hpolls.resolve_right fun hone => hone.2 hpoint
        refine Or.inr ⟨by simp [hnone], ?_⟩
        intro hagain
        have := (hkept.aboutToPoll hmoves hagain).2
        rw [hpoll] at this
        cases this
    | false =>
        refine hpolls.imp (fun hnone => by simp [hnone]) fun hone => ⟨by simp [hone.1], ?_⟩
        exact fun hagain => hone.2 (hkept.aboutToPoll hmoves hagain).1
  omega

/-- **A quit is never lost** once `loop` has cleared `quit_`: when the owner waits for the child, the
child is not in the loop with `quit_` clear, and it starts at most one more poll. -/
theorem quit_never_lost (h : system.ReachableUnder QuitsAfterEntry s) (hjoin : s.owner = .joining) :
    ¬(s.child = .looping ∧ s.loop.point ≠ .entered ∧ s.loop.quit = false) ∧
      ∀ actions t, system.RunUnder QuitsAfterEntry s actions t → actions.countP isPoll ≤ 1 := by
  have hstored : s.StoredIsKept := by
    refine h.invariant ?_ fun _ _ _ hinv hok hstep =>
      storedIsKept_step hinv hok (moves_of_step hstep).2
    rintro t rfl howner
    simp [new] at howner
  have hkept := hstored (Or.inr hjoin)
  refine ⟨?_, fun actions t hrun => polls_le_one hkept hrun⟩
  rintro ⟨-, -, hclear⟩
  rw [hkept.quit] at hclear
  cases hclear

/-- The destructor runs while the child is in its second poll. -/
theorem quit_never_lost_in_poll :
    ∃ s : EventLoopThread Nat Unit, s.owner = .joining ∧ s.loop.point = .polling ∧
      ¬(s.child = .looping ∧ s.loop.point ≠ .entered ∧ s.loop.quit = false) := by
  have hrun : system.RunUnder QuitsAfterEntry (new : EventLoopThread Nat Unit)
      [.startLoop, .construct, .publish, .startLoopReturns, .loop .enter, .loop .clearQuit,
        .loop .test, .destructor, .testLoop, .loop .poll, .loadLoop, .storeQuit, .wakeup] _ :=
    .cons trivial rfl (.cons trivial rfl (.cons trivial rfl (.cons trivial rfl (.cons trivial rfl
      (.cons trivial rfl (.cons trivial rfl (.cons trivial rfl (.cons trivial rfl (.cons trivial rfl
        (.cons trivial rfl (.cons (Or.inl ⟨rfl, by decide⟩) rfl (.single trivial rfl))))))))))))
  exact ⟨_, rfl, rfl, (quit_never_lost ⟨new, _, rfl, hrun⟩ rfl).1⟩

/-- The owner destroys the thread right after `startLoop`, before the child has entered `loop`. -/
theorem quit_lost_before_loop :
    ∃ s : EventLoopThread Nat Unit,
      system.exec new [.startLoop, .construct, .publish, .startLoopReturns, .destructor, .testLoop,
        .loadLoop, .storeQuit, .wakeup, .loop .enter, .loop .clearQuit] = some s ∧
      s.owner = .joining ∧ s.child = .looping ∧ s.loop.point = .testing ∧ s.loop.quit = false :=
  ⟨_, rfl, rfl, rfl, rfl, rfl⟩

end EventLoopThread

end MuduoCore
