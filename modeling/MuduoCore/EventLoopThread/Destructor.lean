import MuduoCore.EventLoopThread.StartLoop

/-!
# The destructor and a loop that ends by itself

The child clears `loop_` under `mutex_`; the destructor tests and reads it without. Where the loop has
been told to quit by somebody else, the child may clear `loop_` and go on between any two steps of
the destructor, and a destructor that finds `loop_` clear does not wait for the child either. It may
also clear `loop_` before `startLoop` has seen it, which then waits for ever.
`finish` stands for the release of `mutex_` after the store to `loop_` and everything behind it.
-/

namespace MuduoCore

variable {F θ : Type*}

/-- The steps of the child that use a member of the `EventLoopThread`: `callback_`, `mutex_`, `loop_`
or `cond_`. -/
def ThreadAction.touchesMembers : ThreadAction F θ → Bool
  | .construct | .publish | .unpublish | .finish => true
  | _ => false

namespace EventLoopThread

/-- What `startLoop` and the destructor need of the loop. The child does not clear `loop_` while
`startLoop` waits for it; in the destructor `loop_` is still set where it is read, or the child is
through where it is tested, and the loop exists where it is used. -/
def LoopLasts (s : EventLoopThread F θ) : ThreadAction F θ → Prop
  | .unpublish => s.owner ≠ .waiting
  | .testLoop => s.loopSet = true ∨ s.child = .finished
  | .loadLoop => s.loopSet = true
  | .storeQuit | .wakeup => s.LoopExists
  | _ => True

instance (s : EventLoopThread F θ) (action : ThreadAction F θ) : Decidable (s.LoopLasts action) := by
  unfold LoopLasts
  split <;> infer_instance

/-- No pointer was misused, and the owner has waited for the end of the child. -/
structure Waited (s : EventLoopThread F θ) : Prop where
  defined : s.undefined = false
  finished : s.owner = .destroyed → s.child = .finished

variable [DecidableEq θ] {s s' : EventLoopThread F θ} {action : ThreadAction F θ}

/-- A child that is through stays so, and uses no member any more. -/
theorem finished_step (hfinished : s.child = .finished) (howner : s.owner = .destroyed)
    (hmoves : s.Moves action s') :
    s'.child = .finished ∧ s'.owner = .destroyed ∧ action.touchesMembers = false := by
  cases hmoves with
  | @loop action l hallowed _ =>
      refine ⟨?_, howner, rfl⟩
      obtain rfl | rfl | hsame := follow_cases s.child action
      · exact absurd (hfinished.symm.trans hallowed) (by decide)
      · exact absurd (hfinished.symm.trans hallowed) (by decide)
      · exact hsame.trans hfinished
  | _ => simp_all

/-- No step of the child that may still come uses a member. -/
def NoLaterAccess (s : EventLoopThread F θ) : Prop :=
  ∀ history t, system.Run s history t → ∀ action ∈ history, action.touchesMembers = false

/-- A `startLoop` that waits can still return, the destructor has used `loop_` only while it pointed
to a loop, and once it has returned the members are left alone. -/
structure Safe (s : EventLoopThread F θ) : Prop where
  returns : s.owner = .waiting → s.CanReturn
  defined : s.undefined = false
  untouched : s.owner = .destroyed → s.NoLaterAccess

theorem noLaterAccess_of_finished (hfinished : s.child = .finished) (howner : s.owner = .destroyed) :
    s.NoLaterAccess := by
  intro history t hrun
  have hinv : (t.child = .finished ∧ t.owner = .destroyed) ∧
      ∀ action ∈ history, action.touchesMembers = false := by
    refine hrun.history (P := fun history t => (t.child = .finished ∧ t.owner = .destroyed) ∧
      ∀ action ∈ history, action.touchesMembers = false) ⟨⟨hfinished, howner⟩, ?_⟩ ?_
    · intro action hmem
      cases hmem
    · intro history t action u ht _ hstep
      obtain ⟨hchild, hdestroyed, huntouched⟩ :=
        finished_step ht.1.1 ht.1.2 (moves_of_step hstep).2
      refine ⟨⟨hchild, hdestroyed⟩, ?_⟩
      intro other hmem
      rcases List.mem_append.mp hmem with hold | hnew
      · exact ht.2 other hold
      · rwa [List.mem_singleton.mp hnew]
  exact hinv.2

theorem Waited.safe (h : s.Waited) (hreach : system.Reachable s) (hawaited : s.Awaited) : s.Safe :=
  ⟨fun howner => (startLoop_can_return_iff hreach howner).mpr (hawaited howner), h.defined,
    fun howner => noLaterAccess_of_finished (h.finished howner) howner⟩

omit [DecidableEq θ] in
theorem LoopLasts.awaitsOwner (h : s.LoopLasts action) : s.AwaitsOwner action := by
  cases action with
  | unpublish => exact h
  | _ => trivial

theorem waited_step (h : s.Waited) (hlasts : s.LoopLasts action)
    (hmoves : s.Moves action s') : s'.Waited := by
  cases hmoves with
  | testNull _ hset =>
      refine ⟨h.defined, fun _ => ?_⟩
      exact hlasts.resolve_left (by rw [hset]; decide)
  | loadNull _ hset => exact absurd hlasts (by rw [LoopLasts, hset]; decide)
  | storeDangling _ hgone => exact absurd hlasts hgone
  | wakeupDangling _ hgone => exact absurd hlasts hgone
  | join _ hchild => exact ⟨h.defined, fun _ => hchild⟩
  | @loop loopAction l hallowed hloop =>
      refine ⟨h.defined, fun howner => ?_⟩
      exact (finished_step (h.finished howner) howner (.loop hallowed hloop)).1
  | finish _ => exact ⟨h.defined, fun _ => rfl⟩
  | startLoop _ _ => exact ⟨h.defined, fun howner => by cases howner⟩
  | startLoopReturns _ _ => exact ⟨h.defined, fun howner => by cases howner⟩
  | destructor _ _ => exact ⟨h.defined, fun howner => by cases howner⟩
  | testSet _ _ => exact ⟨h.defined, fun howner => by cases howner⟩
  | loadSet _ _ => exact ⟨h.defined, fun howner => by cases howner⟩
  | storeQuit _ _ _ => exact ⟨h.defined, fun howner => by cases howner⟩
  | wakeup _ _ _ => exact ⟨h.defined, fun howner => by cases howner⟩
  | construct hchild =>
      refine ⟨h.defined, fun howner => ?_⟩
      exact absurd (hchild.symm.trans (h.finished howner)) (by decide)
  | publish hchild _ =>
      refine ⟨h.defined, fun howner => ?_⟩
      exact absurd (hchild.symm.trans (h.finished howner)) (by decide)
  | unpublish hchild =>
      refine ⟨h.defined, fun howner => ?_⟩
      exact absurd (hchild.symm.trans (h.finished howner)) (by decide)

/-- A step that the loop does not outlast leaves the owner in `startLoop` for ever, leaves the members
to a child that still uses them, or uses a pointer that is null or dangling. -/
theorem loopLasts_of_safe (hpublished : s.Published) (hmoves : s.Moves action s') (hsafe : s'.Safe) :
    s.LoopLasts action := by
  cases hmoves with
  | unpublish _ =>
      intro howner
      have hmissed : Missed { s with child := .unpublished, loopSet := false } :=
        ⟨howner, rfl, .inl rfl⟩
      exact hmissed.not_canReturn (hsafe.returns howner)
  | testNull howner hset =>
      by_contra hlasts
      have hrunning : s.child ≠ .finished := fun hchild => hlasts (.inr hchild)
      have hclear : ¬s.loopSet = true := by rw [hset]; decide
      rw [hpublished.set_iff] at hclear
      obtain ⟨hnotStarted, hstarted, hinitializing⟩ :=
        hpublished.begun (by rw [howner]; decide) (by rw [howner]; decide)
      have hchild : s.child = .unpublished := by
        cases hcase : s.child <;> simp_all
      set after : EventLoopThread F θ := { s with owner := .destroyed } with hafter
      have hat : after.child = .unpublished := hchild
      have hfinish : EventLoopThread.step after .finish
          = some { after with child := .finished } :=
        (Moves.finish hat).step hsafe.defined
      have hlate := hsafe.untouched rfl [.finish] _ (.single trivial hfinish) .finish
        (List.mem_singleton_self _)
      cases hlate
  | testSet _ hset => exact .inl hset
  | loadSet _ hset => exact hset
  | storeQuit _ hexists _ => exact hexists
  | wakeup _ hexists _ => exact hexists
  | loadNull _ _ => cases hsafe.defined
  | storeDangling _ _ => cases hsafe.defined
  | wakeupDangling _ _ => cases hsafe.defined
  | _ => trivial

theorem waited_of_reachable (h : system.ReachableUnder LoopLasts s) : s.Waited := by
  refine h.invariant ?_ fun _ _ _ hs hlasts hstep =>
    waited_step hs hlasts (moves_of_step hstep).2
  rintro s rfl
  exact ⟨rfl, fun howner => by cases howner⟩

/-- **startLoop, the destructor and the end of the loop.** The loop exists when `startLoop` returns.
In every run in which it outlasts each step that needs it, `startLoop` is never left waiting for good,
the destructor uses no pointer that is null or dangling, and it leaves no member in use; and the next
step keeps it so exactly when the loop outlasts that step. Where the child clears `loop_` only behind
the owner, and both threads go on, `startLoop` does return. -/
theorem destructor_safe_iff :
    (∀ s s' : EventLoopThread F θ, system.Reachable s →
      EventLoopThread.step s .startLoopReturns = some s' → s.LoopExists) ∧
    (∀ s : EventLoopThread F θ, system.ReachableUnder LoopLasts s →
      s.Safe ∧ ∀ action s', EventLoopThread.step s action = some s' →
        (s'.Safe ↔ s.LoopLasts action)) ∧
    ∀ x : System.Schedule (system : System (EventLoopThread F θ) (ThreadAction F θ)) AwaitsOwner,
      KeepGoing x → ∀ n, (x.states n).owner = .waiting →
        ∃ m, n ≤ m ∧ x.actions m = some .startLoopReturns := by
  refine ⟨?_, ?_, ?_⟩
  · intro s s' hreach hstep
    obtain ⟨-, hmoves⟩ := moves_of_step hstep
    cases hmoves with
    | startLoopReturns _ hset => exact (published_of_reachable hreach).loopExists hset
  · intro s hreach
    have hwaited := waited_of_reachable hreach
    have hawaited : s.Awaited := awaited_of_reachable (fun _ _ => LoopLasts.awaitsOwner) hreach
    refine ⟨hwaited.safe hreach.reachable hawaited, ?_⟩
    intro action s' hstep
    have hmoves := (moves_of_step hstep).2
    constructor
    · exact loopLasts_of_safe (published_of_reachable hreach.reachable) hmoves
    · exact fun hlasts => (waited_step hwaited hlasts hmoves).safe
        (hreach.reachable.step trivial hstep) (awaited_step hawaited hlasts.awaitsOwner hmoves)
  · intro x hgoing n howner
    obtain ⟨m, hle, hreturn, -⟩ := startLoop_returns (fun _ _ => id) x hgoing howner
    exact ⟨m, hle, hreturn⟩

/-- The child publishes its loop at once, and the owner picks it up. -/
def prompt : System.Schedule (system : System (EventLoopThread Nat Unit) _) AwaitsOwner where
  states
    | 0 => new
    | 1 => { new with owner := .waiting, child := .started }
    | 2 => { new with owner := .waiting, child := .initializing }
    | 3 => { new with owner := .waiting, child := .published, loopSet := true }
    | _ => { new with owner := .started, child := .published, loopSet := true }
  actions
    | 0 => some .startLoop
    | 1 => some .construct
    | 2 => some .publish
    | 3 => some .startLoopReturns
    | _ => none
  init := rfl
  rests n hnone := by
    match n with
    | 0 | 1 | 2 | 3 => cases hnone
    | _ + 4 => rfl
  moves n action haction := by
    match n with
    | 0 | 1 | 2 | 3 =>
        obtain rfl := Option.some.inj haction
        exact ⟨trivial, rfl⟩
    | _ + 4 => cases haction

/-- The owner waits no more from time 4 on, and the child is past its `callback_`. -/
theorem keepGoing_prompt : KeepGoing prompt := by
  have hlate : ∀ n, n ≤ n + 4 := fun n => Nat.le_add_right n 4
  refine ⟨fun n hall => ?_, fun n hall => ?_, fun n hall => ?_⟩
  · obtain ⟨t, ht⟩ := hall (n + 4) (hlate n)
    cases ht
  · cases hall (n + 4) (hlate n)
  · obtain ⟨t, ht⟩ := hall (n + 4) (hlate n)
    cases ht

/-- Another thread tells the loop to quit, and the destructor finds it on its way out. -/
theorem destructor_safe_iff_quitting_loop :
    (∃ s : EventLoopThread Nat Unit, s.owner = .destroyed ∧ s.child = .finished ∧ s.Safe) ∧
      ∃ m, 1 ≤ m ∧ prompt.actions m = some .startLoopReturns := by
  have hrun : system.execUnder LoopLasts (new : EventLoopThread Nat Unit)
      [.startLoop, .construct, .publish, .startLoopReturns, .loop .enter, .loop .clearQuit,
        .loop (.quit (some ())), .loop .test, .destructor, .testLoop, .loadLoop, .loop .leave,
        .storeQuit, .wakeup, .unpublish, .finish, .join] = some _ := rfl
  obtain ⟨-, hsafe, hreturns⟩ := @destructor_safe_iff Nat Unit _
  exact ⟨⟨_, rfl, rfl, (hsafe _ (System.reachableUnder_of_execUnder rfl hrun)).1⟩,
    hreturns prompt keepGoing_prompt 1 rfl⟩

/-- The loop ends by itself: the destructor reads `loop_` again and finds it null; it calls `quit` on
a loop that is gone; it skips the join while the child still holds `mutex_`; or `startLoop` comes too
late to see it. -/
theorem destructor_unsafe :
    (∃ s : EventLoopThread Nat Unit, system.exec new
      [.startLoop, .construct, .publish, .startLoopReturns, .loop .enter, .loop .clearQuit,
        .loop (.quit (some ())), .loop .test, .loop .leave, .destructor, .testLoop, .unpublish,
        .loadLoop]
      = some s ∧ ¬s.Safe) ∧
    (∃ s : EventLoopThread Nat Unit, system.exec new
      [.startLoop, .construct, .publish, .startLoopReturns, .loop .enter, .loop .clearQuit,
        .loop (.quit (some ())), .loop .test, .loop .leave, .destructor, .testLoop, .loadLoop,
        .unpublish, .finish, .storeQuit] = some s ∧ ¬s.Safe) ∧
    (∃ s : EventLoopThread Nat Unit, system.exec new
      [.startLoop, .construct, .publish, .startLoopReturns, .loop .enter, .loop .clearQuit,
        .loop (.quit (some ())), .loop .test, .loop .leave, .destructor, .unpublish, .testLoop]
      = some s ∧ s.owner = .destroyed ∧ ¬s.Safe) ∧
    ∃ s : EventLoopThread Nat Unit, system.exec new
      [.startLoop, .construct, .publish, .loop .enter, .loop .clearQuit, .loop (.quit (some ())),
        .loop .test, .loop .leave, .unpublish] = some s ∧
      s.owner = .waiting ∧ ∀ actions t, system.Run s actions t → t.owner ≠ .started := by
  refine ⟨⟨_, rfl, fun hsafe => ?_⟩, ⟨_, rfl, fun hsafe => ?_⟩, ⟨_, rfl, rfl, fun hsafe => ?_⟩,
    ⟨_, rfl, rfl, fun actions t hrun hstarted => ?_⟩⟩
  · cases hsafe.defined
  · cases hsafe.defined
  · have hlate := hsafe.untouched rfl [.finish] _ (.single trivial rfl) .finish
      (List.mem_singleton_self _)
    cases hlate
  · exact Missed.not_canReturn ⟨rfl, rfl, .inl rfl⟩ ⟨actions, t, hrun, hstarted⟩

end EventLoopThread

end MuduoCore
