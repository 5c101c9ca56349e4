import MuduoCore.EventLoopThread.Basic
import MuduoCore.Lib.Schedules

/-!
# The return of startLoop

`startLoop` waits until `loop_` is set. The child sets `loop_` before it enters `loop` and clears it
when `loop` returns, and it may do both before the owner has got `mutex_` to look.
-/

namespace MuduoCore

variable {F θ : Type*}

namespace EventLoopThread

/-- `loop_` is set while the child is between the two stores, and the owner does not come out of
`startLoop` before the first of them. -/
structure Published (s : EventLoopThread F θ) : Prop where
  set_iff : s.loopSet = true ↔
    s.child = .published ∨ s.child = .looping ∨ s.child = .returned
  begun : s.owner ≠ .idle → s.owner ≠ .waiting →
    s.child ≠ .notStarted ∧ s.child ≠ .started ∧ s.child ≠ .initializing

theorem follow_cases (child : ChildPoint) (action : LoopAction F (Option θ)) :
    action = .enter ∨ action = .leave ∨ follow child action = child := by
  cases action <;> simp [follow]

theorem Published.loopExists {s : EventLoopThread F θ} (h : s.Published) (hset : s.loopSet = true) :
    s.LoopExists := by
  rcases h.set_iff.mp hset with hchild | hchild | hchild <;> simp [LoopExists, hchild]

theorem Published.of_same {s s' : EventLoopThread F θ} (h : s.Published) (hchild : s'.child = s.child)
    (hset : s'.loopSet = s.loopSet)
    (howner : s'.owner = s.owner ∨ s.owner ≠ .idle ∧ s.owner ≠ .waiting ∨ s'.owner = .waiting) :
    s'.Published := by
  refine ⟨?_, ?_⟩
  · rw [hset, hchild]
    exact h.set_iff
  · intro hidle hwaiting
    rw [hchild]
    rcases howner with hsame | hbegun | hagain
    · exact h.begun (hsame ▸ hidle) (hsame ▸ hwaiting)
    · exact h.begun hbegun.1 hbegun.2
    · exact absurd hagain hwaiting

variable [DecidableEq θ] {s s' : EventLoopThread F θ} {action : ThreadAction F θ}

theorem published_step (h : s.Published) (hmoves : s.Moves action s') : s'.Published := by
  cases hmoves with
  | startLoop _ hchild =>
      have hclear : s.loopSet = false := by
        rw [← Bool.not_eq_true, h.set_iff, hchild]
        decide
      refine ⟨?_, fun _ hwaiting => absurd rfl hwaiting⟩
      simp [hclear]
  | startLoopReturns _ hset =>
      refine ⟨h.set_iff, fun _ _ => ?_⟩
      rcases h.set_iff.mp hset with hchild | hchild | hchild <;> simp [hchild]
  | construct hchild =>
      have hclear : s.loopSet = false := by
        rw [← Bool.not_eq_true, h.set_iff, hchild]
        decide
      refine ⟨?_, fun hidle hwaiting => absurd hchild (h.begun hidle hwaiting).2.1⟩
      simp [hclear]
  | publish _ _ => exact ⟨by simp, fun _ _ => by simp⟩
  | unpublish _ => exact ⟨by simp, fun _ _ => by simp⟩
  | finish hchild =>
      have hclear : s.loopSet = false := by
        rw [← Bool.not_eq_true, h.set_iff, hchild]
        decide
      exact ⟨by simp [hclear], fun _ _ => by simp⟩
  | @loop action l hallowed _ =>
      obtain rfl | rfl | hsame := follow_cases s.child action
      · have hset := h.set_iff.mpr (.inl hallowed)
        exact ⟨by simp [hset, follow], fun _ _ => by simp [follow]⟩
      · have hset := h.set_iff.mpr (.inr (.inl hallowed))
        exact ⟨by simp [hset, follow], fun _ _ => by simp [follow]⟩
      · exact h.of_same hsame rfl (.inl rfl)
  | destructor howner _ => exact h.of_same rfl rfl (.inr (.inl (by simp [howner])))
  | testSet howner _ => exact h.of_same rfl rfl (.inr (.inl (by simp [howner])))
  | testNull howner _ => exact h.of_same rfl rfl (.inr (.inl (by simp [howner])))
  | loadSet howner _ => exact h.of_same rfl rfl (.inr (.inl (by simp [howner])))
  | loadNull _ _ => exact h.of_same rfl rfl (.inl rfl)
  | storeQuit howner _ _ => exact h.of_same rfl rfl (.inr (.inl (by simp [howner])))
  | storeDangling _ _ => exact h.of_same rfl rfl (.inl rfl)
  | wakeup howner _ _ => exact h.of_same rfl rfl (.inr (.inl (by simp [howner])))
  | wakeupDangling _ _ => exact h.of_same rfl rfl (.inl rfl)
  | join howner _ => exact h.of_same rfl rfl (.inr (.inl (by simp [howner])))

theorem published_of_reachable (h : system.Reachable s) : s.Published := by
  refine h.invariant ?_ fun _ _ _ hs _ hstep => published_step hs (moves_of_step hstep).2
  rintro s rfl
  exact ⟨by simp [new], fun hidle => absurd rfl hidle⟩

theorem loopSet_eq_false_of (h : system.Reachable s)
    (hchild : s.child ∈ [.started, .initializing, .unpublished, .finished]) : s.loopSet = false := by
  rw [← Bool.not_eq_true, (published_of_reachable h).set_iff]
  rintro (heq | heq | heq) <;> simp [heq] at hchild

/-! ### When startLoop can return -/

/-- Some run brings the owner out of `startLoop`. -/
def CanReturn (s : EventLoopThread F θ) : Prop :=
  ∃ actions t, system.Run s actions t ∧ t.owner = .started

/-- The owner waits for a pointer that the child has already taken back. -/
structure Missed (s : EventLoopThread F θ) : Prop where
  owner_eq : s.owner = .waiting
  loopSet_eq : s.loopSet = false
  child : s.child = .unpublished ∨ s.child = .finished

theorem Missed.step (h : s.Missed) (hmoves : s.Moves action s') : s'.Missed := by
  obtain ⟨howner, hclear, hchild⟩ := h
  cases hmoves with
  | @loop action l hallowed _ =>
      refine ⟨howner, hclear, ?_⟩
      obtain rfl | rfl | hsame := follow_cases s.child action
      · rcases hchild with hchild | hchild <;> cases hchild.symm.trans hallowed
      · rcases hchild with hchild | hchild <;> cases hchild.symm.trans hallowed
      · rwa [hsame]
  | finish => exact ⟨howner, hclear, .inr rfl⟩
  | _ => simp_all

theorem Missed.not_canReturn (h : s.Missed) : ¬s.CanReturn := by
  rintro ⟨actions, t, hrun, hstarted⟩
  have hmissed : t.Missed := hrun.invariant h fun _ _ _ hinv _ hstep =>
    hinv.step (moves_of_step hstep).2
  rw [hmissed.owner_eq] at hstarted
  cases hstarted

/-- While the owner waits, nothing was misused and the child has been started. -/
structure Launched (s : EventLoopThread F θ) : Prop where
  defined : s.owner = .waiting → s.undefined = false
  child_ne : s.owner = .waiting → s.child ≠ .notStarted

theorem launched_step (h : s.Launched) (hdefined : s.undefined = false)
    (hmoves : s.Moves action s') : s'.Launched := by
  cases hmoves with
  | startLoop _ _ => exact ⟨fun _ => hdefined, fun _ => by simp⟩
  | @loop action l _ _ =>
      refine ⟨h.defined, fun howner => ?_⟩
      obtain rfl | rfl | hsame := follow_cases s.child action
      · simp [follow]
      · simp [follow]
      · exact fun hchild => h.child_ne howner (hsame.symm.trans hchild)
  | construct | publish | unpublish | finish => exact ⟨h.defined, fun _ => by simp⟩
  | loadNull howner | storeDangling howner | wakeupDangling howner =>
      constructor <;>
      · intro hwaiting
        rw [howner] at hwaiting
        cases hwaiting
  | _ => constructor <;> intro hwaiting <;> cases hwaiting

theorem launched_of_reachable (h : system.Reachable s) : s.Launched := by
  refine h.invariant ?_ fun _ _ _ hs _ hstep =>
    launched_step hs (moves_of_step hstep).1 (moves_of_step hstep).2
  rintro s rfl
  constructor <;> intro hwaiting <;> cases hwaiting

theorem CanReturn.of_step (h : s'.CanReturn) (hstep : EventLoopThread.step s action = some s') :
    s.CanReturn := by
  obtain ⟨actions, t, hrun, hstarted⟩ := h
  exact ⟨action :: actions, t, .cons trivial hstep hrun, hstarted⟩

theorem canReturn_of_loopSet (howner : s.owner = .waiting) (hdefined : s.undefined = false)
    (hset : s.loopSet = true) : s.CanReturn :=
  ⟨_, _, .single trivial ((Moves.startLoopReturns howner hset).step hdefined), rfl⟩

/-- The child comes out of the call that `callback_` is in, if any, and then sets `loop_`. -/
theorem canReturn_of_initializing (howner : s.owner = .waiting) (hdefined : s.undefined = false)
    (hchild : s.child = .initializing) : s.CanReturn := by
  have hfree : ∀ t : EventLoopThread F θ, t.owner = .waiting → t.undefined = false →
      t.child = .initializing → t.loop.inCall = false → t.CanReturn := by
    intro t howner hdefined hchild hfree
    have hpublished : CanReturn { t with child := .published, loopSet := true } :=
      canReturn_of_loopSet howner hdefined rfl
    exact hpublished.of_step ((Moves.publish hchild hfree).step hdefined)
  by_cases hcall : s.loop.inCall = false
  · exact hfree s howner hdefined hchild hcall
  · obtain ⟨l, hloop, hreturned⟩ : ∃ l, EventLoop.step s.loop .ownWakeup = some l ∧
        l.inCall = false :=
      ⟨_, guarded_eq_some.mpr ⟨by simpa using hcall, rfl⟩, rfl⟩
    have hallowed : s.Allows .ownWakeup := .inl hchild
    exact (hfree { s with loop := l } howner hdefined hchild hreturned).of_step
      ((Moves.loop hallowed hloop).step hdefined)

/-- `startLoop` can return exactly as long as the child has not cleared `loop_`. -/
theorem startLoop_can_return_iff (h : system.Reachable s) (howner : s.owner = .waiting) :
    s.CanReturn ↔ s.child ≠ .unpublished ∧ s.child ≠ .finished := by
  have hpublished := published_of_reachable h
  obtain ⟨hdefined, hlaunched⟩ := launched_of_reachable h
  constructor
  · intro hcan
    refine ⟨fun hchild => ?_, fun hchild => ?_⟩
    · exact Missed.not_canReturn
        ⟨howner, loopSet_eq_false_of h (by simp [hchild]), .inl hchild⟩ hcan
    · exact Missed.not_canReturn
        ⟨howner, loopSet_eq_false_of h (by simp [hchild]), .inr hchild⟩ hcan
  · rintro ⟨hunpublished, hfinished⟩
    cases hchild : s.child with
    | notStarted => exact absurd hchild (hlaunched howner)
    | started =>
        have hstep := (Moves.construct hchild).step (hdefined howner)
        refine CanReturn.of_step ?_ hstep
        exact canReturn_of_initializing howner (hdefined howner) rfl
    | initializing => exact canReturn_of_initializing howner (hdefined howner) hchild
    | published | looping | returned =>
        exact canReturn_of_loopSet howner (hdefined howner)
          (hpublished.set_iff.mpr (by simp [hchild]))
    | unpublished => exact absurd hchild hunpublished
    | finished => exact absurd hchild hfinished

/-! ### That startLoop returns -/

/-- The child clears `loop_` only after the owner has read it. -/
def AwaitsOwner (s : EventLoopThread F θ) : ThreadAction F θ → Prop
  | .unpublish => s.owner ≠ .waiting
  | _ => True

/-- The two threads go on: the child gets to its loop, `callback_` returns, and the owner gets
`mutex_` when `loop_` stays set. -/
structure KeepGoing {ok : EventLoopThread F θ → ThreadAction F θ → Prop}
    (x : System.Schedule system ok) : Prop where
  construct : x.Just (system.Enabled .construct) .construct
  callback : x.Just (fun s => s.child = .initializing) .publish
  startLoop : x.Just (system.Enabled .startLoopReturns) .startLoopReturns

section Waiting

variable (howner : s.owner = .waiting)
include howner

theorem waits_started_step (hchild : s.child = .started) (hclear : s.loopSet = false)
    (hmoves : s.Moves action s') :
    action = .construct ∨ s'.owner = .waiting ∧ s'.child = .started := by
  cases hmoves with
  | @loop loopAction l hallowed _ =>
      obtain rfl | rfl | hsame := follow_cases s.child loopAction
      · cases hchild.symm.trans hallowed
      · cases hchild.symm.trans hallowed
      · exact .inr ⟨howner, hsame.trans hchild⟩
  | construct => exact .inl rfl
  | _ => simp_all

theorem waits_initializing_step (hchild : s.child = .initializing) (hclear : s.loopSet = false)
    (hmoves : s.Moves action s') :
    action = .publish ∨ s'.owner = .waiting ∧ s'.child = .initializing := by
  cases hmoves with
  | @loop loopAction l hallowed _ =>
      obtain rfl | rfl | hsame := follow_cases s.child loopAction
      · cases hchild.symm.trans hallowed
      · cases hchild.symm.trans hallowed
      · exact .inr ⟨howner, hsame.trans hchild⟩
  | publish => exact .inl rfl
  | _ => simp_all

theorem waits_set_step (hset : s.loopSet = true) (hok : s.AwaitsOwner action)
    (hmoves : s.Moves action s') :
    action = .startLoopReturns ∨ s'.owner = .waiting ∧ s'.loopSet = true := by
  cases hmoves with
  | startLoopReturns => exact .inl rfl
  | unpublish => exact absurd howner hok
  | publish => exact .inr ⟨howner, rfl⟩
  | loop | construct | finish => exact .inr ⟨howner, hset⟩
  | _ => simp_all

end Waiting

/-- The child has not taken `loop_` back from an owner that waits for it. -/
def Awaited (s : EventLoopThread F θ) : Prop :=
  s.owner = .waiting → s.child ≠ .unpublished ∧ s.child ≠ .finished

theorem awaited_step (h : s.Awaited) (hok : s.AwaitsOwner action) (hmoves : s.Moves action s') :
    s'.Awaited := by
  cases hmoves with
  | startLoop => exact fun _ => by simp
  | construct | publish => exact fun _ => by simp
  | @loop loopAction l hallowed _ =>
      intro howner
      obtain rfl | rfl | hsame := follow_cases s.child loopAction
      · simp [follow]
      · simp [follow]
      · simpa only [hsame] using h howner
  | unpublish => exact fun howner => absurd howner hok
  | finish hchild => exact fun howner => absurd hchild (h howner).1
  | loadNull | storeDangling | wakeupDangling => exact h
  | _ => exact fun howner => by cases howner

section Returns

variable {ok : EventLoopThread F θ → ThreadAction F θ → Prop}
  (hawaits : ∀ s action, ok s action → AwaitsOwner s action)
include hawaits

theorem awaited_of_reachable (h : system.ReachableUnder ok s) : s.Awaited := by
  refine h.invariant ?_ fun _ _ _ hs hok hstep =>
    awaited_step hs (hawaits _ _ hok) (moves_of_step hstep).2
  rintro s rfl howner
  cases howner

variable (x : System.Schedule system ok) {n : ℕ}

/-- Once `loop_` is set, it stays set until the owner has got `mutex_`. -/
theorem returns_of_set (hgoing : KeepGoing x) (howner : (x.states n).owner = .waiting)
    (hset : (x.states n).loopSet = true) :
    ∃ m, n ≤ m ∧ x.actions m = some .startLoopReturns ∧ (x.states m).LoopExists := by
  obtain ⟨m, hle, hat, htaken⟩ := hgoing.startLoop.taken
    (P := fun s => s.owner = .waiting ∧ s.loopSet = true)
    (fun s hreach hs =>
      ⟨_, (Moves.startLoopReturns hs.1 hs.2).step
        ((launched_of_reachable hreach.reachable).defined hs.1)⟩)
    (fun s action s' _ hok hstep hs =>
      waits_set_step hs.1 hs.2 (hawaits s action hok) (moves_of_step hstep).2)
    ⟨howner, hset⟩
  exact ⟨m, hle, htaken,
    (published_of_reachable (x.reachable m).reachable).loopExists hat.2⟩

/-- `callback_` returns, and the child sets `loop_`. -/
theorem returns_of_initializing (hgoing : KeepGoing x) (howner : (x.states n).owner = .waiting)
    (hchild : (x.states n).child = .initializing) :
    ∃ m, n ≤ m ∧ x.actions m = some .startLoopReturns ∧ (x.states m).LoopExists := by
  obtain ⟨m, hle, ⟨howner, hat⟩, htaken⟩ := hgoing.callback.taken
    (P := fun s => s.owner = .waiting ∧ s.child = .initializing) (fun s _ hs => hs.2)
    (fun s action s' hreach _ hstep hs =>
      waits_initializing_step hs.1 hs.2 (loopSet_eq_false_of hreach.reachable (by simp [hs.2]))
        (moves_of_step hstep).2)
    ⟨howner, hchild⟩
  obtain ⟨-, hmoves⟩ := moves_of_step (x.moves m _ htaken).2
  obtain ⟨hnext, hset⟩ : (x.states (m + 1)).owner = .waiting ∧ (x.states (m + 1)).loopSet = true := by
    generalize x.states (m + 1) = t at hmoves
    cases hmoves with
    | publish => exact ⟨howner, rfl⟩
  obtain ⟨k, hlater, hreturn⟩ := returns_of_set hawaits x hgoing hnext hset
  exact ⟨k, by omega, hreturn⟩

/-- **startLoop returns**, with a loop that exists, when the two threads go on and the child does not
clear `loop_` before the owner has read it. -/
theorem startLoop_returns (hgoing : KeepGoing x) (howner : (x.states n).owner = .waiting) :
    ∃ m, n ≤ m ∧ x.actions m = some .startLoopReturns ∧ (x.states m).LoopExists := by
  have hreach := x.reachable n
  have hpublished := published_of_reachable hreach.reachable
  obtain ⟨hunpublished, hfinished⟩ := awaited_of_reachable hawaits hreach howner
  cases hchild : (x.states n).child with
  | notStarted =>
      exact absurd hchild ((launched_of_reachable hreach.reachable).child_ne howner)
  | started =>
      obtain ⟨m, hle, ⟨howner, hat⟩, htaken⟩ := hgoing.construct.taken
        (P := fun s => s.owner = .waiting ∧ s.child = .started)
        (fun s hreach hs => ⟨_, (Moves.construct hs.2).step
          ((launched_of_reachable hreach.reachable).defined hs.1)⟩)
        (fun s action s' hreach _ hstep hs =>
          waits_started_step hs.1 hs.2 (loopSet_eq_false_of hreach.reachable (by simp [hs.2]))
            (moves_of_step hstep).2)
        ⟨howner, hchild⟩
      obtain ⟨-, hmoves⟩ := moves_of_step (x.moves m _ htaken).2
      obtain ⟨hnext, hinitializing⟩ : (x.states (m + 1)).owner = .waiting ∧
          (x.states (m + 1)).child = .initializing := by
        generalize x.states (m + 1) = t at hmoves
        cases hmoves with
        | construct => exact ⟨howner, rfl⟩
      obtain ⟨k, hlater, hreturn⟩ := returns_of_initializing hawaits x hgoing hnext hinitializing
      exact ⟨k, by omega, hreturn⟩
  | initializing => exact returns_of_initializing hawaits x hgoing howner hchild
  | published | looping | returned =>
      exact returns_of_set hawaits x hgoing howner (hpublished.set_iff.mpr (by simp [hchild]))
  | unpublished => exact absurd hchild hunpublished
  | finished => exact absurd hchild hfinished

end Returns

end EventLoopThread

end MuduoCore
