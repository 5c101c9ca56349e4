import MuduoCore.EventLoop.QuitDrain
import MuduoCore.EventLoopThread.Quit

/-!
# What a joined loop has executed

The destructor of the owner tells the loop to quit and joins the child. Whether a functor that the
owner queued before, as `~TcpServer` queues `connectDestroyed`, is executed by then depends on where
the loop is when `quit_` is stored.
-/

namespace MuduoCore

variable {F θ : Type*}

namespace EventLoopThread

variable [DecidableEq θ] {s s' : EventLoopThread F θ}

/-- What a step does to the loop. -/
theorem loop_step {action : ThreadAction F θ} (hmoves : s.Moves action s') :
    s'.loop = s.loop ∨ s'.loop = EventLoop.new ∧ s.child = .started ∨
      ∃ loopAction, EventLoop.step s.loop loopAction = some s'.loop := by
  cases hmoves with
  | construct hchild => exact .inr (.inl ⟨rfl, hchild⟩)
  | loop _ hloop => exact .inr (.inr ⟨_, hloop⟩)
  | storeQuit _ _ hloop => exact .inr (.inr ⟨_, hloop⟩)
  | wakeup _ _ hloop => exact .inr (.inr ⟨_, hloop⟩)
  | _ => exact .inl rfl

theorem loop_reachable (h : system.Reachable s) : EventLoop.system.Reachable s.loop := by
  have hnew : EventLoop.system.Reachable (EventLoop.new : EventLoop F (Option θ)) :=
    ⟨_, [], rfl, .nil _⟩
  refine h.invariant (I := fun s => EventLoop.system.Reachable s.loop) ?_ ?_
  · rintro s rfl
    exact hnew
  · intro s action s' hs _ hstep
    obtain hsame | ⟨hfresh, -⟩ | ⟨loopAction, hloop⟩ := loop_step (moves_of_step hstep).2
    · rwa [hsame]
    · rw [hfresh]
      exact hnew
    · exact hs.step trivial hloop

/-- The child is in its loop, or has left it. -/
def Past (s : EventLoopThread F θ) : Prop :=
  s.child = .looping ∧ s.loop.Running ∨
    (s.child = .returned ∨ s.child = .unpublished ∨ s.child = .finished) ∧ s.loop.point = .outside

/-- The owner is in its call of `quit`, joins, or has joined. -/
def Joins (s : EventLoopThread F θ) : Prop :=
  s.owner = .quitting ∨ s.owner = .joining ∨ s.owner = .destroyed ∧ s.child = .finished

omit [DecidableEq θ] in
theorem Past.child_ne (h : s.Past) (child : ChildPoint)
    (hbefore : child ∈ [.notStarted, .started, .initializing, .published]) : s.child ≠ child := by
  rintro rfl
  obtain ⟨hchild, -⟩ | ⟨hchild | hchild | hchild, -⟩ := h <;>
    · rw [hchild] at hbefore
      simp at hbefore

/-- The actions of threads other than the child. -/
def isForeign : LoopAction F (Option θ) → Bool
  | .queueInLoop _ _ | .quit _ | .wakeup _ => true
  | _ => false

omit [DecidableEq θ] in
theorem Past.looping_of_allows (h : s.Past) {action : LoopAction F (Option θ)}
    (hallowed : s.Allows action) (hforeign : isForeign action = false) :
    s.child = .looping ∧ action ≠ .enter := by
  have hinitializing := h.child_ne .initializing (by simp)
  have hpublished := h.child_ne .published (by simp)
  cases action with
  | queueInLoop | quit | wakeup => cases hforeign
  | ownQueueInLoop | ownWakeup | ownQuit =>
      exact ⟨hallowed.resolve_left hinitializing, by simp⟩
  | enter => exact absurd hallowed hpublished
  | _ => exact ⟨hallowed, by simp⟩

theorem Past.onLoop (h : s.Past) {action : LoopAction F (Option θ)} {l : EventLoop F (Option θ)}
    (hallowed : s.Allows action ∨ isForeign action = true)
    (hloop : EventLoop.step s.loop action = some l) :
    Past { s with loop := l, child := follow s.child action } ∧
      (s.child = .finished → follow s.child action = .finished) := by
  cases hforeign : isForeign action with
  | true =>
      have hkept : l.point = s.loop.point ∧ follow s.child action = s.child := by
        cases action with
        | queueInLoop | quit | wakeup =>
            obtain ⟨-, rfl⟩ := guarded_eq_some.mp hloop
            exact ⟨rfl, rfl⟩
        | _ => cases hforeign
      refine ⟨?_, fun hfinished => hkept.2.trans hfinished⟩
      simp only [Past, EventLoop.Running, hkept.1, hkept.2]
      exact h
  | false =>
      have hown := hallowed.resolve_right fun heq => absurd (heq.symm.trans hforeign) (by decide)
      obtain ⟨hchild, henter⟩ := h.looping_of_allows hown hforeign
      have hrunning : s.loop.Running := by
        obtain ⟨-, hrunning⟩ | ⟨hother | hother | hother, -⟩ := h
        · exact hrunning
        all_goals
          rw [hchild] at hother
          cases hother
      refine ⟨?_, fun hfinished => absurd (hchild.symm.trans hfinished) (by decide)⟩
      obtain hstill | ⟨rfl, houtside⟩ := hrunning.step hloop
      · by_cases hleave : action = .leave
        · subst hleave
          obtain ⟨-, rfl⟩ := guarded_eq_some.mp hloop
          exact absurd rfl hstill.1
        · have hfollow : follow s.child action = s.child := by
            cases action <;> first | rfl | exact absurd rfl henter | exact absurd rfl hleave
          exact .inl ⟨hfollow.trans hchild, hstill⟩
      · exact .inr ⟨.inl rfl, houtside⟩

omit [DecidableEq θ] in
theorem Joins.owner_ne (h : s.Joins) (owner : OwnerPoint)
    (hbefore : owner ∈ [.idle, .waiting, .started, .destructing, .found, .calling]) :
    s.owner ≠ owner := by
  rintro rfl
  obtain howner | howner | ⟨howner, -⟩ := h <;>
    · rw [howner] at hbefore
      simp at hbefore

omit [DecidableEq θ] in
/-- A child that is out of its loop, and not yet through. -/
theorem Past.leaves (h : s.Past) (hjoins : s.Joins) (hlooping : s.child ≠ .looping)
    (hfinished : s.child ≠ .finished) :
    s.loop.point = .outside ∧ (s.owner = .quitting ∨ s.owner = .joining) := by
  constructor
  · obtain ⟨hchild, -⟩ | ⟨-, houtside⟩ := h
    · exact absurd hchild hlooping
    · exact houtside
  · obtain howner | howner | ⟨-, hchild⟩ := hjoins
    · exact .inl howner
    · exact .inr howner
    · exact absurd hchild hfinished

/-- One step after the store of `quit_`. -/
theorem past_step {action : ThreadAction F θ} (h : s.Past) (hjoins : s.Joins)
    (hmoves : s.Moves action s') : s'.Past ∧ s'.Joins := by
  cases hmoves with
  | startLoop _ hchild => exact absurd hchild (h.child_ne _ (by simp))
  | construct hchild => exact absurd hchild (h.child_ne _ (by simp))
  | publish hchild _ => exact absurd hchild (h.child_ne _ (by simp))
  | startLoopReturns howner _ => exact absurd howner (hjoins.owner_ne _ (by simp))
  | destructor howner _ => exact absurd howner (hjoins.owner_ne _ (by simp))
  | testSet howner _ => exact absurd howner (hjoins.owner_ne _ (by simp))
  | testNull howner _ => exact absurd howner (hjoins.owner_ne _ (by simp))
  | loadSet howner _ => exact absurd howner (hjoins.owner_ne _ (by simp))
  | loadNull howner _ => exact absurd howner (hjoins.owner_ne _ (by simp))
  | storeQuit howner _ _ => exact absurd howner (hjoins.owner_ne _ (by simp))
  | storeDangling howner _ => exact absurd howner (hjoins.owner_ne _ (by simp))
  | loop hallowed hloop =>
      obtain ⟨hpast, hfinished⟩ := h.onLoop (.inl hallowed) hloop
      exact ⟨hpast, hjoins.imp_right (Or.imp_right (And.imp_right hfinished))⟩
  | wakeup _ _ hloop => exact ⟨(h.onLoop (.inr rfl) hloop).1, .inr (.inl rfl)⟩
  | wakeupDangling => exact ⟨h, hjoins⟩
  | join _ hfinished => exact ⟨h, .inr (.inr ⟨rfl, hfinished⟩)⟩
  | unpublish hchild =>
      obtain ⟨houtside, howner⟩ := h.leaves hjoins (by rw [hchild]; decide) (by rw [hchild]; decide)
      exact ⟨.inr ⟨by simp, houtside⟩, howner.imp_right .inl⟩
  | finish hchild =>
      obtain ⟨houtside, howner⟩ := h.leaves hjoins (by rw [hchild]; decide) (by rw [hchild]; decide)
      exact ⟨.inr ⟨by simp, houtside⟩, howner.imp_right .inl⟩

/-- A functor at place `i` is kept until the join, where it was swapped out or is going to be. -/
theorem executed_of_joined {s' : EventLoopThread F θ} (h : system.Reachable s) (hpast : s.Past)
    (hjoins : s.Joins) {i : Nat} (hi : i < s.loop.pushed.length) (hcovers : s.loop.Covers i)
    {actions : List (ThreadAction F θ)} (hrun : system.Run s actions s')
    (howner : s'.owner = .destroyed) : s'.loop.executed[i]? = s.loop.pushed[i]? := by
  have hlast : s'.Past ∧ s'.Joins ∧ s'.loop.Covers i ∧ EventLoop.Queued s'.loop ∧
      s.loop.pushed <+: s'.loop.pushed := by
    refine hrun.invariant (I := fun t => t.Past ∧ t.Joins ∧ t.loop.Covers i ∧
      EventLoop.Queued t.loop ∧ s.loop.pushed <+: t.loop.pushed)
      ⟨hpast, hjoins, hcovers, EventLoop.queued_of_reachable (loop_reachable h), List.prefix_rfl⟩ ?_
    rintro t action u ⟨ht, hjoining, hcovered, hqueued, hprefix⟩ - hstep
    have hmoves := (moves_of_step hstep).2
    obtain ⟨hu, hjoined⟩ := past_step ht hjoining hmoves
    refine ⟨hu, hjoined, ?_⟩
    obtain hsame | ⟨-, hchild⟩ | ⟨loopAction, hloop⟩ := loop_step hmoves
    · rw [hsame]
      exact ⟨hcovered, hqueued, hprefix⟩
    · exact absurd hchild (ht.child_ne _ (by simp))
    · exact ⟨hcovered.step hqueued (hi.trans_le hprefix.length_le) hloop, hqueued.step hloop,
        hprefix.trans (EventLoop.pushed_step hloop)⟩
  obtain ⟨hpast', hjoins', hcovers', hqueued, rest, hrest⟩ := hlast
  have houtside : s'.loop.point = .outside := by
    have hfinished : s'.child = .finished := by
      obtain hother | hother | ⟨-, hfinished⟩ := hjoins'
      · rw [howner] at hother
        cases hother
      · rw [howner] at hother
        cases hother
      · exact hfinished
    obtain ⟨hlooping, -⟩ | ⟨-, houtside⟩ := hpast'
    · rw [hfinished] at hlooping
      cases hlooping
    · exact houtside
  rw [hcovers'.executed hqueued (by rw [houtside]; rfl) (by rw [houtside]; rfl), ← hrest,
    List.getElem?_append_left hi]

/-! ### A functor that is lost -/

/-- The way of the child out of its loop, seen from the thread. -/
theorem run_of_returns {l : EventLoop F (Option θ)} {actions : List (LoopAction F (Option θ))}
    (hchild : s.child = .looping) (hdefined : s.undefined = false)
    (hrun : EventLoop.system.RunUnder (fun _ action => EventLoop.returns action = true) s.loop
      actions l) : system.Run s (actions.map .loop) { s with loop := l } := by
  generalize hstart : s.loop = start at hrun
  induction hrun with
  | nil =>
      rw [← hstart]
      exact .nil s
  | @snoc t u before action hprev hreturns hstep ih =>
      have hallowed : ({ s with loop := t } : EventLoopThread F θ).Allows action := by
        cases action with
        | ownWakeup => exact .inr hchild
        | runFunctor | functorReturns | finishBatch | release | test => exact hchild
        | _ => cases hreturns
      have hfollow : follow s.child action = s.child := by
        cases action <;> first | rfl | cases hreturns
      have hnext : EventLoopThread.step { s with loop := t } (.loop action)
          = some { s with loop := u } := by
        have hmoves := Moves.loop hallowed hstep
        rw [hfollow] at hmoves
        exact hmoves.step hdefined
      rw [List.map_append]
      exact ih.snoc trivial hnext

/-- The owner's call of `quit` returns, the child leaves its loop at the next test, and the owner
joins it. -/
theorem run_to_joined (howner : s.owner = .quitting) (hchild : s.child = .looping)
    (hdefined : s.undefined = false) (hcall : s.loop.calls none ≠ .idle)
    (hqueued : EventLoop.Queued s.loop) (hrunning : s.loop.Running) (hquit : s.loop.quit = true)
    (hswap : s.loop.point.willSwap = false) :
    ∃ actions t, system.Run s actions t ∧ t.owner = .destroyed ∧
      t.loop.executed = s.loop.executed ++ s.loop.functors := by
  have hexists : s.LoopExists := by
    rw [LoopExists, hchild]
    decide
  set woken : EventLoop F (Option θ) := s.loop.wakeup.setCall none .idle
  have hwakeup : EventLoop.step s.loop (.wakeup none) = some woken :=
    guarded_eq_some.mpr ⟨hcall, rfl⟩
  have hreturn : EventLoopThread.step s .wakeup = some { s with loop := woken, owner := .joining } :=
    (Moves.wakeup howner hexists hwakeup).step hdefined
  obtain ⟨actions, l, hrun, hat, hexecuted⟩ :=
    EventLoop.leaves_of_running (hqueued.step hwakeup) hrunning hquit hswap
  have hout := run_of_returns (s := { s with loop := woken, owner := .joining }) hchild hdefined hrun
  set left : EventLoop F (Option θ) := { l with looping := false, point := .outside }
  have hleave : EventLoop.step l .leave = some left := guarded_eq_some.mpr ⟨hat, rfl⟩
  set returned : EventLoopThread F θ :=
    { s with loop := left, owner := .joining, child := .returned }
  have hallowed : Allows { s with loop := l, owner := .joining } .leave := hchild
  have hreturned : EventLoopThread.step { s with loop := l, owner := .joining } (.loop .leave)
      = some returned := (Moves.loop hallowed hleave).step hdefined
  have hunpublish : EventLoopThread.step returned .unpublish
      = some { returned with child := .unpublished, loopSet := false } :=
    (Moves.unpublish rfl).step hdefined
  have hfinish : EventLoopThread.step { returned with child := .unpublished, loopSet := false } .finish
      = some { returned with child := .finished, loopSet := false } :=
    (Moves.finish rfl).step hdefined
  have hjoin : EventLoopThread.step { returned with child := .finished, loopSet := false } .join
      = some { returned with owner := .destroyed, child := .finished, loopSet := false } :=
    (Moves.join rfl rfl).step hdefined
  have hjoined := (((hout.snoc trivial hreturned).snoc trivial hunpublish).snoc trivial hfinish).snoc
    trivial hjoin
  exact ⟨_, _, .cons trivial hreturn hjoined, rfl, hexecuted⟩

theorem storeQuit_step (hlooping : s.child = .looping)
    (hstep : EventLoopThread.step s .storeQuit = some s') :
    s.undefined = false ∧ s'.undefined = false ∧ s'.owner = .quitting ∧ s'.child = .looping ∧
      EventLoop.step s.loop (.quit none) = some s'.loop := by
  have hexists : s.LoopExists := by
    rw [LoopExists, hlooping]
    decide
  obtain ⟨hdefined, hmoves⟩ := moves_of_step hstep
  cases hmoves with
  | storeQuit _ _ hloop => exact ⟨hdefined, hdefined, rfl, hlooping, hloop⟩
  | storeDangling _ hgone => exact absurd hexists hgone

/-- What the destructor of the owner finds executed after the join, for a child that is in its loop
when the destructor stores `quit_`. -/
theorem executed_before_join_iff (h : system.Reachable s) (hlooping : s.child = .looping)
    (hrunning : s.loop.Running) (hstep : EventLoopThread.step s .storeQuit = some s') {i : Nat}
    (hi : i < s.loop.pushed.length) :
    (∀ actions t, system.Run s' actions t → t.owner = .destroyed →
        t.loop.executed[i]? = s.loop.pushed[i]?) ↔ s.loop.Covers i := by
  obtain ⟨-, hdefined, howner, hchild, hquit⟩ := storeQuit_step hlooping hstep
  obtain ⟨hset, hpoint, hexecuted, hfunctors, hpushed⟩ := EventLoop.isQuit_step rfl hquit
  have hreach : system.Reachable s' := h.step trivial hstep
  have hrunning' : s'.loop.Running := by
    rw [EventLoop.Running, hpoint]
    exact hrunning
  constructor
  · intro hall
    by_contra hnot
    obtain ⟨hswap, hlast⟩ := not_or.mp hnot
    have hcall : s'.loop.calls none ≠ .idle := by
      obtain ⟨-, heq⟩ := guarded_eq_some.mp hquit
      rw [← heq]
      simp [EventLoop.setCall]
    obtain ⟨actions, t, hrun, hdestroyed, hdone⟩ := run_to_joined howner hchild hdefined hcall
      (EventLoop.queued_of_reachable (loop_reachable hreach)) hrunning' hset
      (by rw [hpoint]; simpa using hswap)
    have hlost := hall actions t hrun hdestroyed
    have hlength : t.loop.executed.length = s.loop.swapped := by
      rw [hdone, List.length_append, hexecuted, hfunctors, EventLoop.swapped]
    rw [List.getElem?_eq_none (by omega), List.getElem?_eq_getElem hi] at hlost
    cases hlost
  · intro hcovers actions t hrun hdestroyed
    have hcovers' : s'.loop.Covers i := by
      rw [EventLoop.Covers, EventLoop.swapped, hpoint, hexecuted, hfunctors]
      exact hcovers
    have hkept := executed_of_joined hreach (.inl ⟨hchild, hrunning'⟩) (.inl howner)
      (by rwa [hpushed]) hcovers' hrun hdestroyed
    rwa [hpushed] at hkept

/-- **No functor is lost at quit** that the swap has taken before `quit_` is stored, or is still to
take before the next test, and every other one can be lost: of a running loop whichever thread calls
`quit`, until `loop` returns, and of the loop of a thread until the destructor has joined it. -/
theorem quit_keeps_functor_iff (i : Nat) :
    (∀ (l l' : EventLoop F θ) (action : LoopAction F θ), EventLoop.system.Reachable l → l.Running →
      LoopAction.isQuit action = true → EventLoop.step l action = some l' → i < l.pushed.length →
      ((∀ actions u, EventLoop.system.Run l' actions u → u.point = .leaving →
        u.executed[i]? = l.pushed[i]?) ↔ l.Covers i)) ∧
    ∀ s s' : EventLoopThread F θ, system.Reachable s → s.child = .looping → s.loop.Running →
      EventLoopThread.step s .storeQuit = some s' → i < s.loop.pushed.length →
      ((∀ actions t, system.Run s' actions t → t.owner = .destroyed →
        t.loop.executed[i]? = s.loop.pushed[i]?) ↔ s.loop.Covers i) :=
  ⟨fun _ _ _ h hrunning hquit hstep hi =>
      EventLoop.executed_before_return_iff h hrunning hquit hstep hi,
    fun _ _ h hlooping hrunning hstep hi => executed_before_join_iff h hlooping hrunning hstep hi⟩

/-- The owner queues a functor and destroys the thread while the child is blocked in poll. -/
theorem quit_keeps_functor_iff_polling :
    ∃ s s' : EventLoopThread Nat Unit,
      system.exec new [.startLoop, .construct, .publish, .startLoopReturns, .loop .enter,
        .loop .clearQuit, .loop .test, .loop .poll, .loop (.queueInLoop none 1),
        .loop (.wakeup none), .destructor, .testLoop, .loadLoop] = some s ∧
      EventLoopThread.step s .storeQuit = some s' ∧
      ∀ actions t, system.Run s' actions t → t.owner = .destroyed → t.loop.executed[0]? = some 1 := by
  obtain ⟨s, s', hexec, hstep, hchild, hpoint, hpushed⟩ : ∃ s s' : EventLoopThread Nat Unit,
      system.exec new [.startLoop, .construct, .publish, .startLoopReturns, .loop .enter,
        .loop .clearQuit, .loop .test, .loop .poll, .loop (.queueInLoop none 1),
        .loop (.wakeup none), .destructor, .testLoop, .loadLoop] = some s ∧
      EventLoopThread.step s .storeQuit = some s' ∧ s.child = .looping ∧
      s.loop.point = .polling ∧ s.loop.pushed = [1] :=
    ⟨_, _, rfl, rfl, rfl, rfl, rfl⟩
  have hrunning : s.loop.Running := by
    rw [EventLoop.Running, hpoint]
    decide
  have hiff := (quit_keeps_functor_iff 0).2 s s' (System.reachable_of_exec rfl hexec) hchild hrunning
    hstep (by rw [hpushed]; decide)
  rw [hpushed] at hiff
  exact ⟨s, s', hexec, hstep, hiff.mpr (.inl (by rw [hpoint]; rfl))⟩

/-- The owner queues a functor and destroys the thread while the child executes a batch. -/
theorem functor_lost_at_join :
    ∃ s : EventLoopThread Nat Unit,
      system.exec new [.startLoop, .construct, .publish, .startLoopReturns, .loop .enter,
        .loop .clearQuit, .loop .test, .loop .poll, .loop (.queueInLoop none 1),
        .loop (.wakeup none), .loop (.pollReturns [.wakeupChannel]), .loop .handleEvent,
        .loop .doPendingFunctors, .loop .swap, .loop .runFunctor, .loop (.queueInLoop none 2),
        .loop (.wakeup none), .destructor, .testLoop, .loadLoop, .storeQuit, .wakeup,
        .loop .functorReturns, .loop .finishBatch, .loop .release, .loop .test, .loop .leave,
        .unpublish, .finish, .join] = some s ∧
      s.owner = .destroyed ∧ s.loop.pushed = [1, 2] ∧ s.loop.executed = [1] :=
  ⟨_, rfl, rfl, rfl, rfl⟩

end EventLoopThread

end MuduoCore
