import MuduoCore.TcpServer.Confinement

/-!
# The end of a server

`~TcpServer` runs on the thread of the main loop, which goes on running. The destructor waits for the
sub loops, so the server can be called after its end from the main loop only: by the functors that the
sub loops have queued there, by the `handleClose` that the destructor was called in, and by connections
of the main loop that the user has kept.
-/

namespace MuduoCore

/-- The functor calls the server. -/
def LoopFunctor.removes : LoopFunctor → Bool
  | .server (.removeConnectionInLoop _) => true
  | _ => false

/-- What is left to do is the call of `closeCallback_`. -/
def ThreadFrame.removes : ThreadFrame → Bool
  | .frame (.removeConnection _) => true
  | _ => false

def ThreadFrame.joins : ThreadFrame → Bool
  | .joinPool _ => true
  | _ => false

def Execution.removes : Execution → Bool
  | .removeConnection _ | .removeConnectionInLoop _ => true
  | _ => false

/-! ### When a member function calls `closeCallback_` -/

/-- The calls that find the peer gone. -/
def Member.closes : Member → Prop
  | .handleClose => True
  | .handleRead answer => answer = .ok []
  | _ => False

section Closes

variable {κ : Type*} {s : Session κ}

theorem Updates.closeCallback_not_mem {s' : Session κ} (h : Updates s s') (htrace : s.trace = []) :
    .closeCallback ∉ s'.trace := by
  obtain ⟨more, hmore, -, hclose⟩ := h.staysUp.trace_eq
  rwa [hmore, htrace, List.nil_append]

theorem Member.closes_of_mem {file : Nat → List Byte} {member : Member} (htrace : s.trace = [])
    (hmem : .closeCallback ∈ (member.run file s).trace) : member.closes := by
  by_contra hnot
  revert hmem
  cases member with
  | connectEstablished => simp [run, Session.connectEstablished, Session.enableReading, htrace]
  | connectDestroyed =>
      simp only [run, Session.connectDestroyed, Session.remove, Session.onChannel_trace]
      split <;> simp [Session.disableAll, htrace]
  | handleClose => exact absurd trivial hnot
  | handleError => simp [run, Session.handleError, htrace]
  | handleRead answer => exact (Updates.handleRead s hnot).closeCallback_not_mem htrace
  | handleWrite answer => exact (Updates.handleWrite s answer).closeCallback_not_mem htrace
  | sendInLoop data answer => exact (Updates.sendInLoop s data answer).closeCallback_not_mem htrace
  | sendFileInLoop fileDescriptor offset count answer =>
      exact (Updates.sendFileInLoop s file fileDescriptor offset count answer).closeCallback_not_mem
        htrace
  | shutdownInLoop => exact (Updates.shutdownInLoop s).closeCallback_not_mem htrace

end Closes

namespace ThreadedServer

variable {θ : Type*}

/-! ### What a call on a thread can do -/

/-- The rest of the process is left as it is, and nothing that calls the server comes in, unless `r`. -/
structure Acts (thread : ServerThread θ) (r : Prop) (w w' : ThreadedServer θ) : Prop where
  placement_eq : w'.placement = w.placement
  next_eq : w'.next = w.next
  loopsStarted_eq : w'.loopsStarted = w.loopsStarted
  destroyed_eq : w'.destroyed = w.destroyed
  exited_eq : ∀ loop, (w'.loops loop).exited = (w.loops loop).exited
  stack_eq : ∀ other, other ≠ thread → w'.stack other = w.stack other
  frame : ∀ frame ∈ w'.stack thread,
    frame ∈ w.stack thread ∨ frame.joins = false ∧ (frame.removes = true → r)
  functor : ∀ loop, ∀ functor ∈ (w'.loops loop).queue.waiting,
    functor ∈ (w.loops loop).queue.waiting ∨ (functor.removes = true → r)
  entry : ∀ entry ∈ w'.log,
    entry ∈ w.log ∨ entry.late = w.destroyed ∧ (entry.execution.removes = true → r)

namespace Acts

variable {w w' w'' : ThreadedServer θ} {thread : ServerThread θ} {r : Prop}

theorem trans (hfst : Acts thread r w w') (hsnd : Acts thread r w' w'') : Acts thread r w w'' where
  placement_eq := hsnd.placement_eq.trans hfst.placement_eq
  next_eq := hsnd.next_eq.trans hfst.next_eq
  loopsStarted_eq := hsnd.loopsStarted_eq.trans hfst.loopsStarted_eq
  destroyed_eq := hsnd.destroyed_eq.trans hfst.destroyed_eq
  exited_eq loop := (hsnd.exited_eq loop).trans (hfst.exited_eq loop)
  stack_eq other hne := (hsnd.stack_eq other hne).trans (hfst.stack_eq other hne)
  frame frame hframe := (hsnd.frame frame hframe).elim (hfst.frame frame) .inr
  functor loop functor hfunctor :=
    (hsnd.functor loop functor hfunctor).elim (hfst.functor loop functor) .inr
  entry entry hentry := by
    rcases hsnd.entry entry hentry with hold | hnew
    · exact hfst.entry entry hold
    · rw [hfst.destroyed_eq] at hnew
      exact .inr hnew

/-- Everything else in the state may change. -/
theorem of_same (hplacement : w'.placement = w.placement) (hnext : w'.next = w.next)
    (hstarted : w'.loopsStarted = w.loopsStarted) (hdestroyed : w'.destroyed = w.destroyed)
    (hloops : w'.loops = w.loops) (hstack : w'.stack = w.stack) (hlog : w'.log = w.log) :
    Acts thread r w w' := by
  refine ⟨hplacement, hnext, hstarted, hdestroyed, ?_, ?_, ?_, ?_, ?_⟩
  · intro loop
    rw [hloops]
  · intro other _
    rw [hstack]
  · intro frame hframe
    rw [hstack] at hframe
    exact .inl hframe
  · intro loop functor hfunctor
    rw [hloops] at hfunctor
    exact .inl hfunctor
  · intro entry hentry
    rw [hlog] at hentry
    exact .inl hentry

theorem refl (w : ThreadedServer θ) : Acts thread r w w := of_same rfl rfl rfl rfl rfl rfl rfl

theorem dangling (w : ThreadedServer θ) : Acts thread r w w.dangling :=
  of_same rfl rfl rfl rfl rfl rfl rfl

theorem record (w : ThreadedServer θ) (other : ServerThread θ) {executions : List Execution}
    (hremoves : ∀ e ∈ executions, e.removes = true → r) :
    Acts thread r w (w.record other executions) := by
  refine ⟨rfl, rfl, rfl, rfl, fun _ => rfl, fun _ _ => rfl, fun _ => .inl, fun _ _ => .inl, ?_⟩
  intro entry hentry
  rcases List.mem_append.mp hentry with hold | hnew
  · exact .inl hold
  · obtain ⟨e, he, rfl⟩ := List.mem_map.mp hnew
    exact .inr ⟨rfl, hremoves e he⟩

theorem modifyLoop (w : ThreadedServer θ) {loop : Nat} {f : IoLoop → IoLoop}
    (hexited : (f (w.loops loop)).exited = (w.loops loop).exited)
    (hqueue : ∀ functor ∈ (f (w.loops loop)).queue.waiting,
      functor ∈ (w.loops loop).queue.waiting ∨ (functor.removes = true → r)) :
    Acts thread r w (w.modifyLoop loop f) := by
  refine ⟨rfl, rfl, rfl, rfl, ?_, fun _ _ => rfl, fun _ => .inl, ?_, fun _ => .inl⟩
  · intro other
    by_cases heq : other = loop
    · rw [heq, modifyLoop_loops_self]
      exact hexited
    · rw [modifyLoop_loops_of_ne w heq]
  · intro other functor hfunctor
    by_cases heq : other = loop
    · rw [heq, modifyLoop_loops_self] at hfunctor
      rw [heq]
      exact hqueue functor hfunctor
    · rw [modifyLoop_loops_of_ne w heq] at hfunctor
      exact .inl hfunctor

theorem queueInLoop (w : ThreadedServer θ) (loop : Nat) {functors : List LoopFunctor}
    (hremoves : ∀ functor ∈ functors, functor.removes = true → r) :
    Acts thread r w (w.queueInLoop loop functors) := by
  unfold ThreadedServer.queueInLoop
  split
  · exact dangling w
  · apply modifyLoop w rfl
    intro functor hfunctor
    rw [BatchQueue.waiting_push] at hfunctor
    exact (List.mem_append.mp hfunctor).imp_right (hremoves functor)

variable [DecidableEq θ]

theorem pushFrames (w : ThreadedServer θ) {frames : List ThreadFrame}
    (hframes : ∀ frame ∈ frames, frame.joins = false ∧ (frame.removes = true → r)) :
    Acts thread r w (w.pushFrames thread frames) := by
  refine ⟨rfl, rfl, rfl, rfl, fun _ => rfl, ?_, ?_, fun _ _ => .inl, fun _ => .inl⟩
  · intro other hne
    exact Function.update_of_ne hne ..
  · intro frame hframe
    simp only [ThreadedServer.pushFrames, Function.update_self] at hframe
    exact (List.mem_append.mp hframe).elim (fun hnew => .inr (hframes frame hnew)) .inl

theorem pushFrame (w : ThreadedServer θ) {frame : ThreadFrame} (hjoins : frame.joins = false)
    (hremoves : frame.removes = false) : Acts thread r w (w.pushFrames thread [frame]) := by
  apply pushFrames
  intro other hother
  rw [List.mem_singleton.mp hother]
  exact ⟨hjoins, fun htrue => absurd htrue (by rw [hremoves]; decide)⟩

theorem popFrame (w : ThreadedServer θ) : Acts thread r w (w.popFrame thread) := by
  refine ⟨rfl, rfl, rfl, rfl, fun _ => rfl, ?_, ?_, fun _ _ => .inl, fun _ => .inl⟩
  · intro other hne
    exact Function.update_of_ne hne ..
  · intro frame hframe
    simp only [ThreadedServer.popFrame, Function.update_self] at hframe
    exact .inl (List.mem_of_mem_tail hframe)

/-! ### Member functions and functors -/

variable {file : Nat → List Byte} {write : Except Errno Nat} {conn : Nat}

theorem after (w : ThreadedServer θ) {s : Session Nat} (hcloses : .closeCallback ∈ s.trace → r) :
    Acts thread r w (w.after thread conn s) := by
  have hconns : Acts thread r w { w with conns := Function.update w.conns conn s.conn } :=
    of_same rfl rfl rfl rfl rfl rfl rfl
  have hpolled : Acts thread r w ({ w with conns := Function.update w.conns conn s.conn }.modifyLoop
      (w.loopOf conn) fun l => { l with poller := s.poller }) :=
    hconns.trans (modifyLoop _ rfl fun _ => .inl)
  refine (hpolled.trans (queueInLoop _ _ ?_)).trans (pushFrames _ ?_)
  · intro functor hfunctor hremoves
    obtain ⟨task, -, rfl⟩ := List.mem_map.mp hfunctor
    cases hremoves
  · intro frame hframe
    obtain ⟨callback, hcallback, rfl⟩ := List.mem_map.mp hframe
    rcases ServerLoop.mem_callbackFrames hcallback with rfl | ⟨rfl, hclose⟩
    · exact ⟨rfl, fun hremoves => by cases hremoves⟩
    · exact ⟨rfl, fun _ => hcloses hclose⟩

theorem callMember (w : ThreadedServer θ) {member : Member} (hcloses : member.closes → r) :
    Acts thread r w (w.callMember file thread conn member) := by
  unfold ThreadedServer.callMember
  split
  · refine (record w thread ?_).trans (after _ ?_)
    · intro e he hremoves
      obtain ⟨function, -, rfl⟩ := List.mem_map.mp he
      cases hremoves
    · exact fun hmem => hcloses (Member.closes_of_mem rfl hmem)
  · exact dangling w

omit [DecidableEq θ] in
theorem removeConnectionInLoop (w : ThreadedServer θ) (hr : r) :
    Acts thread r w (w.removeConnectionInLoop thread conn) := by
  unfold ThreadedServer.removeConnectionInLoop
  dsimp only
  have hentered : Acts thread r w (w.record thread [.removeConnectionInLoop conn]) :=
    record w thread fun _ _ _ => hr
  split
  · exact hentered.trans (dangling _)
  · have herased : Acts thread r (w.record thread [.removeConnectionInLoop conn])
        ((w.record thread [.removeConnectionInLoop conn]).record thread [.erase conn]) :=
      record _ thread fun _ _ _ => hr
    have hunmapped : Acts thread r
        ((w.record thread [.removeConnectionInLoop conn]).record thread [.erase conn])
        { (w.record thread [.removeConnectionInLoop conn]).record thread [.erase conn] with
          connections := Function.update w.connections (w.name conn) none } :=
      of_same rfl rfl rfl rfl rfl rfl rfl
    exact ((hentered.trans herased).trans hunmapped).trans (queueInLoop _ _ fun _ _ _ => hr)

theorem callFunctor (w : ThreadedServer θ) {functor : LoopFunctor}
    (hremoves : functor.removes = true → r) :
    Acts thread r w (w.callFunctor file thread write functor) := by
  have huser : Acts thread r w (w.pushFrames thread [.frame .userCode]) := pushFrame w rfl rfl
  cases functor with
  | server functor =>
      cases functor with
      | connectEstablished conn => exact callMember w False.elim
      | connectDestroyed conn => exact callMember w False.elim
      | removeConnectionInLoop conn => exact removeConnectionInLoop w (hremoves rfl)
      | task conn task =>
          cases task with
          | sendFileInLoop fileDescriptor offset count => exact callMember w False.elim
          | writeCompleteCallback => exact huser
          | highWaterMarkCallback length => exact huser
      | user => exact huser
  | sendInLoop conn data => exact callMember w False.elim
  | shutdownInLoop conn => exact callMember w False.elim
  | listen =>
      simp only [ThreadedServer.callFunctor]
      split
      · exact dangling w
      · have hlisten : Acts thread r w (w.record thread [.listen]) := by
          apply record
          intro e he hremoves
          rw [List.mem_singleton.mp he] at hremoves
          cases hremoves
        exact hlisten.trans (of_same rfl rfl rfl rfl rfl rfl rfl)

theorem runInLoop (w : ThreadedServer θ) (loop : Nat) {functor : LoopFunctor}
    (hremoves : functor.removes = true → r) :
    Acts thread r w (w.runInLoop file thread loop write functor) := by
  unfold ThreadedServer.runInLoop
  split
  · exact callFunctor w hremoves
  · apply queueInLoop
    intro other hother
    rw [List.mem_singleton.mp hother]
    exact hremoves

theorem removeConnection (w : ThreadedServer θ) (hr : r) :
    Acts thread r w (w.removeConnection file thread conn) := by
  unfold ThreadedServer.removeConnection
  dsimp only
  have hentered : Acts thread r w (w.record thread [.removeConnection conn]) :=
    record w thread fun _ _ _ => hr
  split
  · exact hentered.trans (dangling _)
  · exact hentered.trans (runInLoop _ 0 fun _ => hr)

/-- A call on a connection that a thread makes through its `TcpConnectionPtr`. -/
theorem call (w : ThreadedServer θ) {functor : LoopFunctor} (hremoves : functor.removes = false) :
    Acts thread r w (if w.alive conn then
      w.runInLoop file thread (w.loopOf conn) write functor else w.dangling) := by
  split
  · exact runInLoop w _ fun htrue => absurd htrue (by rw [hremoves]; decide)
  · exact dangling w

end Acts

/-! ### What a step can do -/

/-- The step may come to a call of the server: it handles the end of a connection, or calls what such a
handler has left. -/
def Closing (w : ThreadedServer θ) : ThreadedAction θ → Prop
  | .frame thread read _ =>
      match w.stack thread with
      | .frame (.handleClose _) :: _ | .frame (.removeConnection _) :: _ => True
      | .frame (.handleRead _) :: _ => read = .ok []
      | _ => False
  | .runFunctor loop _ =>
      match (w.loops loop).queue.todo with
      | functor :: _ => functor.removes = true
      | [] => False
  | _ => False

variable [DecidableEq θ]

/-- A step is a call on a thread, or it changes what there is of the server. -/
inductive Effect (file : Nat → List Byte) (config : ServerConfig) (w : ThreadedServer θ)
    (action : ThreadedAction θ) : ThreadedServer θ → Prop where
  | acts {w' : ThreadedServer θ} (thread : ServerThread θ)
      (hacts : Acts thread (w.Closing action) w w')
      (hexited : ∀ loop, thread = .loop loop → (w.loops loop).exited = true →
        w.stack thread = [] → w'.stack thread = []) : Effect file config w action w'
  | exit (loop : Nat) (hstack : w.stack (.loop loop) = []) :
      Effect file config w action (w.modifyLoop loop fun l => { l with exited := true })
  | newConnection {v : ThreadedServer θ} (sockfd : Nat) (hacts : Acts (.loop 0) False w v)
      (hstack : v.stack = w.stack) (hrunning : (w.loops 0).exited = false)
      (hdestroyed : w.destroyed = false) :
      Effect file config w action (v.newConnection file config (.loop 0) sockfd)
  | startPool (thread : ServerThread θ) (left : Nat) (hstack : w.stack thread ≠ [])
      (hdestroyed : w.destroyed = false) :
      Effect file config w action
        ({ w.popFrame thread with loopsStarted := w.loopsStarted + 1 }.pushFrames thread
          [.startPool left])
  | join {v : ThreadedServer θ} (thread : ServerThread θ) (next : Nat)
      (hstack : w.stack thread ≠ []) (hacts : Acts thread False w v)
      (hjoined : ∀ loop, 0 < loop → loop < next → (w.loops loop).exited = true ∨
        ∃ other, .joinPool other ∈ w.stack thread ∧ loop < other) :
      Effect file config w action (v.pushFrames thread [.joinPool next])
  | finish (thread : ServerThread θ) (read : Except Errno (List Byte)) (write : Except Errno Nat)
      (loop : Nat) (haction : action = .frame thread read write)
      (hframe : (w.stack thread).head? = some (.joinPool loop)) (hend : w.loopsStarted < loop) :
      Effect file config w action { w.popFrame thread with destroyed := true }

section Effects

variable {file : Nat → List Byte} {config : ServerConfig} {numThreads : Nat}
  {w w' : ThreadedServer θ}

/-- The topmost frame of a thread. -/
theorem effect_of_frame {thread : ServerThread θ} {read : Except Errno (List Byte)}
    {write : Except Errno Nat} (hstep : w.move file config numThreads (.frame thread read write)
      = some w') : Effect file config w (.frame thread read write) w' := by
  obtain ⟨frame, rest, hstack, hrun⟩ := move_frame hstep
  have hne : w.stack thread ≠ [] := by
    rw [hstack]
    exact List.cons_ne_nil _ _
  -- most frames are calls on the thread
  have hcall : ∀ {v : ThreadedServer θ},
      Acts thread (w.Closing (.frame thread read write)) (w.popFrame thread) v →
      Effect file config w (.frame thread read write) v := by
    intro v hacts
    exact .acts thread ((Acts.popFrame w).trans hacts) fun _ _ _ hempty => absurd hempty hne
  cases frame with
  | frame frame =>
      cases frame with
      | handleClose conn =>
          obtain rfl := Option.some.inj hrun
          apply hcall
          apply Acts.callMember
          intro _
          simp only [Closing, hstack]
      | handleError conn =>
          obtain rfl := Option.some.inj hrun
          exact hcall (Acts.callMember _ False.elim)
      | handleRead conn =>
          obtain rfl := Option.some.inj hrun
          apply hcall
          apply Acts.callMember
          intro heof
          simp only [Closing, hstack]
          exact heof
      | handleWrite conn =>
          obtain rfl := Option.some.inj hrun
          exact hcall (Acts.callMember _ False.elim)
      | removeConnection conn =>
          obtain rfl := Option.some.inj hrun
          apply hcall
          apply Acts.removeConnection
          simp only [Closing, hstack]
      | userCode =>
          obtain rfl := Option.some.inj hrun
          exact hcall (.refl _)
  | send conn data =>
      obtain rfl := Option.some.inj hrun
      exact hcall (.call _ rfl)
  | sendFile conn fileDescriptor offset count =>
      obtain rfl := Option.some.inj hrun
      exact hcall (.call _ rfl)
  | shutdown conn =>
      obtain rfl := Option.some.inj hrun
      apply hcall
      split
      · have hstored : Acts thread (w.Closing (.frame thread read write)) (w.popFrame thread)
            { w.popFrame thread with
              conns := Function.update (w.popFrame thread).conns conn
                { (w.popFrame thread).conns conn with state := .kDisconnecting } } :=
          .of_same rfl rfl rfl rfl rfl rfl rfl
        exact hstored.trans (.pushFrame _ rfl rfl)
      · exact .dangling _
  | setState conn =>
      obtain rfl := Option.some.inj hrun
      exact hcall (.call _ rfl)
  | startPool left =>
      obtain rfl := Option.some.inj hrun
      split
      · exact hcall (.dangling _)
      · rename_i hdestroyed
        cases left with
        | zero => exact hcall (.pushFrame _ rfl rfl)
        | succ left => exact .startPool thread left hne (Bool.eq_false_iff.mpr hdestroyed)
  | listen =>
      obtain rfl := Option.some.inj hrun
      apply hcall
      split
      · exact .dangling _
      · exact .runInLoop _ 0 fun hremoves => by cases hremoves
  | destructor =>
      obtain ⟨-, rfl⟩ := guarded_eq_some.mp hrun
      refine .join thread 1 hne (.popFrame w) ?_
      intro loop hpos hlt
      omega
  | joinPool loop =>
      have hmem : .joinPool loop ∈ w.stack thread := by
        rw [hstack]
        exact List.mem_cons_self
      simp only [runFrame] at hrun
      split at hrun
      · rename_i hend
        obtain rfl := Option.some.inj hrun
        exact .finish thread read write loop rfl (by rw [hstack]; rfl) hend
      · split at hrun
        · rename_i hexited
          obtain rfl := Option.some.inj hrun
          refine .join thread (loop + 1) hne (.popFrame w) ?_
          intro other hpos hlt
          rcases Nat.lt_succ_iff_lt_or_eq.mp hlt with hbefore | rfl
          · exact .inr ⟨loop, hmem, hbefore⟩
          · exact .inl hexited
        · obtain rfl := Option.some.inj hrun
          have hquit : Acts thread False w
              ((w.popFrame thread).modifyLoop loop fun l => { l with quit := true }) :=
            (Acts.popFrame w).trans (.modifyLoop _ rfl fun _ => .inl)
          refine .join thread loop hne hquit ?_
          intro other hpos hlt
          exact .inr ⟨loop, hmem, hlt⟩

/-- A step of a loop that leaves the stacks as they are. -/
theorem Effect.of_loop {action : ThreadedAction θ} {loop : Nat} {f : IoLoop → IoLoop}
    (hexited : (f (w.loops loop)).exited = (w.loops loop).exited)
    (hqueue : ∀ functor ∈ (f (w.loops loop)).queue.waiting,
      functor ∈ (w.loops loop).queue.waiting) :
    Effect file config w action (w.modifyLoop loop f) := by
  refine .acts (.loop loop) (.modifyLoop w hexited ?_) fun _ _ _ hempty => hempty
  intro functor hfunctor
  exact .inl (hqueue functor hfunctor)

/-- What a thread does between its frames, when it is not that of a loop which has ended. -/
theorem Effect.of_call {action : ThreadedAction θ} {thread : ServerThread θ}
    (hacts : Acts thread (w.Closing action) w w')
    (hlive : ∀ loop, thread = .loop loop → (w.loops loop).exited = true → w.stack thread ≠ []) :
    Effect file config w action w' := by
  refine .acts thread hacts ?_
  intro loop hthread hexited hempty
  exact absurd hempty (hlive loop hthread hexited)

theorem effect_of_dispatch {loop : Nat} {accepted : Option Nat}
    (hstep : w.move file config numThreads (.dispatch loop accepted) = some w')
    (hconfined : Confined w) : Effect file config w (.dispatch loop accepted) w' := by
  obtain ⟨a, rest, hactive, ⟨⟨-, hrunning, -⟩, -⟩, rfl⟩ := move_dispatch hstep
  have hrest : ∀ {r : Prop}, Acts (.loop loop) r w
      (w.modifyLoop loop fun l => { l with activeChannels := rest }) :=
    .modifyLoop w rfl fun _ => .inl
  have hcall : ∀ {v : ThreadedServer θ}, Acts (.loop loop) (w.Closing (.dispatch loop accepted))
      (w.modifyLoop loop fun l => { l with activeChannels := rest }) v →
      Effect file config w (.dispatch loop accepted) v := by
    intro v hacts
    refine .of_call (hrest.trans hacts) ?_
    intro other hother hexited
    cases hother
    rw [hrunning] at hexited
    cases hexited
  cases a with
  | connection conn revents =>
      simp only [handleEvent]
      split
      · apply hcall
        apply Acts.pushFrames
        intro frame hframe
        obtain ⟨handler, hhandler, rfl⟩ := List.mem_map.mp hframe
        have hevent := event_of_mem_eventFrames hhandler
        cases handler with
        | removeConnection other => cases hevent
        | _ => exact ⟨rfl, fun hremoves => by cases hremoves⟩
      · exact hcall (.dangling _)
  | acceptor =>
      obtain rfl : loop = 0 := by
        apply (hconfined.loops loop).active .acceptor
        rw [hactive]
        exact List.mem_cons_self
      simp only [handleEvent]
      split
      · exact hcall (.dangling _)
      · rename_i hdestroyed
        cases accepted with
        | none => exact hcall (.refl _)
        | some sockfd =>
            exact .newConnection sockfd hrest rfl hrunning (Bool.eq_false_iff.mpr hdestroyed)
  | wakeup => exact hcall (.refl _)

theorem effect_of_move {action : ThreadedAction θ} (hconfined : Confined w)
    (hstep : w.move file config numThreads action = some w') :
    Effect file config w action w' := by
  -- a thread that is in user code has not ended
  have huser : ∀ {thread : ServerThread θ} {v : ThreadedServer θ} {frame : ThreadFrame},
      (w.stack thread).head? = some frame → Acts thread (w.Closing action) w v →
      Effect file config w action v := by
    intro thread v frame hhead hacts
    apply Effect.of_call hacts
    intro _ _ _ hempty
    rw [hempty] at hhead
    cases hhead
  cases action with
  | start thread =>
      obtain ⟨⟨hhead, -⟩, rfl⟩ := guarded_eq_some.mp hstep
      apply huser hhead
      have hstarted : Acts thread (w.Closing (.start thread)) w
          { w with started := w.started + 1 } := .of_same rfl rfl rfl rfl rfl rfl rfl
      split
      · refine hstarted.trans (.pushFrames _ ?_)
        intro frame hframe
        unfold startFrames at hframe
        split at hframe
        · rcases List.mem_pair.mp hframe with rfl | rfl
          all_goals exact ⟨rfl, fun hremoves => by cases hremoves⟩
        · rw [List.mem_singleton.mp hframe]
          exact ⟨rfl, fun hremoves => by cases hremoves⟩
      · exact hstarted
  | send thread conn data =>
      obtain ⟨⟨hhead, -⟩, rfl⟩ := guarded_eq_some.mp hstep
      apply huser hhead
      split
      · exact .pushFrame w rfl rfl
      · exact .refl w
  | sendFile thread conn fileDescriptor offset count =>
      obtain ⟨⟨hhead, -⟩, rfl⟩ := guarded_eq_some.mp hstep
      apply huser hhead
      split
      · exact .pushFrame w rfl rfl
      · exact .refl w
  | shutdown thread conn =>
      obtain ⟨⟨hhead, -⟩, rfl⟩ := guarded_eq_some.mp hstep
      apply huser hhead
      split
      · exact .pushFrame w rfl rfl
      · exact .refl w
  | queueInLoop thread loop =>
      obtain ⟨⟨hhead, -⟩, rfl⟩ := guarded_eq_some.mp hstep
      apply huser hhead
      apply Acts.queueInLoop
      intro functor hfunctor hremoves
      rw [List.mem_singleton.mp hfunctor] at hremoves
      cases hremoves
  | destroyServer =>
      obtain ⟨⟨hhead, -⟩, rfl⟩ := guarded_eq_some.mp hstep
      apply huser hhead
      have hbegun : Acts (.loop 0) (w.Closing .destroyServer) w { w with destroying := true } :=
        .of_same rfl rfl rfl rfl rfl rfl rfl
      exact hbegun.trans (.pushFrame _ rfl rfl)
  | destroyItem conn =>
      obtain ⟨⟨hhead, -⟩, rfl⟩ := guarded_eq_some.mp hstep
      apply huser hhead
      have hreset : Acts (.loop 0) (w.Closing (.destroyItem conn)) w
          { w with connections := Function.update w.connections (w.name conn) none } :=
        .of_same rfl rfl rfl rfl rfl rfl rfl
      exact hreset.trans (.runInLoop _ _ fun hremoves => by cases hremoves)
  | frame thread read write => exact effect_of_frame hstep
  | poll loop active =>
      obtain ⟨-, rfl⟩ := guarded_eq_some.mp hstep
      exact .of_loop rfl fun _ => id
  | dispatch loop accepted => exact effect_of_dispatch hstep hconfined
  | doPendingFunctors loop =>
      obtain ⟨-, rfl⟩ := guarded_eq_some.mp hstep
      apply Effect.of_loop rfl
      intro functor hfunctor
      rcases List.mem_append.mp hfunctor with hbatch | hpending
      · exact List.mem_append_right _ hbatch
      · cases hpending
  | runFunctor loop write =>
      obtain ⟨functor, rest, htodo, ⟨⟨-, hrunning, -⟩, -⟩, rfl⟩ := move_runFunctor hstep
      have hnext : Acts (.loop loop) (w.Closing (.runFunctor loop write)) w
          (w.modifyLoop loop fun l => { l with queue := l.queue.next }) := by
        apply Acts.modifyLoop w rfl
        intro other hother
        left
        rw [BatchQueue.waiting_next htodo]
        exact List.mem_cons_of_mem _ hother
      refine .of_call (hnext.trans (.callFunctor _ ?_)) ?_
      · intro hremoves
        simp only [Closing, htodo]
        exact hremoves
      · intro other hother hexited
        cases hother
        rw [hrunning] at hexited
        cases hexited
  | endBatch loop =>
      obtain ⟨⟨-, -, htodo⟩, rfl⟩ := guarded_eq_some.mp hstep
      apply Effect.of_loop rfl
      intro functor hfunctor
      rwa [BatchQueue.waiting_finish htodo] at hfunctor
  | exit loop =>
      obtain ⟨⟨⟨-, -, hstack⟩, -⟩, rfl⟩ := guarded_eq_some.mp hstep
      exact .exit loop hstack
  | destroy conn =>
      obtain rfl := Option.some.inj hstep
      have hdead : Acts (.loop 0) (w.Closing (.destroy conn)) w
          { w with alive := Function.update w.alive conn false } :=
        .of_same rfl rfl rfl rfl rfl rfl rfl
      refine .acts (.loop 0) (hdead.trans (.modifyLoop _ rfl fun _ => .inl)) ?_
      exact fun _ _ _ hempty => hempty

end Effects

/-! ### The pool comes to an end -/

/-- A loop that has ended does nothing more, and the destructor has come past such loops only. -/
structure Stopping (w : ThreadedServer θ) : Prop where
  next : w.next = 0 ∨ w.next < w.loopsStarted
  loopOf_le : ∀ conn < w.accepted, w.loopOf conn ≤ w.loopsStarted
  exited : ∀ loop, (w.loops loop).exited = true → w.stack (.loop loop) = []
  joined : ∀ thread next, .joinPool next ∈ w.stack thread →
    ∀ loop, 0 < loop → loop < next → (w.loops loop).exited = true

omit [DecidableEq θ] in
theorem stopping_new : Stopping (new : ThreadedServer θ) where
  next := .inl rfl
  loopOf_le conn hconn := absurd hconn (Nat.not_lt_zero conn)
  exited loop hexited := by cases hexited
  joined thread next hframe := by
    have heq := List.mem_singleton.mp hframe
    cases heq

namespace Stopping

variable {w w' : ThreadedServer θ} {thread : ServerThread θ} {r : Prop}

omit [DecidableEq θ] in
theorem acts (h : Stopping w) (hacts : Acts thread r w w')
    (hexited : ∀ loop, thread = .loop loop → (w.loops loop).exited = true →
      w.stack thread = [] → w'.stack thread = []) : Stopping w' := by
  have haccepted : w'.accepted = w.accepted := congrArg Placement.accepted hacts.placement_eq
  have hloopOf : w'.loopOf = w.loopOf := congrArg Placement.loopOf hacts.placement_eq
  refine ⟨?_, ?_, ?_, ?_⟩
  · rw [hacts.next_eq, hacts.loopsStarted_eq]
    exact h.next
  · rw [haccepted, hloopOf, hacts.loopsStarted_eq]
    exact h.loopOf_le
  · intro loop hended
    rw [hacts.exited_eq] at hended
    by_cases heq : ServerThread.loop loop = thread
    · rw [heq]
      apply hexited loop heq.symm hended
      rw [← heq]
      exact h.exited loop hended
    · rw [hacts.stack_eq _ heq]
      exact h.exited loop hended
  · intro other next hframe loop hpos hlt
    rw [hacts.exited_eq]
    by_cases heq : other = thread
    · rw [heq] at hframe
      rcases hacts.frame _ hframe with hold | ⟨hjoins, -⟩
      · exact h.joined thread next hold loop hpos hlt
      · cases hjoins
    · rw [hacts.stack_eq _ heq] at hframe
      exact h.joined other next hframe loop hpos hlt

omit [DecidableEq θ] in
/-- A thread with frames is not that of a loop that has ended. -/
theorem acts_of_ne (h : Stopping w) (hstack : w.stack thread ≠ []) (hacts : Acts thread r w w') :
    Stopping w' :=
  h.acts hacts fun _ _ _ hempty => absurd hempty hstack

omit [DecidableEq θ] in
theorem exit (h : Stopping w) {loop : Nat} (hstack : w.stack (.loop loop) = []) :
    Stopping (w.modifyLoop loop fun l => { l with exited := true }) := by
  have hmore : ∀ other, (w.loops other).exited = true →
      ((w.modifyLoop loop fun l => { l with exited := true }).loops other).exited = true := by
    intro other hother
    by_cases heq : other = loop
    · rw [heq, modifyLoop_loops_self]
    · rw [modifyLoop_loops_of_ne w heq]
      exact hother
  refine ⟨h.next, h.loopOf_le, ?_, ?_⟩
  · intro other hother
    by_cases heq : other = loop
    · rw [heq]
      exact hstack
    · rw [modifyLoop_loops_of_ne w heq] at hother
      exact h.exited other hother
  · intro thread next hframe other hpos hlt
    exact hmore other (h.joined thread next hframe other hpos hlt)

omit [DecidableEq θ] in
theorem insertConnection (h : Stopping w) (config : ServerConfig) (sockfd : Nat) :
    Stopping (w.insertConnection config thread sockfd) := by
  have hbound := h.next
  refine ⟨?_, ?_, h.exited, h.joined⟩
  · change w.getNextLoop.2 = 0 ∨ w.getNextLoop.2 < w.loopsStarted
    unfold getNextLoop
    split
    · exact h.next
    · split
      · exact .inl rfl
      · right
        simp only
        omega
  · intro conn hconn
    change Function.update w.loopOf w.accepted w.getNextLoop.1 conn ≤ w.loopsStarted
    by_cases heq : conn = w.accepted
    · rw [heq, Function.update_self]
      unfold getNextLoop
      split
      · exact Nat.zero_le _
      · simp only
        omega
    · rw [Function.update_of_ne heq]
      apply h.loopOf_le
      change conn < w.accepted + 1 at hconn
      omega

/-- `destroyed` plays no role, and more loops are only more room. -/
theorem pushJoin (h : Stopping w) (hstack : ∀ loop, thread = .loop loop →
    (w.loops loop).exited = false) {next : Nat}
    (hjoined : ∀ loop, 0 < loop → loop < next → (w.loops loop).exited = true) :
    Stopping (w.pushFrames thread [.joinPool next]) := by
  refine ⟨h.next, h.loopOf_le, ?_, ?_⟩
  · intro loop hended
    have hne : ServerThread.loop loop ≠ thread := by
      intro heq
      have hrunning := hstack loop heq.symm
      rw [show (w.loops loop).exited = true from hended] at hrunning
      cases hrunning
    rw [show (w.pushFrames thread [.joinPool next]).stack (.loop loop) = w.stack (.loop loop) from
      Function.update_of_ne hne ..]
    exact h.exited loop hended
  · intro other index hframe loop hpos hlt
    by_cases heq : other = thread
    · simp only [ThreadedServer.pushFrames, heq, Function.update_self] at hframe
      rcases List.mem_cons.mp hframe with hnew | hold
      · cases hnew
        exact hjoined loop hpos hlt
      · exact h.joined thread index hold loop hpos hlt
    · simp only [ThreadedServer.pushFrames, Function.update_of_ne heq] at hframe
      exact h.joined other index hframe loop hpos hlt

theorem effect {file : Nat → List Byte} {config : ServerConfig} {action : ThreadedAction θ}
    (h : Stopping w) (heffect : Effect file config w action w') : Stopping w' := by
  -- a thread that has frames is not that of a loop which has ended
  have hlive : ∀ {thread : ServerThread θ}, w.stack thread ≠ [] → ∀ loop, thread = .loop loop →
      (w.loops loop).exited = false := by
    intro thread hstack loop hthread
    by_contra hended
    apply hstack
    rw [hthread]
    exact h.exited loop (by simpa using hended)
  cases heffect with
  | acts thread hacts hexited => exact h.acts hacts hexited
  | exit loop hstack => exact h.exit hstack
  | @newConnection v sockfd hacts hstack hrunning hdestroyed =>
      have hv : Stopping v := h.acts hacts fun _ _ _ hempty => by rw [hstack, hempty]
      refine (hv.insertConnection config sockfd).acts
        (Acts.runInLoop (r := False) _ _ fun hremoves => by cases hremoves) ?_
      intro loop hloop hended
      cases hloop
      have hended' : (v.loops 0).exited = true := hended
      rw [hacts.exited_eq, hrunning] at hended'
      cases hended'
  | startPool thread left hstack hdestroyed =>
      have hpopped : Stopping (w.popFrame thread) :=
        h.acts_of_ne hstack (Acts.popFrame (r := False) w)
      have hmore : Stopping { w.popFrame thread with loopsStarted := w.loopsStarted + 1 } := by
        refine ⟨?_, ?_, hpopped.exited, hpopped.joined⟩
        · exact h.next.imp_right Nat.lt_succ_of_lt
        · exact fun conn hconn => (h.loopOf_le conn hconn).trans (Nat.le_succ _)
      refine hmore.acts (Acts.pushFrame (r := False) _ rfl rfl) ?_
      intro loop hthread hended
      exact absurd ((hlive hstack loop hthread).symm.trans hended) Bool.false_ne_true
  | @join v thread next hstack hacts hjoined =>
      have hv : Stopping v := h.acts_of_ne hstack hacts
      apply hv.pushJoin
      · intro loop hthread
        rw [hacts.exited_eq]
        exact hlive hstack loop hthread
      · intro loop hpos hlt
        rw [hacts.exited_eq]
        rcases hjoined loop hpos hlt with hended | ⟨other, hframe, hbefore⟩
        · exact hended
        · exact h.joined thread other hframe loop hpos hbefore
  | finish thread read write loop haction hframe hend =>
      have hne : w.stack thread ≠ [] := by
        intro hempty
        rw [hempty] at hframe
        cases hframe
      have hpopped : Stopping (w.popFrame thread) :=
        h.acts_of_ne hne (Acts.popFrame (r := False) w)
      exact ⟨hpopped.next, hpopped.loopOf_le, hpopped.exited, hpopped.joined⟩

end Stopping

/-! ### The server after its end -/

/-- Nothing on the main loop is about to call the server. -/
def NothingLeft (w : ThreadedServer θ) : Prop :=
  (∀ functor ∈ (w.loops 0).queue.waiting, functor.removes = false) ∧
    ∀ frame ∈ w.stack (.loop 0), frame.removes = false

/-- What a thread may go on with: the destructor does not end while something is left, and afterwards no
connection finds its peer gone. -/
def FrameLeavesNothing (w : ThreadedServer θ) (read : Except Errno (List Byte)) :
    Option ThreadFrame → Prop
  | some (.joinPool loop) => w.loopsStarted < loop → w.NothingLeft
  | some (.frame (.handleClose _)) => w.destroyed = false
  | some (.frame (.handleRead _)) => w.destroyed = true → read ≠ .ok []
  | _ => True

def LeavesNothing (w : ThreadedServer θ) : ThreadedAction θ → Prop
  | .frame thread read _ => w.FrameLeavesNothing read (w.stack thread).head?
  | _ => True

instance (w : ThreadedServer θ) : Decidable w.NothingLeft := inferInstanceAs (Decidable (_ ∧ _))

instance (w : ThreadedServer θ) (read : Except Errno (List Byte)) :
    (frame : Option ThreadFrame) → Decidable (w.FrameLeavesNothing read frame)
  | some (.joinPool _) => inferInstanceAs (Decidable (_ → _))
  | some (.frame (.handleClose _)) => inferInstanceAs (Decidable (_ = _))
  | some (.frame (.handleRead _)) => inferInstanceAs (Decidable (_ → _ ≠ _))
  | none | some (.frame (.handleError _)) | some (.frame (.handleWrite _))
  | some (.frame (.removeConnection _)) | some (.frame .userCode) | some (.send _ _)
  | some (.sendFile _ _ _ _) | some (.shutdown _) | some (.setState _) | some (.startPool _)
  | some .listen | some .destructor => isTrue trivial

instance (w : ThreadedServer θ) : (action : ThreadedAction θ) → Decidable (w.LeavesNothing action)
  | .frame _ read _ => inferInstanceAs (Decidable (w.FrameLeavesNothing read _))
  | .start _ | .send _ _ _ | .sendFile _ _ _ _ _ | .shutdown _ _ | .queueInLoop _ _
  | .destroyServer | .destroyItem _ | .poll _ _ | .dispatch _ _ | .doPendingFunctors _
  | .runFunctor _ _ | .endBatch _ | .exit _ | .destroy _ => isTrue trivial

structure Undisturbed (w : ThreadedServer θ) : Prop where
  log : ∀ entry ∈ w.log, entry.late = true → entry.execution.removes = false
  queue : w.destroyed = true →
    ∀ loop, ∀ functor ∈ (w.loops loop).queue.waiting, functor.removes = false
  stack : w.destroyed = true → ∀ thread, ∀ frame ∈ w.stack thread, frame.removes = false

omit [DecidableEq θ] in
theorem undisturbed_new : Undisturbed (new : ThreadedServer θ) where
  log entry hentry := by cases hentry
  queue hdestroyed := by cases hdestroyed
  stack hdestroyed := by cases hdestroyed

namespace Undisturbed

variable {w w' : ThreadedServer θ} {thread : ServerThread θ} {r : Prop}

omit [DecidableEq θ] in
theorem acts (h : Undisturbed w) (hacts : Acts thread r w w') (hr : w.destroyed = true → ¬r) :
    Undisturbed w' := by
  have hno : ∀ {b : Bool}, w.destroyed = true → (b = true → r) → b = false := by
    intro b hdestroyed himp
    exact Bool.eq_false_iff.mpr fun htrue => hr hdestroyed (himp htrue)
  refine ⟨?_, ?_, ?_⟩
  · intro entry hentry hlate
    rcases hacts.entry entry hentry with hold | ⟨hnow, hremoves⟩
    · exact h.log entry hold hlate
    · exact hno (hnow ▸ hlate) hremoves
  · intro hdestroyed loop functor hfunctor
    rw [hacts.destroyed_eq] at hdestroyed
    rcases hacts.functor loop functor hfunctor with hold | hremoves
    · exact h.queue hdestroyed loop functor hold
    · exact hno hdestroyed hremoves
  · intro hdestroyed other frame hframe
    rw [hacts.destroyed_eq] at hdestroyed
    by_cases heq : other = thread
    · rw [heq] at hframe
      rcases hacts.frame frame hframe with hold | ⟨-, hremoves⟩
      · exact h.stack hdestroyed thread frame hold
      · exact hno hdestroyed hremoves
    · rw [hacts.stack_eq other heq] at hframe
      exact h.stack hdestroyed other frame hframe

omit [DecidableEq θ] in
/-- What a step of a destroyed server would have to come from is not there. -/
theorem not_closing (h : Undisturbed w) {action : ThreadedAction θ} (hok : w.LeavesNothing action)
    (hdestroyed : w.destroyed = true) : ¬w.Closing action := by
  intro hclosing
  cases action with
  | frame thread read write =>
      simp only [Closing] at hclosing
      simp only [LeavesNothing] at hok
      split at hclosing
      · rename_i conn rest hstack
        rw [hstack] at hok
        exact absurd (hdestroyed.symm.trans hok) (by decide)
      · rename_i conn rest hstack
        have hframe := h.stack hdestroyed thread (.frame (.removeConnection conn))
          (by rw [hstack]; exact List.mem_cons_self)
        cases hframe
      · rename_i conn rest hstack
        rw [hstack] at hok
        exact hok hdestroyed hclosing
      · exact hclosing
  | runFunctor loop write =>
      simp only [Closing] at hclosing
      split at hclosing
      · rename_i functor rest htodo
        have hqueued := h.queue hdestroyed loop functor (Confined.mem_waiting_of_todo htodo)
        rw [hqueued] at hclosing
        cases hclosing
      · exact hclosing
  | _ => exact hclosing

omit [DecidableEq θ] in
/-- The step that ends the destructor: the sub loops have ended, and the main loop has nothing left. -/
theorem finish (h : Undisturbed w) (hconfined : Confined w) (hstopping : Stopping w) {loop : Nat}
    (hjoined : ∀ other, 0 < other → other < loop → (w.loops other).exited = true)
    (hend : w.loopsStarted < loop) (hleft : w.NothingLeft) :
    Undisturbed { w with destroyed := true } := by
  refine ⟨h.log, ?_, ?_⟩
  · intro _ index functor hfunctor
    by_cases hmain : index = 0
    · rw [hmain] at hfunctor
      exact hleft.1 functor hfunctor
    · have hfits := (hconfined.loops index).queued functor hfunctor
      rw [Bool.eq_false_iff]
      intro hremoves
      unfold LoopFunctor.removes at hremoves
      split at hremoves
      · exact hmain hfits.1
      · cases hremoves
  · intro _ thread frame hframe
    have hfits := hconfined.stacked thread frame hframe
    rw [Bool.eq_false_iff]
    intro hremoves
    have hremoves' := hremoves
    unfold ThreadFrame.removes at hremoves'
    split at hremoves'
    · rename_i conn
      obtain ⟨hconn, rfl⟩ := hfits
      have hle := hstopping.loopOf_le conn hconn
      by_cases hmain : w.loopOf conn = 0
      · have hmainFrame : ThreadFrame.frame (.removeConnection conn) ∈ w.stack (.loop 0) := by
          rw [← hmain]
          exact hframe
        rw [hleft.2 _ hmainFrame] at hremoves
        cases hremoves
      · -- the loop of the connection has ended, so its thread has no frames
        have hended := hjoined (w.loopOf conn) (by omega) (by omega)
        have hempty := hstopping.exited _ hended
        rw [show w.stack (.loop (w.placement.loopOf conn)) = [] from hempty] at hframe
        cases hframe
    · cases hremoves'

omit [DecidableEq θ] in
theorem insertConnection (h : Undisturbed w) (config : ServerConfig) (sockfd : Nat) :
    Undisturbed (w.insertConnection config thread sockfd) := by
  refine ⟨?_, h.queue, h.stack⟩
  intro entry hentry hlate
  rcases List.mem_append.mp hentry with hold | hnew
  · exact h.log entry hold hlate
  · obtain ⟨e, he, rfl⟩ := List.mem_map.mp hnew
    rcases List.mem_pair.mp he with rfl | rfl <;> rfl

omit [DecidableEq θ] in
theorem exit (h : Undisturbed w) (loop : Nat) :
    Undisturbed (w.modifyLoop loop fun l => { l with exited := true }) := by
  refine ⟨h.log, ?_, h.stack⟩
  intro hdestroyed other functor hfunctor
  apply h.queue hdestroyed other
  by_cases heq : other = loop
  · rw [heq, modifyLoop_loops_self] at hfunctor
    rw [heq]
    exact hfunctor
  · rwa [modifyLoop_loops_of_ne w heq] at hfunctor

theorem pushJoin (h : Undisturbed w) (next : Nat) :
    Undisturbed (w.pushFrames thread [.joinPool next]) := by
  refine ⟨h.log, h.queue, ?_⟩
  intro hdestroyed other frame hframe
  by_cases heq : other = thread
  · simp only [ThreadedServer.pushFrames, heq, Function.update_self] at hframe
    rcases List.mem_cons.mp hframe with rfl | hold
    · rfl
    · exact h.stack hdestroyed thread frame hold
  · simp only [ThreadedServer.pushFrames, Function.update_of_ne heq] at hframe
    exact h.stack hdestroyed other frame hframe

theorem effect {file : Nat → List Byte} {config : ServerConfig} {action : ThreadedAction θ}
    (h : Undisturbed w) (hconfined : Confined w) (hstopping : Stopping w)
    (hok : w.LeavesNothing action) (heffect : Effect file config w action w') :
    Undisturbed w' := by
  have hpop : ∀ thread, Undisturbed (w.popFrame thread) := by
    intro thread
    have hpopped : Acts thread False w (w.popFrame thread) := Acts.popFrame w
    exact h.acts hpopped fun _ => id
  cases heffect with
  | acts thread hacts hexited => exact h.acts hacts (h.not_closing hok)
  | exit loop hstack => exact h.exit loop
  | @newConnection v sockfd hacts hstack hrunning hdestroyed =>
      have hinserted : Undisturbed (v.insertConnection config (.loop 0) sockfd) :=
        (h.acts hacts fun _ => id).insertConnection config sockfd
      exact hinserted.acts (Acts.runInLoop (r := False) _ _ fun hremoves => by cases hremoves)
        fun _ => id
  | startPool thread left hstack hdestroyed =>
      have hmore : Undisturbed { w.popFrame thread with loopsStarted := w.loopsStarted + 1 } :=
        ⟨(hpop thread).log, (hpop thread).queue, (hpop thread).stack⟩
      exact hmore.acts (Acts.pushFrame (r := False) _ rfl rfl) fun _ => id
  | join thread next hstack hacts hjoined => exact (h.acts hacts fun _ => id).pushJoin next
  | finish thread read write loop haction hframe hend =>
      obtain ⟨rest, hstack⟩ : ∃ rest, w.stack thread = .joinPool loop :: rest :=
        List.head?_eq_some_iff.mp hframe
      have hleft : w.NothingLeft := by
        rw [haction, LeavesNothing, hframe] at hok
        exact hok hend
      have hmem : .joinPool loop ∈ w.stack thread := by
        rw [hstack]
        exact List.mem_cons_self
      have hpopped : Acts thread False w (w.popFrame thread) := Acts.popFrame w
      apply (hpop thread).finish (hconfined.popFrame thread) _ (hstopping.joined thread loop hmem)
        hend
      · refine ⟨hleft.1, ?_⟩
        intro frame hframe'
        by_cases heq : ServerThread.loop 0 = thread
        · rw [heq] at hframe'
          rcases hpopped.frame frame hframe' with hold | ⟨-, hremoves⟩
          · rw [← heq] at hold
            exact hleft.2 frame hold
          · exact Bool.eq_false_iff.mpr hremoves
        · rw [hpopped.stack_eq _ heq] at hframe'
          exact hleft.2 frame hframe'
      · exact hstopping.acts_of_ne (List.ne_nil_of_mem hmem) hpopped

end Undisturbed

/-! ### Runs -/

variable {file : Nat → List Byte} {config : ServerConfig} {numThreads : Nat}

/-- In a run whose steps leave nothing behind for a destroyed server, none of its functions that the
connections call is executed after its end. -/
theorem destroyed_undisturbed {w : ThreadedServer θ}
    (hreach : (system file config numThreads).ReachableUnder
      (fun w action => w.LeavesNothing action) w) :
    ∀ entry ∈ w.log, entry.late = true → ∀ conn,
      entry.execution ≠ .removeConnection conn ∧
        entry.execution ≠ .removeConnectionInLoop conn := by
  have hinv : Confined w ∧ Stopping w ∧ Undisturbed w := by
    apply hreach.invariant
    · rintro v rfl
      exact ⟨confined_new, stopping_new, undisturbed_new⟩
    · rintro v action v' ⟨hconfined, hstopping, hundisturbed⟩ hok hstep
      simp only [system, step] at hstep
      split at hstep
      · cases hstep
      · have heffect := effect_of_move hconfined hstep
        exact ⟨hconfined.move hstep, hstopping.effect heffect,
          hundisturbed.effect hconfined hstopping hok heffect⟩
  intro entry hentry hlate conn
  have hremoves := hinv.2.2.log entry hentry hlate
  constructor
  · intro heq
    rw [heq] at hremoves
    cases hremoves
  · intro heq
    rw [heq] at hremoves
    cases hremoves

/-- Without sub loops, a thread has sent to a connection that the destructor then takes down. The functor
is executed after the end of the server, and does not call it. -/
theorem destroyed_undisturbed_send :
    ∃ w : ThreadedServer Unit,
      (system (fun _ => []) Server.echoServer 0).exec new
        [.start (.loop 0), .frame (.loop 0) (.ok []) (.ok 0), .frame (.loop 0) (.ok []) (.ok 0),
          .frame (.loop 0) (.ok []) (.ok 0), .frame (.loop 0) (.ok []) (.ok 0), .poll 0 [.acceptor],
          .dispatch 0 (some 7), .send (.user ()) 0 [1], .frame (.user ()) (.ok []) (.ok 0),
          .destroyServer, .destroyItem 0, .frame (.loop 0) (.ok []) (.ok 0),
          .frame (.loop 0) (.ok []) (.ok 0), .frame (.loop 0) (.ok []) (.ok 0),
          .frame (.loop 0) (.ok []) (.ok 0), .doPendingFunctors 0, .runFunctor 0 (.ok 0)] = some w ∧
      ⟨.loop 0, .member 0 .sendInLoop, true⟩ ∈ w.log ∧
      ∀ entry ∈ w.log, entry.late = true → ∀ conn,
        entry.execution ≠ .removeConnection conn ∧
          entry.execution ≠ .removeConnectionInLoop conn := by
  apply System.exists_execUnder fun w action => w.LeavesNothing action
  · exact ⟨_, rfl, List.mem_of_getLast? rfl⟩
  · intro w hw _
    exact destroyed_undisturbed (System.reachableUnder_of_execUnder rfl hw)

/-- The peer of a connection of the sub loop closes it, the functor for `connections_` waits in the main
loop behind one of the user, and there the server is destroyed. -/
theorem removal_after_destruction :
    ∃ w : ThreadedServer Unit, (system (fun _ => []) Server.echoServer 1).Reachable w ∧
      ⟨.loop 0, .removeConnectionInLoop 0, true⟩ ∈ w.log := by
  have hlast : ((system (fun _ => []) Server.echoServer 1).exec (new : ThreadedServer Unit)
        [.start (.loop 0), .frame (.loop 0) (.ok []) (.ok 0), .frame (.loop 0) (.ok []) (.ok 0),
          .frame (.loop 0) (.ok []) (.ok 0), .frame (.loop 0) (.ok []) (.ok 0), .poll 0 [.acceptor],
          .dispatch 0 (some 7), .frame (.loop 1) (.ok []) (.ok 0), .poll 1 [.wakeup],
          .dispatch 1 none, .doPendingFunctors 1, .runFunctor 1 (.ok 0),
          .frame (.loop 1) (.ok []) (.ok 0), .endBatch 1, .poll 1 [.connection 0 EPOLLIN],
          .queueInLoop (.user ()) 0, .dispatch 1 none, .frame (.loop 1) (.ok []) (.ok 0),
          .frame (.loop 1) (.ok []) (.ok 0), .frame (.loop 1) (.ok []) (.ok 0),
          .doPendingFunctors 0, .runFunctor 0 (.ok 0), .destroyServer, .destroyItem 0,
          .frame (.loop 0) (.ok []) (.ok 0), .frame (.loop 0) (.ok []) (.ok 0),
          .doPendingFunctors 1, .runFunctor 1 (.ok 0), .endBatch 1, .exit 1,
          .frame (.loop 0) (.ok []) (.ok 0), .frame (.loop 0) (.ok []) (.ok 0),
          .frame (.loop 0) (.ok []) (.ok 0), .runFunctor 0 (.ok 0)]).map (·.log.getLast?)
      = some (some ⟨.loop 0, .removeConnectionInLoop 0, true⟩) := by
    decide +kernel
  obtain ⟨w, hw, hlog⟩ := Option.map_eq_some_iff.mp hlast
  exact ⟨w, System.reachable_of_exec rfl hw, List.mem_of_getLast? hlog⟩

end ThreadedServer

end MuduoCore
