import MuduoCore.TcpServer.Quiescent

/-!
# Nothing is used after its end

The functors of a queue and of the running batch hold their connections, and the events that a loop is
yet to handle are of registered channels. So no handler and no functor finds its connection destroyed.
-/

namespace MuduoCore

variable {n : ℕ}

/-- The loop is yet to call a member function of the connection. -/
def ServerLoop.Uses (l : ServerLoop) (conn : Nat) : Prop :=
  l.HasEvent conn ∨ .removeConnection conn ∈ l.stack ∨
    ∃ functor ∈ l.queue, functor.holds = some conn

namespace Server

/-- No connection has been used after its end, and those of the functors that wait have not ended. -/
structure Sheltered (w : Server n) : Prop where
  defined : w.undefined = false
  queued : ∀ loop, ∀ functor ∈ (w.loops loop).queue, ∀ conn ∈ functor.holds, w.alive conn = true

variable {config : ServerConfig} {file : Nat → List Byte} {w w' : Server n} {conn : Nat}
  {loop : Fin (n + 1)} {f : Session Nat → Session Nat} {g : ServerLoop → ServerLoop}

theorem Inv.alive_of_event (h : Inv config w) (hevent : (w.loops loop).HasEvent conn) :
    w.alive conn = true :=
  (h.live conn (.inl ((h.tracks loop conn).event hevent).2)).1

/-! ### Steps -/

theorem Sheltered.modifyLoop (h : w.Sheltered)
    (hqueue : ∀ functor ∈ (g (w.loops loop)).queue, ∀ conn ∈ functor.holds,
      functor ∈ (w.loops loop).queue ∨ w.alive conn = true) : (w.modifyLoop loop g).Sheltered := by
  refine ⟨h.defined, fun other functor hmem conn hholds => ?_⟩
  by_cases heq : other = loop
  · subst heq
    rw [modifyLoop_loops_self] at hmem
    rcases hqueue functor hmem conn hholds with hold | halive
    · exact h.queued other functor hold conn hholds
    · exact halive
  · rw [modifyLoop_loops_of_ne heq] at hmem
    exact h.queued other functor hmem conn hholds

theorem Sheltered.sameQueue (h : w.Sheltered)
    (hqueue : (g (w.loops loop)).queue = (w.loops loop).queue) : (w.modifyLoop loop g).Sheltered :=
  h.modifyLoop fun _ hmem _ _ => .inl (hqueue ▸ hmem)

theorem Sheltered.userCode (h : w.Sheltered) :
    (w.modifyLoop loop fun l => { l with stack := .userCode :: l.stack }).Sheltered :=
  h.sameQueue rfl

theorem Sheltered.push (h : w.Sheltered) {functor : ServerFunctor}
    (halive : ∀ conn ∈ functor.holds, w.alive conn = true) :
    (w.modifyLoop loop fun l => l.push functor).Sheltered := by
  refine h.modifyLoop fun other hmem conn hholds => ?_
  rcases (ServerLoop.mem_queue_push ..).mp hmem with hold | rfl
  · exact .inl hold
  · exact .inr (halive conn hholds)

/-- The functors that a member function queues hold its connection. -/
theorem Sheltered.onConnection (h : w.Sheltered) (halive : w.alive conn = true) :
    (w.onConnection conn f).Sheltered := by
  have hafter : (w.modifyLoop (w.loopOf conn) fun l => l.after conn (f (w.session conn))).Sheltered := by
    refine h.modifyLoop fun functor hmem other hholds => ?_
    rw [ServerLoop.queue, ServerLoop.after, List.append_assoc] at hmem
    rcases List.mem_append.mp hmem with hold | hmem
    · exact .inl (List.mem_append_left _ hold)
    · rcases List.mem_append.mp hmem with hnew | hold
      · obtain ⟨task, -, rfl⟩ := List.mem_map.mp hnew
        obtain rfl : conn = other := Option.some.inj hholds
        exact .inr halive
      · exact .inl (List.mem_append_right _ hold)
  exact ⟨h.defined, hafter.queued⟩

theorem Sheltered.removeConnectionInLoop (h : w.Sheltered) (halive : w.alive conn = true) :
    (w.removeConnectionInLoop conn).Sheltered := by
  have herased : ({ w with connections := Function.update w.connections (w.conns conn).name none } :
      Server n).Sheltered := ⟨h.defined, h.queued⟩
  exact herased.push fun other hholds => by
    obtain rfl : conn = other := Option.some.inj hholds
    exact halive

theorem Sheltered.newConnection (h : w.Sheltered) (sockfd : Nat) :
    (w.newConnection config sockfd).Sheltered := by
  have halive : (w.insertConnection config sockfd).alive w.accepted = true :=
    Function.update_self ..
  have hinserted : (w.insertConnection config sockfd).Sheltered := by
    refine ⟨h.defined, fun loop functor hmem conn hholds => ?_⟩
    by_cases heq : conn = w.accepted
    · rw [heq]
      exact halive
    · exact (Function.update_of_ne heq ..).trans (h.queued loop functor hmem conn hholds)
  simp only [Server.newConnection]
  split
  · exact hinserted.onConnection halive
  · exact hinserted.push fun other hholds => by
      obtain rfl : w.accepted = other := Option.some.inj hholds
      exact halive

theorem Sheltered.handleEvent (h : w.Sheltered) (hinv : Inv config w) {a : ActiveChannel}
    {rest : List ActiveChannel} (hactive : (w.loops loop).activeChannels = a :: rest)
    (accepted : Option Nat) :
    ((w.modifyLoop loop fun l => { l with activeChannels := rest }).handleEvent config loop accepted
      a).Sheltered := by
  have hpop : (w.modifyLoop loop fun l => { l with activeChannels := rest }).Sheltered :=
    h.sameQueue rfl
  cases a with
  | connection conn revents =>
    have hmem : .connection conn revents ∈ (w.loops loop).activeChannels := by
      rw [hactive]
      exact List.mem_cons_self
    have halive : w.alive conn = true := hinv.alive_of_event (.inl ⟨revents, hmem⟩)
    simp only [Server.handleEvent]
    split
    · exact hpop.sameQueue rfl
    · rename_i hdead
      exact absurd halive hdead
  | acceptor =>
    cases accepted with
    | none => exact hpop
    | some sockfd => exact hpop.newConnection sockfd
  | wakeup => exact hpop

theorem Sheltered.runFrame (h : w.Sheltered) (hinv : Inv config w) {frame : Frame}
    {rest : List Frame} (hstack : (w.loops loop).stack = frame :: rest)
    (read : Except Errno (List Byte)) (write : Except Errno Nat) :
    ((w.modifyLoop loop fun l => { l with stack := rest }).runFrame loop read write
      frame).Sheltered := by
  have hpop : (w.modifyLoop loop fun l => { l with stack := rest }).Sheltered := h.sameQueue rfl
  have hmem : frame ∈ (w.loops loop).stack := by
    rw [hstack]
    exact List.mem_cons_self
  have halive : ∀ conn, frame.event = some conn → w.alive conn = true := fun conn hevent =>
    hinv.alive_of_event (.inr ⟨frame, hmem, hevent⟩)
  cases frame with
  | removeConnection conn =>
    have hlive : w.alive conn = true := ((hinv.tracks loop conn).removing (.inl hmem)).1
    simp only [Server.runFrame, Server.removeConnection]
    split
    · exact hpop.removeConnectionInLoop hlive
    · exact hpop.push fun other hholds => by
        obtain rfl : conn = other := Option.some.inj hholds
        exact hlive
  | userCode => exact hpop
  | handleRead conn => exact hpop.onConnection (f := fun s => s.handleRead read) (halive conn rfl)
  | handleWrite conn => exact hpop.onConnection (f := fun s => s.handleWrite write) (halive conn rfl)
  | _ conn => exact hpop.onConnection (halive conn rfl)

theorem Sheltered.callFunctor (h : w.Sheltered) (file : Nat → List Byte) {functor : ServerFunctor}
    {rest : List ServerFunctor} (htodo : (w.loops loop).todo = functor :: rest)
    (write : Except Errno Nat) :
    ((w.modifyLoop loop fun l => { l with todo := rest }).callFunctor file loop write
      functor).Sheltered := by
  have hpop : (w.modifyLoop loop fun l => { l with todo := rest }).Sheltered :=
    h.modifyLoop fun functor hmem _ _ => .inl <| by
      rw [ServerLoop.queue, htodo]
      exact (List.mem_append.mp hmem).elim (List.mem_append_left _) fun hrest =>
        List.mem_append_right _ (List.mem_cons_of_mem _ hrest)
  have hmem : functor ∈ (w.loops loop).queue := by
    apply List.mem_append_right
    rw [htodo]
    exact List.mem_cons_self
  cases functor with
  | connectEstablished conn => exact hpop.onConnection (h.queued loop _ hmem conn rfl)
  | connectDestroyed conn => exact hpop.onConnection (h.queued loop _ hmem conn rfl)
  | removeConnectionInLoop conn =>
    exact hpop.removeConnectionInLoop (h.queued loop _ hmem conn rfl)
  | user => exact hpop.userCode
  | task conn task =>
    have halive : w.alive conn = true := h.queued loop _ hmem conn rfl
    cases task with
    | sendFileInLoop fileDescriptor offset count =>
      simp only [Server.callFunctor]
      split
      · exact hpop.onConnection halive
      · rename_i hdead
        exact absurd halive hdead
    | writeCompleteCallback => exact hpop.userCode
    | highWaterMarkCallback length => exact hpop.userCode

theorem Sheltered.move {action : ServerAction n} (h : w.Sheltered) (hinv : Inv config w)
    (hmove : w.move file config action = some w') : w'.Sheltered := by
  cases action with
  | dispatch loop accepted =>
    obtain ⟨a, rest, hactive, -, rfl⟩ := move_dispatch hmove
    exact h.handleEvent hinv hactive accepted
  | frame loop read write =>
    obtain ⟨frame, rest, hstack, rfl⟩ := move_frame hmove
    exact h.runFrame hinv hstack read write
  | runFunctor loop write =>
    obtain ⟨functor, rest, htodo, -, rfl⟩ := move_runFunctor hmove
    exact h.callFunctor file htodo write
  | doPendingFunctors loop =>
    obtain ⟨⟨hphase, -, -⟩, rfl⟩ := guarded_eq_some.mp hmove
    exact h.modifyLoop fun functor hmem _ _ => .inl (List.mem_append_left _ hmem)
  | send loop conn data write =>
    obtain ⟨⟨-, halive, -⟩, rfl⟩ := guarded_eq_some.mp hmove
    exact h.onConnection halive
  | sendFile loop conn fileDescriptor offset count write =>
    obtain ⟨⟨-, halive, -⟩, rfl⟩ := guarded_eq_some.mp hmove
    exact h.onConnection halive
  | shutdown loop conn =>
    obtain ⟨⟨-, halive, -⟩, rfl⟩ := guarded_eq_some.mp hmove
    exact h.onConnection halive
  | queueInLoop loop =>
    obtain rfl := Option.some.inj hmove
    exact h.push fun _ hholds => by cases hholds
  | drop conn =>
    obtain rfl := Option.some.inj hmove
    exact ⟨h.defined, h.queued⟩
  | hold conn =>
    obtain ⟨-, rfl⟩ := guarded_eq_some.mp hmove
    exact ⟨h.defined, h.queued⟩
  | _ =>
    obtain ⟨-, rfl⟩ := guarded_eq_some.mp hmove
    exact h.sameQueue rfl

/-- A functor that waits keeps its connection alive. -/
theorem Sheltered.reap (h : w.Sheltered) (hbatch : ∀ loop, (w.loops loop).InPhase) :
    w.reap.Sheltered := by
  refine ⟨h.defined, fun loop functor hmem conn hholds => ?_⟩
  have hqueued : functor ∈ (w.loops loop).pendingFunctors ++ (w.loops loop).functors :=
    (List.mem_append.mp hmem).elim (List.mem_append_left _) fun htodo =>
      List.mem_append_right _ ((hbatch loop).batch functor htodo)
  have hheld : w.held conn = true := by
    have hany : ((w.loops loop).pendingFunctors ++ (w.loops loop).functors).any
        (fun functor => functor.holds == some conn) = true :=
      List.any_eq_true.mpr ⟨functor, hqueued, beq_iff_eq.mpr hholds⟩
    have hloop : (w.loops loop).holds conn = true := by
      rw [ServerLoop.holds, hany, Bool.true_or, Bool.true_or]
    rw [held, decide_eq_true ⟨loop, hloop⟩, Bool.or_true, Bool.true_or]
  exact Bool.and_eq_true_iff.mpr ⟨h.queued loop functor hmem conn hholds, hheld⟩

/-! ### Runs -/

theorem sheltered_new : (new : Server n).Sheltered :=
  ⟨rfl, fun _ _ hmem => by cases hmem⟩

theorem step_sheltered {action : ServerAction n} (hinv : Inv config w) (h : w.Sheltered)
    (hstep : w.step file config action = some w') (hfew : w'.accepted < 2 ^ 31) :
    w'.Sheltered := by
  obtain ⟨u, hmove, rfl⟩ := step_eq_some hstep
  exact (h.move hinv hmove).reap (move_inv hinv hmove hfew).phase

theorem sheltered_of_reachable (hreach : (system file config).Reachable w)
    (hfew : w.accepted < 2 ^ 31) : Inv config w ∧ w.Sheltered := by
  refine hreach.invariant (I := fun v => v.accepted < 2 ^ 31 → Inv config v ∧ v.Sheltered) ?_ ?_ hfew
  · rintro v rfl -
    exact ⟨inv_new config, sheltered_new⟩
  · rintro v action v' hinv - hstep hfew'
    obtain ⟨hbefore, hsheltered⟩ := hinv ((accepted_le_step hstep).trans_lt hfew')
    exact ⟨step_inv (fun _ => hbefore) hstep hfew',
      step_sheltered hbefore hsheltered hstep hfew'⟩

/-- **Nothing is used after its end.** In every state of every run with fewer than `2 ^ 31` accepted
connections, no connection has been used after its destruction, and every connection for which a loop
has an event, a handler or a functor left has not been destroyed. -/
theorem nothing_used_after_end (file : Nat → List Byte) {w : Server n}
    (hreach : (system file config).Reachable w) (hfew : w.accepted < 2 ^ 31) :
    w.undefined = false ∧
      ∀ loop conn, (w.loops loop).Uses conn → w.alive conn = true ∧ conn < w.accepted := by
  obtain ⟨hinv, hsheltered⟩ := sheltered_of_reachable hreach hfew
  refine ⟨hsheltered.defined, fun loop conn huses => ?_⟩
  have halive : w.alive conn = true := by
    rcases huses with hevent | hframe | ⟨functor, hmem, hholds⟩
    · exact hinv.alive_of_event hevent
    · exact ((hinv.tracks loop conn).removing (.inl hframe)).1
    · exact hsheltered.queued loop functor hmem conn hholds
  exact ⟨halive, hinv.created conn halive⟩

/-- A closed connection whose `connectDestroyed` waits; nothing else holds it. -/
theorem nothing_used_after_end_hangup :
    ∃ w : Server 0,
      (system (fun _ => []) echoServer).exec new
        [.poll 0 [.acceptor], .dispatch 0 (some 7), .frame 0 (.ok []) (.ok 0),
          .doPendingFunctors 0, .endBatch 0, .poll 0 [.connection 0 EPOLLHUP], .dispatch 0 none,
          .frame 0 (.ok []) (.ok 0), .frame 0 (.ok []) (.ok 0), .frame 0 (.ok []) (.ok 0),
          .handled 0] = some w ∧
      w.connections (w.conns 0).name = none ∧ w.undefined = false ∧ w.alive 0 = true := by
  obtain ⟨w, hw, hfew, hgone, hqueue⟩ : ∃ w : Server 0,
      (system (fun _ => []) echoServer).exec new
        [.poll 0 [.acceptor], .dispatch 0 (some 7), .frame 0 (.ok []) (.ok 0),
          .doPendingFunctors 0, .endBatch 0, .poll 0 [.connection 0 EPOLLHUP], .dispatch 0 none,
          .frame 0 (.ok []) (.ok 0), .frame 0 (.ok []) (.ok 0), .frame 0 (.ok []) (.ok 0),
          .handled 0] = some w ∧
      w.accepted < 2 ^ 31 ∧ w.connections (w.conns 0).name = none ∧
      (w.loops 0).queue = [.connectDestroyed 0] := ⟨_, rfl, by decide, rfl, rfl⟩
  obtain ⟨hdefined, halive⟩ := nothing_used_after_end _ (System.reachable_of_exec rfl hw) hfew
  have hmem : .connectDestroyed 0 ∈ (w.loops 0).queue := by
    rw [hqueue]
    exact List.mem_cons_self
  exact ⟨w, hw, hgone, hdefined, (halive 0 0 (.inr (.inr ⟨_, hmem, rfl⟩))).1⟩

end Server

end MuduoCore
