import MuduoCore.TcpServer.Handshake

/-!
# Quiescent servers

When no loop has a functor left to call or an event left to handle, every connection is up and
registered or gone from all tables. That `connectEstablished` has run once is a matter of counting: a
connection that has been accepted stands in the queue of its loop, or has been established.
-/

namespace MuduoCore

variable {n : ℕ} {config : ServerConfig}

namespace Server

/-- The connections whose `connectEstablished` is called in the step. -/
def established (w : Server n) (action : ServerAction n) (_ : Server n) : List Nat :=
  match action with
  | .dispatch loop (some _) =>
      match (w.loops loop).activeChannels with
      | .acceptor :: _ => if w.getNextLoop.1.val = 0 then [w.accepted] else []
      | _ => []
  | .runFunctor loop _ =>
      match (w.loops loop).todo with
      | .connectEstablished conn :: _ => [conn]
      | _ => []
  | _ => []

/-- How often `connectEstablished` waits for the connection to be called. -/
def awaiting (w : Server n) (conn : Nat) : ℕ :=
  (w.loops (w.loopOf conn)).queue.count (.connectEstablished conn)

def admitted (w : Server n) (conn : Nat) : ℕ := if conn < w.accepted then 1 else 0

/-- No loop has a pending functor or is dispatching. -/
def Quiescent (w : Server n) : Prop :=
  ∀ loop, (w.loops loop).queue = [] ∧ (w.loops loop).phase ≠ .dispatching

instance (w : Server n) : Decidable w.Quiescent :=
  inferInstanceAs (Decidable (∀ _, _ ∧ _))

/-- Established: `calls` are the calls of `connectEstablished` so far. -/
structure IsEstablished (w : Server n) (calls : List Nat) (conn : Nat) : Prop where
  once : calls.count conn = 1
  state_eq : w.state conn = .kConnected ∨ w.state conn = .kDisconnecting
  mapped : w.connections (w.conns conn).name = some conn
  channels : (w.loops (w.loopOf conn)).poller.channels (w.channel conn).fd = some conn
  epollfd : ((w.loops (w.loopOf conn)).poller.epollfd (w.channel conn).fd).map (·.ptr) = some conn

structure IsClosed (w : Server n) (conn : Nat) : Prop where
  called : .closeCallback ∈ (w.conns conn).trace
  unmapped : ∀ name, w.connections name ≠ some conn
  channels : ∀ loop fd, (w.loops loop).poller.channels fd ≠ some conn
  epollfd : ∀ loop fd, ((w.loops loop).poller.epollfd fd).map (·.ptr) ≠ some conn

variable {w w' : Server n} {loop : Fin (n + 1)} {conn other : Nat}
  {f : Session Nat → Session Nat} {g : ServerLoop → ServerLoop}

/-! ### The functors that wait -/

theorem awaiting_modifyLoop
    (hcount : (g (w.loops loop)).queue.count (.connectEstablished conn)
      = (w.loops loop).queue.count (.connectEstablished conn)) :
    (w.modifyLoop loop g).awaiting conn = w.awaiting conn := by
  change ((w.modifyLoop loop g).loops (w.loopOf conn)).queue.count _ = _
  by_cases heq : w.loopOf conn = loop
  · rw [heq, modifyLoop_loops_self, hcount, ← heq]
    rfl
  · rw [modifyLoop_loops_of_ne heq]
    rfl

theorem awaiting_push {functor : ServerFunctor} (hne : functor ≠ .connectEstablished conn) :
    (w.modifyLoop loop fun l => l.push functor).awaiting conn = w.awaiting conn := by
  apply awaiting_modifyLoop
  rw [ServerLoop.count_queue_push, if_neg hne, Nat.add_zero]

theorem awaiting_onConnection :
    (w.onConnection other f).awaiting conn = w.awaiting conn := by
  rw [awaiting, loopOf, onConnection_loop, count_queue_onConnection]
  rfl

theorem awaiting_removeConnectionInLoop :
    (w.removeConnectionInLoop other).awaiting conn = w.awaiting conn :=
  awaiting_push (w := { w with
    connections := Function.update w.connections (w.conns other).name none }) (by simp)

theorem awaiting_runFrame (read : Except Errno (List Byte)) (write : Except Errno Nat)
    (frame : Frame) : (w.runFrame loop read write frame).awaiting conn = w.awaiting conn := by
  cases frame with
  | removeConnection other =>
      simp only [runFrame, removeConnection]
      split
      · exact awaiting_removeConnectionInLoop
      · exact awaiting_push (by simp)
  | userCode => rfl
  | _ =>
      simp only [runFrame]
      exact awaiting_onConnection

theorem awaiting_callFunctor (file : Nat → List Byte) (write : Except Errno Nat)
    (functor : ServerFunctor) :
    (w.callFunctor file loop write functor).awaiting conn = w.awaiting conn := by
  have huser : (w.modifyLoop loop fun l => { l with stack := .userCode :: l.stack }).awaiting conn
      = w.awaiting conn := by
    apply awaiting_modifyLoop
    rfl
  cases functor with
  | connectEstablished other => exact awaiting_onConnection
  | connectDestroyed other => exact awaiting_onConnection
  | removeConnectionInLoop other => exact awaiting_removeConnectionInLoop
  | task other task =>
      cases task with
      | sendFileInLoop fileDescriptor offset count =>
          simp only [callFunctor]
          split
          · exact awaiting_onConnection
          · rfl
      | _ => exact huser
  | user => exact huser

/-- A functor that is called waits no more; it waited in the loop of its connection. -/
theorem awaiting_todo (hinv : Inv config w) {functor : ServerFunctor} {rest : List ServerFunctor}
    (htodo : (w.loops loop).todo = functor :: rest) (conn : Nat) :
    (w.modifyLoop loop fun l => { l with todo := rest }).awaiting conn
      + (if functor = .connectEstablished conn then 1 else 0) = w.awaiting conn := by
  have hcount : (w.loops loop).queue.count (.connectEstablished conn)
      = (ServerLoop.queue { w.loops loop with todo := rest }).count (.connectEstablished conn)
        + if functor = .connectEstablished conn then 1 else 0 := by
    simp only [ServerLoop.queue, htodo, List.count_append, List.count_cons, beq_iff_eq]
    omega
  by_cases heq : functor = .connectEstablished conn
  · subst heq
    have hmem : .connectEstablished conn ∈ (w.loops loop).queue := by
      apply List.mem_append_right _
      rw [htodo]
      exact List.mem_cons_self
    obtain ⟨rfl, -⟩ := (hinv.tracks loop conn).establishing hmem
    rw [awaiting, awaiting, hcount]
    change ((w.modifyLoop (w.loopOf conn) _).loops (w.loopOf conn)).queue.count _ + _ = _
    rw [modifyLoop_loops_self]
  · rw [if_neg heq] at hcount ⊢
    exact awaiting_modifyLoop hcount.symm

theorem awaiting_accepted (hinv : Inv config w) : w.awaiting w.accepted = 0 :=
  List.count_eq_zero.mpr (hinv.not_establishing_accepted _)

/-- A new connection waits for its `connectEstablished`, unless it belongs to the main loop. -/
theorem awaiting_newConnection (hinv : Inv config w) (sockfd : Nat) :
    (if w.getNextLoop.1 = 0 then [w.accepted] else []).count conn
        + (w.newConnection config sockfd).awaiting conn
      = w.awaiting conn + if conn = w.accepted then 1 else 0 := by
  have hinserted : (w.insertConnection config sockfd).awaiting conn = w.awaiting conn := by
    by_cases heq : conn = w.accepted
    · rw [heq, awaiting_accepted hinv]
      exact List.count_eq_zero.mpr (hinv.not_establishing_accepted _)
    · rw [awaiting, loopOf, insertConnection_conns_of_ne config sockfd heq]
      rfl
  simp only [newConnection]
  split
  · rw [awaiting_onConnection, hinserted, Nat.add_comm]
    congr 1
    by_cases heq : conn = w.accepted
    · rw [heq, if_pos rfl, List.count_singleton_self]
    · rw [if_neg heq, List.count_eq_zero]
      exact fun hmem => heq (List.mem_singleton.mp hmem)
  · rw [List.count_nil, Nat.zero_add]
    by_cases heq : conn = w.accepted
    · subst heq
      rw [if_pos rfl, ← hinserted]
      change ((Server.modifyLoop _ _ _).loops ((w.insertConnection config sockfd).loopOf _)).queue.count
        _ = ((w.insertConnection config sockfd).loops
          ((w.insertConnection config sockfd).loopOf _)).queue.count _ + 1
      rw [loopOf, insertConnection_conns_self, modifyLoop_loops_self, ServerLoop.count_queue_push,
        if_pos rfl]
    · refine (awaiting_push ?_).trans (hinserted.trans (by rw [if_neg heq, Nat.add_zero]))
      intro hfunctor
      exact heq (ServerFunctor.connectEstablished.inj hfunctor).symm

theorem admitted_newConnection (config : ServerConfig) (w : Server n) (sockfd conn : Nat) :
    (w.newConnection config sockfd).admitted conn
      = w.admitted conn + if conn = w.accepted then 1 else 0 := by
  have haccepted : (w.newConnection config sockfd).accepted = w.accepted + 1 := by
    simp only [newConnection]
    split <;> rfl
  simp only [admitted, haccepted]
  split_ifs <;> omega

theorem awaiting_handleEvent {active : ActiveChannel} (hne : active ≠ .acceptor)
    (accepted : Option Nat) :
    (w.handleEvent config loop accepted active).awaiting conn = w.awaiting conn ∧
      (w.handleEvent config loop accepted active).accepted = w.accepted := by
  cases active with
  | connection other revents =>
      simp only [handleEvent]
      split
      · refine ⟨awaiting_modifyLoop ?_, rfl⟩
        rfl
      · exact ⟨rfl, rfl⟩
  | acceptor => exact absurd rfl hne
  | wakeup => exact ⟨rfl, rfl⟩

/-! ### Runs -/

theorem established_dispatch_of_ne {active : ActiveChannel} {rest : List ActiveChannel}
    {accepted : Option Nat} (hactive : (w.loops loop).activeChannels = active :: rest)
    (hne : active ≠ .acceptor) : w.established (.dispatch loop accepted) w' = [] := by
  cases accepted with
  | none => rfl
  | some sockfd =>
      cases active with
      | acceptor => exact absurd rfl hne
      | _ => simp only [established, hactive]

theorem count_established_runFunctor {functor : ServerFunctor} {rest : List ServerFunctor}
    (htodo : (w.loops loop).todo = functor :: rest) (write : Except Errno Nat) :
    (w.established (.runFunctor loop write) w').count conn
      = if functor = .connectEstablished conn then 1 else 0 := by
  cases functor <;> simp [established, htodo, List.count_singleton]

/-- Each accepted connection waits for its `connectEstablished` until that is called. -/
theorem move_established {file : Nat → List Byte} {action : ServerAction n} (hinv : Inv config w)
    (hmove : w.move file config action = some w') (conn : Nat) :
    (w.established action w').count conn + w'.awaiting conn + w.admitted conn
      = w.awaiting conn + w'.admitted conn := by
  have hquiet : w'.awaiting conn = w.awaiting conn → w'.accepted = w.accepted →
      w.established action w' = [] →
      (w.established action w').count conn + w'.awaiting conn + w.admitted conn
        = w.awaiting conn + w'.admitted conn := by
    intro hawaiting haccepted hnone
    rw [hnone, hawaiting, admitted, admitted, haccepted, List.count_nil, Nat.zero_add]
  cases action with
  | dispatch loop accepted =>
      obtain ⟨active, rest, hactive, -, rfl⟩ := move_dispatch hmove
      set popped : Server n := w.modifyLoop loop fun l => { l with activeChannels := rest }
      have hpop : popped.awaiting conn = w.awaiting conn := by
        apply awaiting_modifyLoop
        rfl
      by_cases hne : active = .acceptor
      · subst hne
        cases accepted with
        | none => exact hquiet hpop rfl rfl
        | some sockfd =>
            have hshrinks := ServerLoop.shrinks_activeChannels hactive
            have hinv' : Inv config popped :=
              hinv.shrinks hshrinks (hshrinks.inPhase (hinv.phase loop) rfl rfl rfl) fun _ _ => id
            have hcount : (if w.getNextLoop.1 = 0 then [w.accepted] else []).count conn
                + (popped.newConnection config sockfd).awaiting conn
                = w.awaiting conn + if conn = w.accepted then 1 else 0 := by
              rw [← hpop]
              exact awaiting_newConnection hinv' sockfd
            have hadmitted : (popped.newConnection config sockfd).admitted conn
                = w.admitted conn + if conn = w.accepted then 1 else 0 :=
              admitted_newConnection config popped sockfd conn
            simp only [established, hactive, Fin.val_eq_zero_iff]
            change _ + (popped.newConnection config sockfd).awaiting conn + _
              = _ + (popped.newConnection config sockfd).admitted conn
            omega
      · obtain ⟨hawaiting, haccepted⟩ : (popped.handleEvent config loop accepted active).awaiting conn
            = popped.awaiting conn ∧ _ := awaiting_handleEvent hne accepted
        exact hquiet (hawaiting.trans hpop) haccepted (established_dispatch_of_ne hactive hne)
  | frame loop read write =>
      obtain ⟨frame, rest, -, rfl⟩ := move_frame hmove
      refine hquiet ?_ (accepted_runFrame (w := w.modifyLoop loop _) read write frame) rfl
      rw [awaiting_runFrame]
      apply awaiting_modifyLoop
      rfl
  | doPendingFunctors loop =>
      obtain ⟨⟨hphase, -⟩, rfl⟩ := guarded_eq_some.mp hmove
      have htodo := (hinv.phase loop).calling (by rw [hphase]; decide)
      refine hquiet (awaiting_modifyLoop ?_) rfl rfl
      rw [ServerLoop.queue, ServerLoop.queue, htodo, List.append_nil, List.nil_append]
  | runFunctor loop write =>
      obtain ⟨functor, rest, htodo, -, rfl⟩ := move_runFunctor hmove
      have hcount := awaiting_todo hinv htodo conn
      have haccepted : admitted (callFunctor file (w.modifyLoop loop fun l => { l with todo := rest })
          loop write functor) conn = w.admitted conn := by
        rw [admitted, accepted_callFunctor]
        rfl
      rw [count_established_runFunctor htodo, awaiting_callFunctor, haccepted]
      omega
  | send loop other data write =>
      obtain ⟨-, rfl⟩ := guarded_eq_some.mp hmove
      exact hquiet awaiting_onConnection rfl rfl
  | sendFile loop other fileDescriptor offset count write =>
      obtain ⟨-, rfl⟩ := guarded_eq_some.mp hmove
      exact hquiet awaiting_onConnection rfl rfl
  | shutdown loop other =>
      obtain ⟨-, rfl⟩ := guarded_eq_some.mp hmove
      exact hquiet awaiting_onConnection rfl rfl
  | queueInLoop loop =>
      obtain rfl := Option.some.inj hmove
      exact hquiet (awaiting_push (by simp)) rfl rfl
  | drop other =>
      obtain rfl := Option.some.inj hmove
      exact hquiet rfl rfl rfl
  | hold other =>
      obtain ⟨-, rfl⟩ := guarded_eq_some.mp hmove
      exact hquiet rfl rfl rfl
  | _ =>
      obtain ⟨-, rfl⟩ := guarded_eq_some.mp hmove
      refine hquiet (awaiting_modifyLoop ?_) rfl rfl
      rfl

theorem step_established {file : Nat → List Byte} {action : ServerAction n} (hinv : Inv config w)
    (hstep : w.step file config action = some w') (conn : Nat) :
    (w.established action w').count conn + w'.awaiting conn + w.admitted conn
      = w.awaiting conn + w'.admitted conn := by
  obtain ⟨v, hmove, rfl⟩ := step_eq_some hstep
  have hmoved := move_established hinv hmove conn
  exact hmoved

theorem step_handshake {file : Nat → List Byte} {action : ServerAction n} (hinv : Inv config w)
    (h : w.Handshake) (hstep : w.step file config action = some w') (hfew : w'.accepted < 2 ^ 31) :
    w'.Handshake := by
  obtain ⟨v, hmove, rfl⟩ := step_eq_some hstep
  exact (move_handshake hinv h hmove hfew).reap

theorem accepted_le_step {file : Nat → List Byte} {action : ServerAction n}
    (hstep : w.step file config action = some w') : w.accepted ≤ w'.accepted := by
  obtain ⟨v, hmove, rfl⟩ := step_eq_some hstep
  have hle := accepted_le_move hmove
  exact hle

theorem handshake_new : (new : Server n).Handshake where
  named _ _ hentry := by cases hentry
  framed _ _ hmem := by cases hmem
  settled conn := by
    have hremoving : ¬(new : Server n).Removing conn := by
      rintro ⟨loop, hmem | hmem | hmem⟩ <;> cases hmem
    refine ⟨fun hlt => absurd hlt (Nat.not_lt_zero _), fun hstate => ?_,
      fun hlt => absurd hlt (Nat.not_lt_zero _), ?_, fun hlt => absurd hlt (Nat.not_lt_zero _),
      fun hpending => absurd hpending hremoving,
      fun ⟨loop, hmem⟩ => absurd ⟨loop, .inr (.inr hmem)⟩ hremoving⟩
    · cases hstate
    · rintro (hstate | hstate) <;> cases hstate

/-- `calls` are the calls of `connectEstablished` so far. -/
abbrev establishing (file : Nat → List Byte) (config : ServerConfig) :
    System (Server n × List Nat) (ServerAction n) :=
  (system file config).recording established

theorem handshake_of_reachable {file : Nat → List Byte} {calls : List Nat}
    (hreach : (establishing file config).Reachable (w, calls)) (hfew : w.accepted < 2 ^ 31) :
    Inv config w ∧ w.Handshake ∧ ∀ conn, calls.count conn + w.awaiting conn = w.admitted conn := by
  refine hreach.invariant (I := fun v => v.1.accepted < 2 ^ 31 → Inv config v.1 ∧ v.1.Handshake ∧
    ∀ conn, v.2.count conn + v.1.awaiting conn = v.1.admitted conn) ?_ ?_ hfew
  · rintro ⟨v, past⟩ ⟨rfl, rfl⟩ -
    exact ⟨inv_new config, handshake_new, fun _ => rfl⟩
  · rintro ⟨v, past⟩ action ⟨v', past'⟩ h - hstep hfew'
    obtain ⟨hnext, hpast⟩ := System.recording_step hstep
    obtain ⟨hinv, hhandshake, hcount⟩ := h ((accepted_le_step hnext).trans_lt hfew')
    refine ⟨step_inv (fun _ => hinv) hnext hfew', step_handshake hinv hhandshake hnext hfew', ?_⟩
    intro conn
    have hestablished : (v.established action v').count conn + v'.awaiting conn + v.admitted conn
      = v.awaiting conn + v'.admitted conn := step_established hinv hnext conn
    have hbefore : past.count conn + v.awaiting conn = v.admitted conn := hcount conn
    change past'.count conn + v'.awaiting conn = v'.admitted conn
    rw [show past' = past ++ v.established action v' from hpast, List.count_append]
    omega

/-! ### Quiescent states -/

theorem not_removing_of_quiescent (h : w.Handshake) (hquiet : w.Quiescent) : ¬w.Removing conn := by
  rintro ⟨loop, hframe | hqueued⟩
  · exact (hquiet loop).2 (h.framed loop conn hframe)
  · rw [(hquiet loop).1] at hqueued
    obtain hmem | hmem := hqueued <;> cases hmem

theorem isEstablished_of_up (hinv : Inv config w) (h : w.Settled conn) {calls : List Nat}
    (hconn : conn < w.accepted) (honce : calls.count conn = 1)
    (hup : w.state conn = .kConnected ∨ w.state conn = .kDisconnecting) :
    w.IsEstablished calls conn := by
  have hchannel : w.channelOn (w.loopOf conn) conn = w.channel conn := if_pos rfl
  have hadded := (h.up hup).index_eq
  have hcoherent := hinv.coherent (w.loopOf conn)
  have hchannels := hcoherent.mapped conn
  have hregistered := hcoherent.registered conn
  rw [hchannel] at hchannels hregistered
  refine ⟨honce, hup, h.mapped hconn ?_, hchannels (by rw [hadded]; decide), ?_⟩
  · obtain hstate | hstate := hup <;> rw [hstate] <;> decide
  · rw [hregistered hadded]
    rfl

theorem isClosed_of_down (hinv : Inv config w) (hnamed : w.Named)
    (hcalled : .closeCallback ∈ (w.conns conn).trace) (hnew : (w.channel conn).index = .kNew)
    (hunmapped : ¬w.Mapped conn) : w.IsClosed conn := by
  have hindex : ∀ loop, (w.channelOn loop conn).index = .kNew := by
    intro loop
    rw [channelOn]
    split
    · exact hnew
    · rfl
  refine ⟨hcalled, ?_, ?_, ?_⟩
  · intro name hentry
    apply hunmapped
    rw [Mapped, (hnamed name conn hentry).2]
    exact hentry
  · intro loop fd hentry
    exact ((hinv.coherent loop).mapped_owner fd conn hentry).2 (hindex loop)
  · intro loop fd hentry
    obtain ⟨event, hset, rfl⟩ := Option.map_eq_some_iff.mp hentry
    have hadded := ((hinv.coherent loop).owner fd event hset).2
    rw [hindex loop] at hadded
    cases hadded

/-- **The close handshake leaves nothing behind.** In every state of every run with fewer than
`2 ^ 31` accepted connections in which no loop has a pending functor or is dispatching, each accepted
connection is established, or it is closed and gone from all tables. -/
theorem established_or_closed (file : Nat → List Byte) (config : ServerConfig) {w : Server n}
    {calls : List Nat} (hreach : (establishing file config).Reachable (w, calls))
    (hfew : w.accepted < 2 ^ 31) (hquiet : w.Quiescent) :
    ∀ conn < w.accepted, w.IsEstablished calls conn ∨ w.IsClosed conn := by
  obtain ⟨hinv, hhandshake, hcount⟩ := handshake_of_reachable hreach hfew
  intro conn hconn
  have hsettled := hhandshake.settled conn
  have honce : calls.count conn = 1 := by
    have hone := hcount conn
    rw [awaiting, (hquiet _).1, admitted, if_pos hconn] at hone
    simpa using hone
  cases hstate : w.state conn with
  | kConnecting =>
      have hmem := (hsettled.connecting hstate).1
      rw [Establishing, (hquiet _).1] at hmem
      cases hmem
  | kConnected => exact .inl (isEstablished_of_up hinv hsettled hconn honce (.inl hstate))
  | kDisconnecting => exact .inl (isEstablished_of_up hinv hsettled hconn honce (.inr hstate))
  | kDisconnected =>
      obtain ⟨hcalled, hrest⟩ := hsettled.down hconn hstate
      obtain ⟨hnew, hunmapped⟩ :=
        hrest.resolve_left (not_removing_of_quiescent hhandshake hquiet)
      exact .inr (isClosed_of_down hinv hhandshake.named hcalled hnew hunmapped)

/-- Two connections of a sub loop, one of which the peer closes. -/
def oneHangup : List (ServerAction 1) :=
  [.poll 0 [.acceptor, .acceptor], .dispatch 0 (some 7), .dispatch 0 (some 8),
    .doPendingFunctors 0, .endBatch 0,
    .poll 1 [.wakeup], .dispatch 1 none, .doPendingFunctors 1, .runFunctor 1 (.ok 0),
    .frame 1 (.ok []) (.ok 0), .runFunctor 1 (.ok 0), .frame 1 (.ok []) (.ok 0), .endBatch 1,
    -- `handleClose`, the user's callback and `closeCallback_`
    .poll 1 [.connection 0 EPOLLHUP], .dispatch 1 none, .frame 1 (.ok []) (.ok 0),
    .frame 1 (.ok []) (.ok 0), .frame 1 (.ok []) (.ok 0), .handled 1, .doPendingFunctors 1,
    .endBatch 1,
    .poll 0 [.wakeup], .dispatch 0 none, .doPendingFunctors 0, .runFunctor 0 (.ok 0), .endBatch 0,
    .poll 1 [.wakeup], .dispatch 1 none, .doPendingFunctors 1, .runFunctor 1 (.ok 0), .endBatch 1]

theorem established_or_closed_oneHangup :
    ∃ (w : Server 1) (calls : List Nat),
      (establishing (fun _ => []) echoServer).exec (new, []) oneHangup = some (w, calls) ∧
      w.accepted = 2 ∧ w.state 0 = .kDisconnected ∧ w.state 1 = .kConnected ∧
      ∀ conn < w.accepted, w.IsEstablished calls conn ∨ w.IsClosed conn := by
  obtain ⟨w, calls, hexec, hquiet, haccepted, hdown, hup⟩ : ∃ (w : Server 1) (calls : List Nat),
      (establishing (fun _ => []) echoServer).exec (new, []) oneHangup = some (w, calls) ∧
      w.Quiescent ∧ w.accepted = 2 ∧ w.state 0 = .kDisconnected ∧ w.state 1 = .kConnected :=
    ⟨_, _, rfl, by decide, rfl, rfl, rfl⟩
  have hreach : (establishing (fun _ => []) echoServer).Reachable (w, calls) :=
    System.reachable_of_exec (s := (new, [])) ⟨rfl, rfl⟩ hexec
  have hfew : w.accepted < 2 ^ 31 := by
    rw [haccepted]
    decide
  exact ⟨w, calls, hexec, haccepted, hdown, hup,
    established_or_closed _ echoServer hreach hfew hquiet⟩

end Server

end MuduoCore
