import Mathlib.Algebra.BigOperators.Ring.Finset
import Mathlib.Algebra.Order.Ring.Nat
import MuduoCore.Lib.Descent
import MuduoCore.TcpServer.Sheltered
import MuduoCore.TcpServer.Stacks

/-!
# Servers left to themselves

When no more connections, events and calls of the user come in, the loops come to rest: every step of
theirs uses up some of the work that is left, and a loop that has work left can go on. At rest every
connection is up, or it is closed, gone from all tables and destroyed.
-/

namespace MuduoCore

variable {n : ℕ}

open scoped BigOperators

/-! ### What is left to do -/

/-- The steps that it takes to call the functor and all that comes of it. -/
def ServerFunctor.work : ServerFunctor → ℕ
  | removeConnectionInLoop _ => 7
  | connectEstablished _ | connectDestroyed _ | task _ _ | user => 2

def Frame.work : Frame → ℕ
  | handleClose _ | handleRead _ => 14
  | handleError _ | userCode => 1
  | handleWrite _ => 7
  | removeConnection _ => 12

def ActiveChannel.work : ActiveChannel → ℕ
  | connection _ _ => 38
  | acceptor | wakeup => 1

namespace ServerLoop

/-- The way to the next `poll` that finds no functor waiting. -/
def turnWork (l : ServerLoop) : ℕ :=
  match l.phase with
  | .polling => if l.pendingFunctors.isEmpty then 0 else 4
  | .dispatching => 2
  | .calling => if l.pendingFunctors.isEmpty then 1 else 5

def queueWork (l : ServerLoop) : ℕ := (l.queue.map ServerFunctor.work).sum

def stackWork (l : ServerLoop) : ℕ := (l.stack.map Frame.work).sum

def eventWork (l : ServerLoop) : ℕ :=
  (l.activeChannels.map ActiveChannel.work).sum + l.guard.elim 0 fun _ => 1

def work (l : ServerLoop) : ℕ := l.turnWork + l.queueWork + l.stackWork + l.eventWork

theorem turnWork_push (l : ServerLoop) (functors : List ServerFunctor) :
    ({ l with pendingFunctors := l.pendingFunctors ++ functors } : ServerLoop).turnWork
      ≤ l.turnWork + 4 * functors.length := by
  cases functors with
  | nil => simp [turnWork]
  | cons functor rest =>
    unfold turnWork
    cases l.phase <;> simp <;> split <;> omega

theorem work_push (l : ServerLoop) (functor : ServerFunctor) :
    (l.push functor).work ≤ l.work + functor.work + 4 := by
  have hturn : (l.push functor).turnWork ≤ l.turnWork + 4 := l.turnWork_push [functor]
  have hqueue : (l.push functor).queueWork = l.queueWork + functor.work := by
    simp only [queueWork, push, queue, List.map_append, List.sum_append, List.map_cons, List.map_nil,
      List.sum_cons, List.sum_nil]
    omega
  have hstack : (l.push functor).stackWork = l.stackWork := rfl
  have hevent : (l.push functor).eventWork = l.eventWork := rfl
  unfold work
  omega

/-- The work that a member function of a connection leaves its loop. -/
def newWork (conn : Nat) (s : Session Nat) : ℕ :=
  ((callbackFrames conn s.trace).map Frame.work).sum + 6 * s.pendingFunctors.length

theorem work_tasks (conn : Nat) (tasks : List Task) :
    ((tasks.map (ServerFunctor.task conn)).map ServerFunctor.work).sum = 2 * tasks.length := by
  induction tasks with
  | nil => rfl
  | cons task tasks ih =>
    rw [List.map_cons, List.map_cons, List.sum_cons, ih, List.length_cons, ServerFunctor.work]
    omega

theorem work_after (l : ServerLoop) (conn : Nat) (s : Session Nat) :
    (l.after conn s).work ≤ l.work + newWork conn s := by
  have hturn : (l.after conn s).turnWork ≤ l.turnWork + 4 * s.pendingFunctors.length := by
    have h := l.turnWork_push (s.pendingFunctors.map (.task conn))
    rwa [List.length_map] at h
  have hqueue : (l.after conn s).queueWork = l.queueWork + 2 * s.pendingFunctors.length := by
    have htasks := work_tasks conn s.pendingFunctors
    simp only [queueWork, after, queue, List.map_append, List.sum_append] at htasks ⊢
    omega
  have hstack : (l.after conn s).stackWork
      = ((callbackFrames conn s.trace).map Frame.work).sum + l.stackWork := by
    simp only [stackWork, after, List.map_append, List.sum_append]
  have hevent : (l.after conn s).eventWork = l.eventWork := rfl
  unfold work newWork
  omega

variable (l : ServerLoop)

theorem work_stack (stack : List Frame) :
    work { l with stack := stack } + l.stackWork = l.work + (stack.map Frame.work).sum := by
  change l.turnWork + l.queueWork + (stack.map Frame.work).sum + l.eventWork + l.stackWork = _
  unfold work
  omega

theorem work_popFrame {frame : Frame} {rest : List Frame} (hstack : l.stack = frame :: rest) :
    work { l with stack := rest } + frame.work = l.work := by
  have h := l.work_stack rest
  rw [stackWork, hstack, List.map_cons, List.sum_cons] at h
  omega

theorem work_userCode : work { l with stack := .userCode :: l.stack } = l.work + 1 := by
  have h := l.work_stack (.userCode :: l.stack)
  rw [List.map_cons, List.sum_cons, Frame.work] at h
  unfold stackWork at h
  omega

theorem work_popActive {a : ActiveChannel} {rest : List ActiveChannel}
    (hactive : l.activeChannels = a :: rest) :
    work { l with activeChannels := rest } + a.work = l.work := by
  change l.turnWork + l.queueWork + l.stackWork +
    ((rest.map ActiveChannel.work).sum + l.guard.elim 0 fun _ => 1) + a.work = _
  rw [work, eventWork, hactive, List.map_cons, List.sum_cons]
  omega

theorem work_eventFrames (conn : Nat) (revents : EventMask) :
    ((eventFrames conn revents).map Frame.work).sum ≤ 36 := by
  have hone : ∀ (p : Prop) [Decidable p] (frame : Frame),
      ((if p then [frame] else []).map Frame.work).sum ≤ frame.work := by
    intro p _ frame
    split
    · exact (Nat.add_zero _).le
    · exact Nat.zero_le _
  have hclose := hone (revents &&& EPOLLHUP ≠ 0#32 ∧ revents &&& EPOLLIN = 0#32) (.handleClose conn)
  have herror := hone (revents &&& EPOLLERR ≠ 0#32) (.handleError conn)
  have hread := hone (revents &&& (EPOLLIN ||| EPOLLPRI) ≠ 0#32) (.handleRead conn)
  have hwrite := hone (revents &&& EPOLLOUT ≠ 0#32) (.handleWrite conn)
  simp only [Frame.work] at hclose herror hread hwrite
  simp only [eventFrames, List.map_append, List.sum_append]
  omega

theorem work_event (hstack : l.stack = []) (hguard : l.guard = none) (guard : Option Nat)
    (conn : Nat) (revents : EventMask) :
    work { l with guard := guard, stack := eventFrames conn revents } ≤ l.work + 37 := by
  have hframes := work_eventFrames conn revents
  have hheld : (guard.elim 0 fun _ => 1) ≤ 1 := by
    cases guard
    · exact Nat.zero_le _
    · exact le_rfl
  change l.turnWork + l.queueWork + ((eventFrames conn revents).map Frame.work).sum +
    ((l.activeChannels.map ActiveChannel.work).sum + guard.elim 0 fun _ => 1) ≤ _
  rw [work, stackWork, eventWork, hstack, hguard]
  simp only [List.map_nil, List.sum_nil, Option.elim_none]
  omega

theorem work_popFunctor {functor : ServerFunctor} {rest : List ServerFunctor}
    (htodo : l.todo = functor :: rest) :
    work { l with todo := rest } + functor.work = l.work := by
  have hqueue : queueWork { l with todo := rest } + functor.work = l.queueWork := by
    simp only [queueWork, queue, htodo, List.map_append, List.map_cons, List.sum_append,
      List.sum_cons]
    omega
  change l.turnWork + queueWork { l with todo := rest } + l.stackWork + l.eventWork + functor.work = _
  unfold work
  omega

theorem work_handled (hguard : l.guard ≠ none) : work { l with guard := none } < l.work := by
  obtain ⟨conn, hguard⟩ := Option.ne_none_iff_exists'.mp hguard
  change l.turnWork + l.queueWork + l.stackWork +
    ((l.activeChannels.map ActiveChannel.work).sum + 0) < _
  rw [work, eventWork, hguard, Option.elim_some]
  omega

theorem work_poll (hphase : l.phase = .polling) (hpending : l.pendingFunctors ≠ []) :
    work { l with activeChannels := [.wakeup], phase := .dispatching } < l.work := by
  have hturn : l.turnWork = 4 := by
    rw [turnWork, hphase]
    exact if_neg fun hempty => hpending (List.isEmpty_iff.mp hempty)
  change 2 + l.queueWork + l.stackWork + (1 + l.guard.elim 0 fun _ => 1) < _
  rw [work, hturn, eventWork]
  omega

theorem work_doPendingFunctors (hphase : l.phase = .dispatching) :
    work { l with
      functors := l.pendingFunctors
      todo := l.pendingFunctors
      pendingFunctors := []
      phase := .calling } < l.work := by
  have hturn : l.turnWork = 2 := by
    rw [turnWork, hphase]
  have hqueue : (l.pendingFunctors.map ServerFunctor.work).sum ≤ l.queueWork := by
    rw [queueWork, queue, List.map_append, List.sum_append]
    omega
  change 1 + (l.pendingFunctors.map ServerFunctor.work).sum + l.stackWork + l.eventWork < _
  rw [work, hturn]
  omega

theorem work_endBatch (hphase : l.phase = .calling) :
    work { l with functors := [], phase := .polling } < l.work := by
  change (if l.pendingFunctors.isEmpty then 0 else 4) + l.queueWork + l.stackWork + l.eventWork < _
  have hturn : l.turnWork = if l.pendingFunctors.isEmpty then 1 else 5 := by
    rw [turnWork, hphase]
  rw [work, hturn]
  split <;> omega

end ServerLoop

/-! ### What the member functions leave -/

/-- Only callbacks put frames on the stack. -/
theorem callbackFrames_callbacks (conn : Nat) (trace : List Event) :
    callbackFrames conn (callbacks trace) = callbackFrames conn trace := by
  rw [callbackFrames, callbackFrames, callbacks, List.filterMap_filter]
  refine List.filterMap_congr fun event _ => ?_
  cases event <;> rfl

section Session

variable {s s' : Session Nat}

theorem newWork_eq {called : List Event} (htrace : s.trace = []) (hcalls : Calls called s s')
    (hpending : s'.pendingFunctors = []) (conn : Nat) :
    ServerLoop.newWork conn s' = ((callbackFrames conn called).map Frame.work).sum := by
  have hcalled : callbacks s'.trace = called := by
    rw [hcalls.callbacks_eq, htrace]
    rfl
  rw [ServerLoop.newWork, ← callbackFrames_callbacks, hcalled, hpending]
  rfl

/-- DOWN and `closeCallback_`. -/
theorem work_told (conn : Nat) (connection close : Bool) :
    ((callbackFrames conn ((if connection then [.connectionCallback false] else []) ++
      if close then [.closeCallback] else [])).map Frame.work).sum ≤ 13 := by
  cases connection <;> cases close <;> simp [callbackFrames, Frame.work]

theorem newWork_handleClose (htrace : s.trace = []) (hpending : s.pendingFunctors = [])
    (conn : Nat) : ServerLoop.newWork conn s.handleClose ≤ 13 := by
  rw [newWork_eq htrace (Calls.handleClose s) (s.handleClose_pending.trans hpending)]
  exact work_told ..

theorem newWork_handleRead (htrace : s.trace = []) (hpending : s.pendingFunctors = [])
    (conn : Nat) (read : Except Errno (List Byte)) :
    ServerLoop.newWork conn (s.handleRead read) ≤ 13 := by
  cases read with
  | error errno =>
    rw [newWork_eq htrace (Calls.handleRead_error s errno) hpending]
    exact Nat.zero_le _
  | ok ready =>
    by_cases hdata : ready = []
    · subst hdata
      have hnone : (s.handleRead (.ok [])).pendingFunctors = [] := by
        rw [s.handleRead_eof, Session.handleClose_pending]
        exact hpending
      rw [newWork_eq htrace (Calls.handleRead_eof s) hnone]
      exact work_told ..
    · obtain ⟨-, -, -, hnone, -⟩ := s.handleRead_of_data fun heq => hdata (Except.ok.inj heq)
      rw [newWork_eq htrace (Calls.handleRead_data s hdata) (hnone.trans hpending)]
      cases s.conn.messageCallback <;> simp [callbackFrames, Frame.work]

theorem newWork_connectEstablished (htrace : s.trace = []) (hpending : s.pendingFunctors = [])
    (conn : Nat) : ServerLoop.newWork conn s.connectEstablished ≤ 1 := by
  obtain ⟨-, -, -, hnone, -⟩ := s.connectEstablished_spec
  rw [newWork_eq htrace (Calls.connectEstablished s) (hnone.trans hpending)]
  cases s.conn.connectionCallback <;> simp [callbackFrames, Frame.work]

theorem newWork_connectDestroyed (htrace : s.trace = []) (hpending : s.pendingFunctors = [])
    (conn : Nat) : ServerLoop.newWork conn s.connectDestroyed ≤ 1 := by
  rw [ServerLoop.newWork, s.connectDestroyed_pending, hpending]
  by_cases hstate : s.conn.state = .kConnected
  · rw [s.connectDestroyed_trace hstate, htrace]
    cases s.conn.connectionCallback <;> simp [callbackFrames, Frame.work]
  · rw [s.connectDestroyed_of_ne hstate, show s.remove.trace = s.trace from rfl, htrace]
    exact Nat.zero_le _

theorem finishWrite_pending_cases (s : Session Nat) :
    s.finishWrite.pendingFunctors = s.pendingFunctors ∨
      s.finishWrite.pendingFunctors = s.pendingFunctors ++ [.writeCompleteCallback] := by
  have hshutdown : ∀ t : Session Nat, t.shutdownInLoop.pendingFunctors = t.pendingFunctors := by
    intro t
    unfold Session.shutdownInLoop
    split <;> rfl
  have hqueued : s.finishWrite.pendingFunctors = (s.disableWriting.queueWhen
      s.disableWriting.conn.writeCompleteCallback .writeCompleteCallback).pendingFunctors := by
    unfold Session.finishWrite
    dsimp only
    split
    · exact hshutdown _
    · rfl
  rw [hqueued]
  cases s.disableWriting.conn.writeCompleteCallback
  · exact .inl rfl
  · exact .inr rfl

/-- `handleWrite` queues `writeCompleteCallback_` at most. -/
theorem handleWrite_pending_cases (s : Session Nat) (write : Except Errno Nat) :
    (s.handleWrite write).pendingFunctors = s.pendingFunctors ∨
      (s.handleWrite write).pendingFunctors = s.pendingFunctors ++ [.writeCompleteCallback] := by
  rcases s.handleWrite_cases write with
    ⟨-, heq⟩ | ⟨-, ⟨errno, heq⟩ | heq | ⟨n, ⟨-, heq⟩ | ⟨-, heq⟩⟩⟩ <;> rw [heq]
  · exact .inl rfl
  · exact .inl rfl
  · exact .inl rfl
  · exact finishWrite_pending_cases (s.wroteOut n)
  · exact .inl rfl

theorem newWork_handleWrite (htrace : s.trace = []) (hpending : s.pendingFunctors = [])
    (conn : Nat) (write : Except Errno Nat) :
    ServerLoop.newWork conn (s.handleWrite write) ≤ 6 := by
  have hcalled : callbacks (s.handleWrite write).trace = [] := by
    rw [(Calls.handleWrite s write).callbacks_eq, htrace]
    rfl
  have hlength : (s.handleWrite write).pendingFunctors.length ≤ 1 := by
    rcases handleWrite_pending_cases s write with heq | heq <;> rw [heq, hpending]
    · exact Nat.zero_le _
    · exact le_rfl
  have hframes : ((callbackFrames conn []).map Frame.work).sum = 0 := rfl
  rw [ServerLoop.newWork, ← callbackFrames_callbacks, hcalled, hframes]
  omega

end Session

/-! ### Steps -/

namespace Server

variable {config : ServerConfig} {file : Nat → List Byte} {w w' : Server n} {conn : Nat}
  {loop : Fin (n + 1)} {f : Session Nat → Session Nat} {g : ServerLoop → ServerLoop}

def work (w : Server n) : ℕ := ∑ loop, (w.loops loop).work

/-- No `sendFileInLoop` waits. One may queue itself again without end. -/
def NoFiles (w : Server n) : Prop :=
  ∀ loop conn fileDescriptor offset count,
    .task conn (.sendFileInLoop fileDescriptor offset count) ∉ (w.loops loop).queue

/-- A step that the loops make without the kernel and the user: a poll reports only that a functor
waits. -/
def Unprompted (w : Server n) : ServerAction n → Prop
  | .poll loop active => active = [.wakeup] ∧ (w.loops loop).pendingFunctors ≠ []
  | .dispatch _ accepted => accepted = none
  | .handled loop => (w.loops loop).guard ≠ none
  | .frame _ _ _ | .doPendingFunctors _ | .runFunctor _ _ | .endBatch _ => True
  | .send _ _ _ _ | .sendFile _ _ _ _ _ _ | .shutdown _ _ | .queueInLoop _ | .hold _ | .drop _ =>
      False

theorem work_modifyLoop (w : Server n) (loop : Fin (n + 1)) (g : ServerLoop → ServerLoop) :
    (w.modifyLoop loop g).work + (w.loops loop).work = w.work + (g (w.loops loop)).work := by
  have hafter := Finset.add_sum_erase Finset.univ (fun other => ((w.modifyLoop loop g).loops other).work)
    (Finset.mem_univ loop)
  have hbefore := Finset.add_sum_erase Finset.univ (fun other => (w.loops other).work)
    (Finset.mem_univ loop)
  have hothers : ∑ other ∈ Finset.univ.erase loop, ((w.modifyLoop loop g).loops other).work
      = ∑ other ∈ Finset.univ.erase loop, (w.loops other).work := by
    refine Finset.sum_congr rfl fun other hmem => ?_
    rw [modifyLoop_loops_of_ne (Finset.ne_of_mem_erase hmem)]
  simp only [modifyLoop_loops_self] at hafter
  unfold work
  omega

theorem work_modifyLoop_le {k : ℕ} (hg : (g (w.loops loop)).work ≤ (w.loops loop).work + k) :
    (w.modifyLoop loop g).work ≤ w.work + k := by
  have h := w.work_modifyLoop loop g
  omega

theorem work_modifyLoop_lt (hg : (g (w.loops loop)).work < (w.loops loop).work) :
    (w.modifyLoop loop g).work < w.work := by
  have h := w.work_modifyLoop loop g
  omega

theorem work_pop {k : ℕ} (hg : (g (w.loops loop)).work + k = (w.loops loop).work) :
    (w.modifyLoop loop g).work + k = w.work := by
  have h := w.work_modifyLoop loop g
  omega

theorem work_push (w : Server n) (loop : Fin (n + 1)) (functor : ServerFunctor) :
    (w.modifyLoop loop fun l => l.push functor).work ≤ w.work + (functor.work + 4) :=
  work_modifyLoop_le ((w.loops loop).work_push functor)

theorem work_userCode (w : Server n) (loop : Fin (n + 1)) :
    (w.modifyLoop loop fun l => { l with stack := .userCode :: l.stack }).work ≤ w.work + 1 :=
  work_modifyLoop_le (w.loops loop).work_userCode.le

theorem work_onConnection (w : Server n) (conn : Nat) (f : Session Nat → Session Nat) :
    (w.onConnection conn f).work ≤ w.work + ServerLoop.newWork conn (f (w.session conn)) := by
  have hafter := (w.loops (w.loopOf conn)).work_after conn (f (w.session conn))
  have hmodify := (w.setConn conn ((w.onConnection conn f).conns conn)).work_modifyLoop
    (w.loopOf conn) fun l => l.after conn (f (w.session conn))
  rw [show ((w.setConn conn ((w.onConnection conn f).conns conn)).modifyLoop (w.loopOf conn)
      fun l => l.after conn (f (w.session conn))).work = (w.onConnection conn f).work from rfl,
    show (w.setConn conn ((w.onConnection conn f).conns conn)).work = w.work from rfl] at hmodify
  change _ + (w.loops (w.loopOf conn)).work = _ + ((w.loops (w.loopOf conn)).after conn _).work
    at hmodify
  omega

theorem work_removeConnectionInLoop (w : Server n) (conn : Nat) :
    (w.removeConnectionInLoop conn).work ≤ w.work + 6 :=
  work_push { w with connections := _ } _ (.connectDestroyed conn)

theorem work_handleEvent {a : ActiveChannel} {rest : List ActiveChannel}
    (hactive : (w.loops loop).activeChannels = a :: rest) (hidle : w.Idle loop) :
    ((w.modifyLoop loop fun l => { l with activeChannels := rest }).handleEvent config loop none
      a).work < w.work := by
  set popped := w.modifyLoop loop fun l => { l with activeChannels := rest }
  have hpop : popped.work + a.work = w.work := work_pop ((w.loops loop).work_popActive hactive)
  cases a with
  | connection conn revents =>
    have hself : popped.loops loop = { w.loops loop with activeChannels := rest } :=
      modifyLoop_loops_self
    simp only [ActiveChannel.work] at hpop
    simp only [Server.handleEvent]
    split
    · have hevent : (popped.modifyLoop loop fun l =>
          { l with
            guard := if (popped.conns conn).tcp.channel.tied then some conn else none
            stack := eventFrames conn revents }).work ≤ popped.work + 37 := by
        refine work_modifyLoop_le (ServerLoop.work_event _ ?_ ?_ _ conn revents) <;> rw [hself]
        · exact hidle.1
        · exact hidle.2
      omega
    · change popped.work < w.work
      omega
  | acceptor =>
    simp only [ActiveChannel.work] at hpop
    change popped.work < w.work
    omega
  | wakeup =>
    simp only [ActiveChannel.work] at hpop
    change popped.work < w.work
    omega

theorem work_runFrame {frame : Frame} {rest : List Frame}
    (hstack : (w.loops loop).stack = frame :: rest) (read : Except Errno (List Byte))
    (write : Except Errno Nat) :
    ((w.modifyLoop loop fun l => { l with stack := rest }).runFrame loop read write frame).work
      < w.work := by
  set popped := w.modifyLoop loop fun l => { l with stack := rest }
  have hpop : popped.work + frame.work = w.work := work_pop ((w.loops loop).work_popFrame hstack)
  cases frame with
  | handleClose conn =>
    have hcall := work_onConnection popped conn Session.handleClose
    have hnew := newWork_handleClose (s := popped.session conn) rfl rfl conn
    simp only [Frame.work] at hpop
    simp only [Server.runFrame]
    omega
  | handleError conn =>
    have hcall := work_onConnection popped conn Session.handleError
    have hnew : ServerLoop.newWork conn (popped.session conn).handleError = 0 := rfl
    simp only [Frame.work] at hpop
    simp only [Server.runFrame]
    omega
  | handleRead conn =>
    have hcall := work_onConnection popped conn fun s => s.handleRead read
    have hnew := newWork_handleRead (s := popped.session conn) rfl rfl conn read
    simp only [Frame.work] at hpop
    simp only [Server.runFrame]
    omega
  | handleWrite conn =>
    have hcall := work_onConnection popped conn fun s => s.handleWrite write
    have hnew := newWork_handleWrite (s := popped.session conn) rfl rfl conn write
    simp only [Frame.work] at hpop
    simp only [Server.runFrame]
    omega
  | removeConnection conn =>
    simp only [Frame.work] at hpop
    simp only [Server.runFrame, Server.removeConnection]
    split
    · have hremove := work_removeConnectionInLoop popped conn
      omega
    · have hpush := work_push popped 0 (.removeConnectionInLoop conn)
      simp only [ServerFunctor.work] at hpush
      omega
  | userCode =>
    simp only [Frame.work] at hpop
    change popped.work < w.work
    omega

theorem work_callFunctor (hfiles : w.NoFiles) {functor : ServerFunctor}
    {rest : List ServerFunctor} (htodo : (w.loops loop).todo = functor :: rest)
    (write : Except Errno Nat) :
    ((w.modifyLoop loop fun l => { l with todo := rest }).callFunctor file loop write functor).work
      < w.work := by
  set popped := w.modifyLoop loop fun l => { l with todo := rest }
  have hpop : popped.work + functor.work = w.work :=
    work_pop ((w.loops loop).work_popFunctor htodo)
  have huser := work_userCode popped loop
  cases functor with
  | connectEstablished conn =>
    have hcall := work_onConnection popped conn Session.connectEstablished
    have hnew := newWork_connectEstablished (s := popped.session conn) rfl rfl conn
    simp only [ServerFunctor.work] at hpop
    simp only [Server.callFunctor]
    omega
  | connectDestroyed conn =>
    have hcall := work_onConnection popped conn Session.connectDestroyed
    have hnew := newWork_connectDestroyed (s := popped.session conn) rfl rfl conn
    simp only [ServerFunctor.work] at hpop
    simp only [Server.callFunctor]
    omega
  | removeConnectionInLoop conn =>
    have hremove := work_removeConnectionInLoop popped conn
    simp only [ServerFunctor.work] at hpop
    simp only [Server.callFunctor]
    omega
  | user =>
    simp only [ServerFunctor.work] at hpop
    simp only [Server.callFunctor]
    omega
  | task conn task =>
    simp only [ServerFunctor.work] at hpop
    cases task with
    | sendFileInLoop fileDescriptor offset count =>
      refine absurd ?_ (hfiles loop conn fileDescriptor offset count)
      rw [ServerLoop.queue, htodo]
      exact List.mem_append_right _ List.mem_cons_self
    | writeCompleteCallback =>
      simp only [Server.callFunctor]
      omega
    | highWaterMarkCallback length =>
      simp only [Server.callFunctor]
      omega

/-- Every step that the loops make of themselves uses up some of the work. -/
theorem work_move {action : ServerAction n} (hfiles : w.NoFiles) (hown : w.Unprompted action)
    (hmove : w.move file config action = some w') : w'.work < w.work := by
  cases action with
  | poll loop active =>
    obtain ⟨rfl, hpending⟩ := hown
    obtain ⟨⟨hphase, -⟩, rfl⟩ := guarded_eq_some.mp hmove
    exact work_modifyLoop_lt (ServerLoop.work_poll _ hphase hpending)
  | dispatch loop accepted =>
    obtain rfl : accepted = none := hown
    obtain ⟨a, rest, hactive, ⟨-, hidle, -⟩, rfl⟩ := move_dispatch hmove
    exact work_handleEvent hactive hidle
  | frame loop read write =>
    obtain ⟨frame, rest, hstack, rfl⟩ := move_frame hmove
    exact work_runFrame hstack read write
  | handled loop =>
    obtain ⟨-, rfl⟩ := guarded_eq_some.mp hmove
    exact work_modifyLoop_lt (ServerLoop.work_handled _ hown)
  | doPendingFunctors loop =>
    obtain ⟨⟨hphase, -, -⟩, rfl⟩ := guarded_eq_some.mp hmove
    exact work_modifyLoop_lt (ServerLoop.work_doPendingFunctors _ hphase)
  | runFunctor loop write =>
    obtain ⟨functor, rest, htodo, -, rfl⟩ := move_runFunctor hmove
    exact work_callFunctor hfiles htodo write
  | endBatch loop =>
    obtain ⟨⟨hphase, -, -⟩, rfl⟩ := guarded_eq_some.mp hmove
    exact work_modifyLoop_lt (ServerLoop.work_endBatch _ hphase)
  | _ => exact hown.elim

/-! ### No files -/

theorem NoFiles.modifyLoop (h : w.NoFiles)
    (hqueue : ∀ functor ∈ (g (w.loops loop)).queue, functor ∈ (w.loops loop).queue ∨
      ∀ conn fileDescriptor offset count,
        functor ≠ .task conn (.sendFileInLoop fileDescriptor offset count)) :
    (w.modifyLoop loop g).NoFiles := by
  intro other conn fileDescriptor offset count hmem
  by_cases heq : other = loop
  · subst heq
    rw [modifyLoop_loops_self] at hmem
    rcases hqueue _ hmem with hold | hne
    · exact h other conn fileDescriptor offset count hold
    · exact hne conn fileDescriptor offset count rfl
  · rw [modifyLoop_loops_of_ne heq] at hmem
    exact h other conn fileDescriptor offset count hmem

theorem NoFiles.sameQueue (h : w.NoFiles)
    (hqueue : (g (w.loops loop)).queue = (w.loops loop).queue) : (w.modifyLoop loop g).NoFiles :=
  h.modifyLoop fun _ hmem => .inl (hqueue ▸ hmem)

theorem NoFiles.userCode (h : w.NoFiles) :
    (w.modifyLoop loop fun l => { l with stack := .userCode :: l.stack }).NoFiles :=
  h.sameQueue rfl

theorem NoFiles.push (h : w.NoFiles) {functor : ServerFunctor}
    (hne : ∀ conn fileDescriptor offset count,
      functor ≠ .task conn (.sendFileInLoop fileDescriptor offset count)) :
    (w.modifyLoop loop fun l => l.push functor).NoFiles := by
  refine h.modifyLoop fun other hmem => ?_
  rcases (ServerLoop.mem_queue_push ..).mp hmem with hold | rfl
  · exact .inl hold
  · exact .inr hne

theorem NoFiles.removeConnectionInLoop (h : w.NoFiles) (conn : Nat) :
    (w.removeConnectionInLoop conn).NoFiles :=
  NoFiles.push (w := { w with connections := _ }) h fun _ _ _ _ heq => by cases heq

theorem NoFiles.onConnection (h : w.NoFiles)
    (htasks : (f (w.session conn)).pendingFunctors = [] ∨
      (f (w.session conn)).pendingFunctors = [.writeCompleteCallback]) :
    (w.onConnection conn f).NoFiles := by
  have hafter : (w.modifyLoop (w.loopOf conn) fun l => l.after conn (f (w.session conn))).NoFiles := by
    refine h.modifyLoop fun functor hmem => ?_
    rw [ServerLoop.queue, ServerLoop.after, List.append_assoc] at hmem
    rcases List.mem_append.mp hmem with hold | hmem
    · exact .inl (List.mem_append_left _ hold)
    · rcases List.mem_append.mp hmem with hnew | hold
      · obtain ⟨task, htask, rfl⟩ := List.mem_map.mp hnew
        rcases htasks with hnone | hone
        · rw [hnone] at htask
          cases htask
        · rw [hone] at htask
          obtain rfl := List.mem_singleton.mp htask
          exact .inr fun _ _ _ _ heq => by cases heq
      · exact .inl (List.mem_append_right _ hold)
  exact hafter

theorem NoFiles.runFrame (h : w.NoFiles) (read : Except Errno (List Byte))
    (write : Except Errno Nat) (frame : Frame) : (w.runFrame loop read write frame).NoFiles := by
  cases frame with
  | handleClose conn => exact h.onConnection (.inl (Session.handleClose_pending _))
  | handleError conn => exact h.onConnection (.inl rfl)
  | handleRead conn =>
    refine h.onConnection (f := fun s => s.handleRead read) (.inl ?_)
    by_cases heof : read = .ok []
    · subst heof
      rw [Session.handleRead_eof, Session.handleClose_pending]
      rfl
    · obtain ⟨-, -, -, hnone, -⟩ := (w.session conn).handleRead_of_data heof
      exact hnone
  | handleWrite conn =>
    exact h.onConnection (f := fun s => s.handleWrite write) (handleWrite_pending_cases _ write)
  | removeConnection conn =>
    simp only [Server.runFrame, Server.removeConnection]
    split
    · exact h.removeConnectionInLoop conn
    · exact h.push fun _ _ _ _ heq => by cases heq
  | userCode => exact h

theorem NoFiles.callFunctor (h : w.NoFiles) {functor : ServerFunctor} {rest : List ServerFunctor}
    (htodo : (w.loops loop).todo = functor :: rest) (write : Except Errno Nat) :
    ((w.modifyLoop loop fun l => { l with todo := rest }).callFunctor file loop write
      functor).NoFiles := by
  have hqueue : ∀ other ∈ functor :: rest, other ∈ (w.loops loop).queue := by
    intro other hmem
    rw [ServerLoop.queue, htodo]
    exact List.mem_append_right _ hmem
  have hpop : (w.modifyLoop loop fun l => { l with todo := rest }).NoFiles :=
    h.modifyLoop fun other hmem => .inl <|
      (List.mem_append.mp hmem).elim (List.mem_append_left _) fun hrest =>
        hqueue other (List.mem_cons_of_mem functor hrest)
  cases functor with
  | connectEstablished conn =>
    obtain ⟨-, -, -, hnone, -⟩ := Session.connectEstablished_spec
      ((w.modifyLoop loop fun l => { l with todo := rest }).session conn)
    exact hpop.onConnection (.inl hnone)
  | connectDestroyed conn => exact hpop.onConnection (.inl (Session.connectDestroyed_pending _))
  | removeConnectionInLoop conn => exact hpop.removeConnectionInLoop conn
  | user => exact hpop.userCode
  | task conn task =>
    cases task with
    | sendFileInLoop fileDescriptor offset count =>
      exact absurd (hqueue _ List.mem_cons_self) (h loop conn fileDescriptor offset count)
    | writeCompleteCallback => exact hpop.userCode
    | highWaterMarkCallback length => exact hpop.userCode

/-- The loops queue no file and accept no connection of themselves. -/
theorem NoFiles.move {action : ServerAction n} (h : w.NoFiles) (hown : w.Unprompted action)
    (hmove : w.move file config action = some w') : w'.NoFiles ∧ w'.accepted = w.accepted := by
  cases action with
  | poll loop active =>
    obtain ⟨-, rfl⟩ := guarded_eq_some.mp hmove
    exact ⟨h.sameQueue rfl, rfl⟩
  | dispatch loop accepted =>
    obtain rfl : accepted = none := hown
    obtain ⟨a, rest, -, -, rfl⟩ := move_dispatch hmove
    have hpop : (w.modifyLoop loop fun l => { l with activeChannels := rest }).NoFiles :=
      h.sameQueue rfl
    cases a with
    | connection conn revents =>
      simp only [Server.handleEvent]
      split
      · exact ⟨hpop.sameQueue rfl, rfl⟩
      · exact ⟨hpop, rfl⟩
    | acceptor => exact ⟨hpop, rfl⟩
    | wakeup => exact ⟨hpop, rfl⟩
  | frame loop read write =>
    obtain ⟨frame, rest, -, rfl⟩ := move_frame hmove
    have hpop : (w.modifyLoop loop fun l => { l with stack := rest }).NoFiles := h.sameQueue rfl
    refine ⟨hpop.runFrame read write frame, ?_⟩
    cases frame with
    | removeConnection conn =>
      simp only [Server.runFrame, Server.removeConnection]
      split <;> rfl
    | _ => rfl
  | handled loop =>
    obtain ⟨-, rfl⟩ := guarded_eq_some.mp hmove
    exact ⟨h.sameQueue rfl, rfl⟩
  | doPendingFunctors loop =>
    obtain ⟨-, rfl⟩ := guarded_eq_some.mp hmove
    exact ⟨h.modifyLoop fun functor hmem => .inl (List.mem_append_left _ hmem), rfl⟩
  | runFunctor loop write =>
    obtain ⟨functor, rest, htodo, -, rfl⟩ := move_runFunctor hmove
    refine ⟨h.callFunctor htodo write, ?_⟩
    cases functor with
    | task conn task =>
      cases task with
      | sendFileInLoop fileDescriptor offset count =>
        simp only [Server.callFunctor]
        split <;> rfl
      | _ => rfl
    | _ => rfl
  | endBatch loop =>
    obtain ⟨-, rfl⟩ := guarded_eq_some.mp hmove
    exact ⟨h.sameQueue rfl, rfl⟩
  | _ => exact hown.elim

end Server

/-! ### Rest -/

namespace ServerLoop

/-- The loop waits in `poll`, with nothing left to do. -/
structure AtRest (l : ServerLoop) : Prop where
  phase : l.phase = .polling
  active : l.activeChannels = []
  stack : l.stack = []
  guard : l.guard = none
  queue : l.queue = []
  functors : l.functors = []

/-- Events are left over in the dispatch phase only, and a batch in the phase after it. -/
structure InTurn (l : ServerLoop) : Prop where
  active : l.phase ≠ .dispatching → l.activeChannels = []
  functors : l.phase ≠ .calling → l.functors = []

theorem InTurn.turn {reports : ActiveChannel → Prop} {l l' : ServerLoop} (h : l.InTurn)
    (hturn : Turn reports l l') : l'.InTurn := by
  cases hturn with
  | stay hsame =>
    obtain ⟨hphase, hactive, hfunctors⟩ := hsame
    exact ⟨fun hne => hactive.trans (h.active (hphase ▸ hne)),
      fun hne => hfunctors.trans (h.functors (hphase ▸ hne))⟩
  | poll hphase hreports hdispatching hfunctors =>
    refine ⟨fun hne => absurd hdispatching hne, fun _ => hfunctors.trans (h.functors ?_)⟩
    rw [hphase]
    decide
  | dispatch a hactive hphase hfunctors =>
    refine ⟨fun hne => ?_, fun hne => hfunctors.trans (h.functors (hphase ▸ hne))⟩
    have hnone := h.active (hphase ▸ hne)
    rw [hactive] at hnone
    cases hnone
  | call hphase hactive hcalling hnone => exact ⟨fun _ => hnone, fun hne => absurd hcalling hne⟩
  | finish hphase hpolling hfunctors hactive =>
    refine ⟨fun _ => hactive.trans (h.active ?_), fun _ => hfunctors⟩
    rw [hphase]
    decide

end ServerLoop

/-- The loop whose thread takes the step. -/
def ServerAction.loopOf : ServerAction n → Option (Fin (n + 1))
  | poll loop _ | dispatch loop _ | frame loop _ _ | handled loop | doPendingFunctors loop
  | runFunctor loop _ | endBatch loop => some loop
  | _ => none

namespace Server

variable {config : ServerConfig} {file : Nat → List Byte} {w w' : Server n} {conn : Nat}
  {loop : Fin (n + 1)}

theorem exists_step {action : ServerAction n} (hdefined : w.undefined = false)
    (henabled : (w.move file config action).isSome = true) :
    ∃ v, w.step file config action = some v := by
  obtain ⟨u, hmove⟩ := Option.isSome_iff_exists.mp henabled
  refine ⟨u.reap, ?_⟩
  rw [step, hdefined, hmove]
  rfl

theorem isSome_guarded {p : Prop} [Decidable p] (hp : p) : (guarded p w).isSome = true := by
  rw [guarded, if_pos hp]
  rfl

/-- A loop that is not at rest can go on by itself. -/
theorem exists_unprompted (file : Nat → List Byte) (config : ServerConfig)
    (hdefined : w.undefined = false) (hturn : (w.loops loop).InTurn)
    (hphase : (w.loops loop).InPhase) (hbusy : ¬(w.loops loop).AtRest) :
    ∃ action, action.loopOf = some loop ∧ w.Unprompted action ∧
      ∃ v, w.step file config action = some v := by
  cases hstack : (w.loops loop).stack with
  | cons frame rest =>
    refine ⟨.frame loop (.ok []) (.ok 0), rfl, trivial, exists_step hdefined ?_⟩
    simp only [move, hstack]
    rfl
  | nil =>
    by_cases hguard : (w.loops loop).guard = none
    · have hidle : w.Idle loop := ⟨hstack, hguard⟩
      cases hcase : (w.loops loop).phase with
      | polling =>
        have hactive := hturn.active (by rw [hcase]; decide)
        have hfunctors := hturn.functors (by rw [hcase]; decide)
        have htodo := hphase.calling (by rw [hcase]; decide)
        have hpending : (w.loops loop).pendingFunctors ≠ [] := by
          intro hnone
          refine hbusy ⟨hcase, hactive, hstack, hguard, ?_, hfunctors⟩
          rw [ServerLoop.queue, hnone, htodo]
          rfl
        refine ⟨.poll loop [.wakeup], rfl, ⟨rfl, hpending⟩,
          exists_step hdefined (isSome_guarded ⟨hcase, fun a hmem => ?_⟩)⟩
        obtain rfl := List.mem_singleton.mp hmem
        exact trivial
      | dispatching =>
        cases hactive : (w.loops loop).activeChannels with
        | nil =>
          exact ⟨.doPendingFunctors loop, rfl, trivial,
            exists_step hdefined (isSome_guarded ⟨hcase, hidle, hactive⟩)⟩
        | cons a rest =>
          refine ⟨.dispatch loop none, rfl, rfl, exists_step hdefined ?_⟩
          simp only [move, hactive]
          exact isSome_guarded ⟨hcase, hidle, fun _ heq => by cases heq⟩
      | calling =>
        cases htodo : (w.loops loop).todo with
        | nil =>
          exact ⟨.endBatch loop, rfl, trivial,
            exists_step hdefined (isSome_guarded ⟨hcase, hstack, htodo⟩)⟩
        | cons functor rest =>
          refine ⟨.runFunctor loop (.ok 0), rfl, trivial, exists_step hdefined ?_⟩
          simp only [move, htodo]
          exact isSome_guarded ⟨hcase, hstack⟩
    · exact ⟨.handled loop, rfl, hguard, exists_step hdefined (isSome_guarded hstack)⟩

theorem inTurn_of_reachable (hreach : (system file config).Reachable w) :
    ∀ loop, (w.loops loop).InTurn := by
  refine hreach.invariant (I := fun v => ∀ loop, (v.loops loop).InTurn) ?_ ?_
  · rintro v rfl loop
    exact ⟨fun _ => rfl, fun _ => rfl⟩
  · rintro v action v' hturn - hstep loop
    obtain ⟨u, hmove, rfl⟩ := step_eq_some hstep
    exact (hturn loop).turn (move_turn hmove loop)

theorem held_of_alive (hreach : (system file config).Reachable w) (halive : w.alive conn = true) :
    w.held conn = true := by
  refine hreach.invariant (I := fun v => v.alive conn = true → v.held conn = true) ?_ ?_ halive
  · rintro v rfl hnew
    cases hnew
  · rintro v action v' - - hstep hafter
    obtain ⟨u, hmove, rfl⟩ := step_eq_some hstep
    exact (Bool.and_eq_true_iff.mp hafter).2

theorem handshake_of_run (hreach : (system file config).Reachable w) (hfew : w.accepted < 2 ^ 31) :
    Inv config w ∧ w.Handshake := by
  refine hreach.invariant (I := fun v => v.accepted < 2 ^ 31 → Inv config v ∧ v.Handshake) ?_ ?_ hfew
  · rintro v rfl -
    exact ⟨inv_new config, handshake_new⟩
  · rintro v action v' hbefore - hstep hfew'
    obtain ⟨hinv, hhandshake⟩ := hbefore ((accepted_le_step hstep).trans_lt hfew')
    exact ⟨step_inv (fun _ => hinv) hstep hfew', step_handshake hinv hhandshake hstep hfew'⟩

/-- Closed, gone from all tables, and destroyed unless the user holds it. -/
structure IsGone (w : Server n) (conn : Nat) : Prop extends w.IsClosed conn where
  destroyed : w.alive conn = true → w.userHeld conn = true

theorem isGone_of_rest (hreach : (system file config).Reachable w) (hfew : w.accepted < 2 ^ 31)
    (hrest : ∀ loop, (w.loops loop).AtRest) (hlt : conn < w.accepted)
    (hdown : w.state conn = .kDisconnected) : w.IsGone conn := by
  obtain ⟨hinv, hhandshake⟩ := handshake_of_run hreach hfew
  have hquiet : w.Quiescent := fun loop =>
    ⟨(hrest loop).queue, by rw [(hrest loop).phase]; decide⟩
  obtain ⟨hcalled, hleft⟩ := (hhandshake.settled conn).down hlt hdown
  obtain ⟨hnew, hunmapped⟩ := hleft.resolve_left (not_removing_of_quiescent hhandshake hquiet)
  refine ⟨isClosed_of_down hinv hhandshake.named hcalled hnew hunmapped, fun halive => ?_⟩
  have hloops : ¬∃ loop, (w.loops loop).holds conn = true := by
    rintro ⟨loop, hholds⟩
    have hpending : (w.loops loop).pendingFunctors = [] :=
      (List.append_eq_nil_iff.mp (hrest loop).queue).1
    rw [ServerLoop.holds, hpending, (hrest loop).functors, (hrest loop).guard, (hrest loop).stack]
      at hholds
    cases hholds
  have hentry : (w.connections (w.conns conn).name == some conn) = false :=
    beq_eq_false_iff_ne.mpr hunmapped
  have hheld := held_of_alive hreach halive
  rwa [held, hentry, decide_eq_false hloops, Bool.false_or, Bool.false_or] at hheld

theorem descends (file : Nat → List Byte) (config : ServerConfig) (k : Nat) :
    (system file config).Descends Unprompted
      (fun v : Server n => (system file config).Reachable v ∧ v.NoFiles ∧ v.accepted = k) work where
  keeps v action v' h hown hstep := by
    obtain ⟨hreach, hfiles, haccepted⟩ := h
    obtain ⟨u, hmove, rfl⟩ := step_eq_some hstep
    obtain ⟨hafter, hsame⟩ := hfiles.move hown hmove
    exact ⟨hreach.step trivial hstep, hafter, hsame.trans haccepted⟩
  lowers v action v' h hown hstep := by
    obtain ⟨u, hmove, rfl⟩ := step_eq_some hstep
    have hlower := work_move h.2.1 hown hmove
    exact hlower

theorem busy_goes_on (file : Nat → List Byte) (hreach : (system file config).Reachable w)
    (hfew : w.accepted < 2 ^ 31) (hbusy : ¬(w.loops loop).AtRest) :
    ∃ action, action.loopOf = some loop ∧ w.Unprompted action ∧
      ∃ v, w.step file config action = some v := by
  obtain ⟨hinv, hsheltered⟩ := sheltered_of_reachable hreach hfew
  exact exists_unprompted file config hsheltered.defined (inTurn_of_reachable hreach loop)
    (hinv.phase loop) hbusy

/-- At rest, whatever the loops did on the way. -/
theorem atRest_of_halted (hreach : (system file config).Reachable w) (hfew : w.accepted < 2 ^ 31)
    (hhalted : (system file config).Halted Unprompted w) (loop : Fin (n + 1)) :
    (w.loops loop).AtRest := by
  by_contra hbusy
  obtain ⟨action, -, hown, v, hstep⟩ := busy_goes_on file hreach hfew hbusy
  exact hhalted action v hown hstep

/-- **The server comes to rest.** From every state of every run with fewer than `2 ^ 31` accepted
connections in which no file waits to be sent: left to themselves the loops make no more steps than
there is work left, in whatever order, and each of them can go on by itself until it is at rest.
Where none can go on, all of them wait in `poll` and every connection is up, or closed, gone from all
tables, and destroyed unless the user holds it. -/
theorem comes_to_rest (file : Nat → List Byte) {w : Server n}
    (hreach : (system file config).Reachable w) (hfew : w.accepted < 2 ^ 31) (hfiles : w.NoFiles) :
    (∃ as v, (system file config).RunUnder Unprompted w as v ∧
      (system file config).Halted Unprompted v) ∧
    ∀ as v, (system file config).RunUnder Unprompted w as v →
      as.length + v.work ≤ w.work ∧
      (∀ loop, ¬(v.loops loop).AtRest → ∃ action, action.loopOf = some loop ∧
        v.Unprompted action ∧ ∃ u, v.step file config action = some u) ∧
      ((system file config).Halted Unprompted v → (∀ loop, (v.loops loop).AtRest) ∧
        ∀ conn < w.accepted, v.IsGone conn ∨
          (v.state conn = .kConnected ∨ v.state conn = .kDisconnecting) ∧ v.Mapped conn) := by
  have hdescends := descends (n := n) file config w.accepted
  have hstart : (system file config).Reachable w ∧ w.NoFiles ∧ w.accepted = w.accepted :=
    ⟨hreach, hfiles, rfl⟩
  refine ⟨hdescends.exists_halted hstart, fun as v hrun => ?_⟩
  obtain ⟨hafter, -, haccepted⟩ := hdescends.invariant hrun hstart
  rw [← haccepted] at hfew ⊢
  refine ⟨hdescends.length_le hrun hstart,
    fun loop hbusy => busy_goes_on file hafter hfew hbusy, fun hhalted => ?_⟩
  have hrest := atRest_of_halted hafter hfew hhalted
  obtain ⟨-, hhandshake⟩ := handshake_of_run hafter hfew
  refine ⟨hrest, fun conn hlt => ?_⟩
  have hsettled := hhandshake.settled conn
  cases hstate : v.state conn with
  | kConnecting =>
    have hmem := (hsettled.connecting hstate).1
    rw [Establishing, (hrest _).queue] at hmem
    cases hmem
  | kConnected => exact .inr ⟨.inl rfl, hsettled.mapped hlt (by rw [hstate]; decide)⟩
  | kDisconnecting => exact .inr ⟨.inr rfl, hsettled.mapped hlt (by rw [hstate]; decide)⟩
  | kDisconnected => exact .inl (isGone_of_rest hafter hfew hrest hlt hstate)

/-- The peer of a connection has hung up, and its `handleClose` has run. -/
theorem comes_to_rest_hangup :
    ∃ w : Server 0,
      (system (fun _ => []) echoServer).exec new
        [.poll 0 [.acceptor], .dispatch 0 (some 7), .frame 0 (.ok []) (.ok 0),
          .doPendingFunctors 0, .endBatch 0, .poll 0 [.connection 0 EPOLLHUP], .dispatch 0 none,
          .frame 0 (.ok []) (.ok 0)] = some w ∧
      w.work = 16 ∧
      ∃ as v, (system (fun _ => []) echoServer).RunUnder Unprompted w as v ∧ as.length ≤ 16 ∧
        ∀ loop, (v.loops loop).AtRest := by
  obtain ⟨w, hw, hfew, hwork, hqueue⟩ : ∃ w : Server 0,
      (system (fun _ => []) echoServer).exec new
        [.poll 0 [.acceptor], .dispatch 0 (some 7), .frame 0 (.ok []) (.ok 0),
          .doPendingFunctors 0, .endBatch 0, .poll 0 [.connection 0 EPOLLHUP], .dispatch 0 none,
          .frame 0 (.ok []) (.ok 0)] = some w ∧
      w.accepted < 2 ^ 31 ∧ w.work = 16 ∧ ∀ loop, (w.loops loop).queue = [] :=
    ⟨_, rfl, by decide, rfl, by decide⟩
  have hfiles : w.NoFiles := by
    intro loop conn fileDescriptor offset count hmem
    rw [hqueue loop] at hmem
    cases hmem
  obtain ⟨⟨as, v, hrun, hhalted⟩, hall⟩ :=
    comes_to_rest _ (System.reachable_of_exec rfl hw) hfew hfiles
  obtain ⟨hlength, -, hrest⟩ := hall as v hrun
  exact ⟨w, hw, hwork, as, v, hrun, by omega, (hrest hhalted).1⟩

end Server

end MuduoCore
