import MuduoCore.TcpConnection.Disconnected
import MuduoCore.TcpConnection.Past
import MuduoCore.TcpServer.Sheltered

/-!
# One connection of a server

Seen from one of its connections, a run of the server is a run of that connection alone: what happens
to the other connections and on the other loops leaves it as it is, and what happens to it is one of its
own steps. So the connections may be studied one at a time.
-/

namespace MuduoCore

/-- The functor, if the connection `conn` has queued it for itself. -/
def ServerFunctor.taskOf (conn : Nat) : ServerFunctor → Option Task
  | .task own t => if own = conn then some t else none
  | _ => none

def tasksOf (conn : Nat) (functors : List ServerFunctor) : List Task :=
  functors.filterMap (ServerFunctor.taskOf conn)

theorem tasksOf_append (conn : Nat) (a b : List ServerFunctor) :
    tasksOf conn (a ++ b) = tasksOf conn a ++ tasksOf conn b := List.filterMap_append

theorem tasksOf_cons (conn : Nat) (functor : ServerFunctor) (rest : List ServerFunctor) :
    tasksOf conn (functor :: rest) = (functor.taskOf conn).toList ++ tasksOf conn rest := by
  rw [tasksOf, List.filterMap_cons]
  cases functor.taskOf conn <;> rfl

theorem tasksOf_map_self (conn : Nat) (tasks : List Task) :
    tasksOf conn (tasks.map (.task conn)) = tasks := by
  induction tasks with
  | nil => rfl
  | cons task tasks ih =>
    rw [List.map_cons, tasksOf_cons, ih, ServerFunctor.taskOf, if_pos rfl]
    rfl

theorem tasksOf_map_of_ne {conn owner : Nat} (hne : owner ≠ conn) (tasks : List Task) :
    tasksOf conn (tasks.map (.task owner)) = [] := by
  induction tasks with
  | nil => rfl
  | cons task tasks ih =>
    rw [List.map_cons, tasksOf_cons, ih, ServerFunctor.taskOf, if_neg hne]
    rfl

namespace Server

variable {n : ℕ} {config : ServerConfig} {file : Nat → List Byte}

/-- The connection alone, with the functors that it has queued for itself. -/
structure StandsFor (w : Server n) (conn : Nat) (r : Running Nat) : Prop where
  conn_eq : r.session.conn = (w.conns conn).tcp
  trace_eq : r.session.trace = (w.conns conn).trace
  pending_eq : r.session.pendingFunctors = tasksOf conn (w.loops (w.loopOf conn)).pendingFunctors
  functors_eq : r.functors = tasksOf conn (w.loops (w.loopOf conn)).todo

/-- The connection is as its constructor left it. -/
structure Untouched (w : Server n) (conn : Nat) : Prop where
  tcp_eq : ∃ (fd highWaterMark bufferSize : Nat) (connectionCallback messageCallback
    writeCompleteCallback highWaterMarkCallback closeCallback : Bool),
    (w.conns conn).tcp = TcpConnection.new fd highWaterMark bufferSize connectionCallback
      messageCallback writeCompleteCallback highWaterMarkCallback closeCallback
  trace_eq : (w.conns conn).trace = []
  queue_eq : tasksOf conn (w.loops (w.loopOf conn)).queue = []

/-- A connection is untouched until its `connectEstablished`, and has made a run of its own since. Its
functors wait in its own loop. -/
structure RunsAlone (file : Nat → List Byte) (w : Server n) (conn : Nat) : Prop where
  homed : ∀ loop, (conn < w.accepted → loop ≠ w.loopOf conn) →
    tasksOf conn (w.loops loop).queue = []
  untouched : conn < w.accepted → w.state conn = .kConnecting → w.Untouched conn
  run : conn < w.accepted → w.state conn ≠ .kConnecting →
    ∃ r, (Running.system file).Reachable r ∧ w.StandsFor conn r

variable {w w' : Server n} {conn other : Nat} {loop : Fin (n + 1)}
  {f : Session Nat → Session Nat} {g : ServerLoop → ServerLoop} {r : Running Nat}

/-! ### Steps that are not about the connection -/

theorem RunsAlone.congr (h : w.RunsAlone file conn) (hconn : w'.conns conn = w.conns conn)
    (haccepted : conn < w'.accepted ↔ conn < w.accepted)
    (hpending : ∀ loop, tasksOf conn (w'.loops loop).pendingFunctors
      = tasksOf conn (w.loops loop).pendingFunctors)
    (htodo : ∀ loop, tasksOf conn (w'.loops loop).todo = tasksOf conn (w.loops loop).todo) :
    w'.RunsAlone file conn := by
  have hqueue : ∀ loop, tasksOf conn (w'.loops loop).queue = tasksOf conn (w.loops loop).queue := by
    intro loop
    rw [ServerLoop.queue, ServerLoop.queue, tasksOf_append, tasksOf_append, hpending, htodo]
  refine ⟨?_, ?_, ?_⟩
  · intro loop hloop
    rw [hqueue]
    rw [haccepted, loopOf, hconn] at hloop
    exact h.homed loop hloop
  · intro hlt hstate
    rw [state, hconn] at hstate
    have huntouched := h.untouched (haccepted.mp hlt) hstate
    refine ⟨?_, ?_, ?_⟩
    · rw [hconn]
      exact huntouched.tcp_eq
    · rw [hconn]
      exact huntouched.trace_eq
    · rw [loopOf, hconn, hqueue]
      exact huntouched.queue_eq
  · intro hlt hstate
    rw [state, hconn] at hstate
    obtain ⟨r, hreach, hr⟩ := h.run (haccepted.mp hlt) hstate
    refine ⟨r, hreach, ?_, ?_, ?_, ?_⟩
    · rw [hconn, hr.conn_eq]
    · rw [hconn, hr.trace_eq]
    · rw [loopOf, hconn, hpending, hr.pending_eq]
    · rw [loopOf, hconn, htodo, hr.functors_eq]

theorem RunsAlone.modifyLoop (h : w.RunsAlone file conn)
    (hpending : tasksOf conn (g (w.loops loop)).pendingFunctors
      = tasksOf conn (w.loops loop).pendingFunctors)
    (htodo : tasksOf conn (g (w.loops loop)).todo = tasksOf conn (w.loops loop).todo) :
    (w.modifyLoop loop g).RunsAlone file conn := by
  refine h.congr rfl Iff.rfl ?_ ?_
  · intro other
    by_cases heq : other = loop
    · rw [heq, modifyLoop_loops_self, hpending]
    · rw [modifyLoop_loops_of_ne heq]
  · intro other
    by_cases heq : other = loop
    · rw [heq, modifyLoop_loops_self, htodo]
    · rw [modifyLoop_loops_of_ne heq]

theorem RunsAlone.userCode (h : w.RunsAlone file conn) :
    (w.modifyLoop loop fun l => { l with stack := .userCode :: l.stack }).RunsAlone file conn :=
  h.modifyLoop rfl rfl

theorem RunsAlone.push (h : w.RunsAlone file conn) {functor : ServerFunctor}
    (hnone : functor.taskOf conn = none) :
    (w.modifyLoop loop fun l => l.push functor).RunsAlone file conn := by
  refine h.modifyLoop ?_ rfl
  rw [ServerLoop.push, tasksOf_append, tasksOf_cons, hnone]
  exact List.append_nil _

theorem RunsAlone.onConnection_of_ne (h : w.RunsAlone file conn) (hne : other ≠ conn) :
    (w.onConnection other f).RunsAlone file conn := by
  refine h.congr (onConnection_conns_of_ne hne.symm) Iff.rfl ?_ ?_
  · intro loop
    rcases onConnection_loops_cases w other f loop with heq | heq <;> rw [heq]
    rw [ServerLoop.after, tasksOf_append, tasksOf_map_of_ne hne, List.append_nil]
  · intro loop
    rcases onConnection_loops_cases w other f loop with heq | heq <;> rw [heq]
    rfl

theorem RunsAlone.removeConnectionInLoop (h : w.RunsAlone file conn) (other : Nat) :
    (w.removeConnectionInLoop other).RunsAlone file conn := by
  have herased : ({ w with connections := Function.update w.connections (w.conns other).name none }
      : Server n).RunsAlone file conn := h.congr rfl Iff.rfl (fun _ => rfl) fun _ => rfl
  exact herased.push rfl

/-! ### Steps of the connection -/

/-- What a member function does on the server, it does to the connection alone. -/
theorem StandsFor.onConnection (h : w.StandsFor conn r)
    (hf : ∀ past queued (s t : Session Nat), Session.Resumes past queued s t →
      Session.Resumes past queued (f s) (f t)) :
    (w.onConnection conn f).StandsFor conn { r with session := f r.session } := by
  have hresumes : Session.Resumes r.session.trace r.session.pendingFunctors (w.session conn)
      r.session := ⟨h.conn_eq, (List.append_nil _).symm, (List.append_nil _).symm⟩
  have hafter := hf _ _ _ _ hresumes
  have hloop : (w.onConnection conn f).loopOf conn = w.loopOf conn := onConnection_loop conn
  refine ⟨?_, ?_, ?_, ?_⟩
  · rw [onConnection_conns_self]
    exact hafter.conn_eq
  · rw [onConnection_conns_self]
    calc (f r.session).trace = r.session.trace ++ (f (w.session conn)).trace := hafter.trace_eq
      _ = (w.conns conn).trace ++ (f (w.session conn)).trace := by rw [h.trace_eq]
  · rw [hloop, onConnection_loops_self, ServerLoop.after, tasksOf_append, tasksOf_map_self]
    calc (f r.session).pendingFunctors
        = r.session.pendingFunctors ++ (f (w.session conn)).pendingFunctors := hafter.pending_eq
      _ = _ := by rw [h.pending_eq]
  · rw [hloop, onConnection_loops_self]
    exact h.functors_eq

/-- Every functor of the connection waits in its own loop. -/
def Homed (w : Server n) (conn : Nat) : Prop :=
  ∀ loop, (conn < w.accepted → loop ≠ w.loopOf conn) → tasksOf conn (w.loops loop).queue = []

theorem Homed.onConnection (h : w.Homed conn) (hlt : conn < w.accepted) :
    (w.onConnection conn f).Homed conn := by
  intro loop hloop
  have hne : loop ≠ w.loopOf conn := by
    have := hloop hlt
    rwa [loopOf, onConnection_loop] at this
  rw [onConnection_loops_of_ne hne]
  exact h loop fun _ => hne

/-- A step of the connection, which `r` stands for up to the functor that is called in it. -/
theorem StandsFor.runsAlone (hr : w.StandsFor conn r) (hhomed : w.Homed conn)
    (hlt : conn < w.accepted)
    (hf : ∀ past queued (s t : Session Nat), Session.Resumes past queued s t →
      Session.Resumes past queued (f s) (f t))
    (hreach : (Running.system file).Reachable { r with session := f r.session }) :
    (w.onConnection conn f).RunsAlone file conn := by
  have hafter := hr.onConnection hf
  have hstate : (w.onConnection conn f).state conn ≠ .kConnecting := by
    rw [state, ← hafter.conn_eq]
    exact (Running.down_of_reachable file hreach).1
  exact ⟨hhomed.onConnection hlt, fun _ hconnecting => absurd hconnecting hstate,
    fun _ _ => ⟨_, hreach, hafter⟩⟩

/-- A member function that is called on any connection. -/
theorem RunsAlone.onConnection (h : w.RunsAlone file conn) (step : Step)
    (hf : ∀ past queued (s t : Session Nat), Session.Resumes past queued s t →
      Session.Resumes past queued (f s) (f t))
    (hstep : ∀ r, Running.step file r step = some { r with session := f r.session })
    (hready : other = conn → conn < w.accepted ∧ w.state conn ≠ .kConnecting) :
    (w.onConnection other f).RunsAlone file conn := by
  by_cases heq : other = conn
  · obtain ⟨hlt, hstate⟩ := hready heq
    obtain ⟨r, hreach, hr⟩ := h.run hlt hstate
    rw [heq]
    exact hr.runsAlone h.homed hlt hf (hreach.step trivial (hstep r))
  · exact h.onConnection_of_ne heq

/-- The connection of a loop with a functor taken off the rest of its batch. -/
theorem StandsFor.popped (h : w.StandsFor conn r) {rest : List ServerFunctor} :
    (w.modifyLoop (w.loopOf conn) fun l => { l with todo := rest }).StandsFor conn
      { r with functors := tasksOf conn rest } := by
  refine ⟨h.conn_eq, h.trace_eq, ?_, ?_⟩
  · change _ = tasksOf conn ((w.modifyLoop _ _).loops (w.loopOf conn)).pendingFunctors
    rw [modifyLoop_loops_self]
    exact h.pending_eq
  · change _ = tasksOf conn ((w.modifyLoop _ _).loops (w.loopOf conn)).todo
    rw [modifyLoop_loops_self]

theorem RunsAlone.connectEstablished (h : w.RunsAlone file conn) (hlt : conn < w.accepted)
    (huntouched : w.Untouched conn) :
    (w.onConnection conn Session.connectEstablished).RunsAlone file conn := by
  obtain ⟨fd, mark, size, cc, mc, wc, hc, cl, htcp⟩ := huntouched.tcp_eq
  have hqueue := huntouched.queue_eq
  rw [ServerLoop.queue, tasksOf_append, List.append_eq_nil_iff] at hqueue
  have hsession : w.session conn = Running.fresh conn (w.loops (w.loopOf conn)).poller fd mark size
      cc mc wc hc cl := by
    rw [session, htcp]
    rfl
  have hloop : (w.onConnection conn Session.connectEstablished).loopOf conn = w.loopOf conn :=
    onConnection_loop conn
  have hstands : (w.onConnection conn Session.connectEstablished).StandsFor conn
      ⟨(w.session conn).connectEstablished, []⟩ := by
    refine ⟨?_, ?_, ?_, ?_⟩
    · rw [onConnection_conns_self]
    · rw [onConnection_conns_self, huntouched.trace_eq]
      exact (List.nil_append _).symm
    · rw [hloop, onConnection_loops_self, ServerLoop.after, tasksOf_append, tasksOf_map_self,
        hqueue.1]
      exact (List.nil_append _).symm
    · rw [hloop, onConnection_loops_self]
      exact hqueue.2.symm
  have hinit : Running.Established (⟨(w.session conn).connectEstablished, []⟩ : Running Nat) :=
    ⟨conn, _, fd, mark, size, cc, mc, wc, hc, cl, by rw [hsession], rfl⟩
  have hreach : (Running.system file).Reachable ⟨(w.session conn).connectEstablished, []⟩ :=
    ⟨_, [], hinit, .nil _⟩
  have hstate : (w.onConnection conn Session.connectEstablished).state conn ≠ .kConnecting := by
    rw [state, ← hstands.conn_eq]
    exact (Running.down_of_reachable file hreach).1
  exact ⟨Homed.onConnection h.homed hlt, fun _ hconnecting => absurd hconnecting hstate,
    fun _ _ => ⟨_, hreach, hstands⟩⟩

/-- The batch that a loop swaps out is that of each of its connections. -/
theorem RunsAlone.doPendingFunctors (h : w.RunsAlone file conn) (htodo : (w.loops loop).todo = []) :
    (w.modifyLoop loop fun l =>
      { l with
        functors := l.pendingFunctors
        todo := l.pendingFunctors
        pendingFunctors := []
        phase := .calling }).RunsAlone file conn := by
  set swapped := w.modifyLoop loop _ with hswapped
  have hqueue : ∀ other, (swapped.loops other).queue = (w.loops other).queue := by
    intro other
    by_cases heq : other = loop
    · rw [heq, hswapped, modifyLoop_loops_self, ServerLoop.queue, ServerLoop.queue, htodo,
        List.append_nil, List.nil_append]
    · rw [hswapped, modifyLoop_loops_of_ne heq]
  refine ⟨?_, ?_, ?_⟩
  · intro other hother
    rw [hqueue]
    exact h.homed other hother
  · intro hlt hstate
    have huntouched := h.untouched hlt hstate
    refine ⟨huntouched.tcp_eq, huntouched.trace_eq, ?_⟩
    rw [hqueue]
    exact huntouched.queue_eq
  · intro hlt hstate
    obtain ⟨r, hreach, hr⟩ := h.run hlt hstate
    by_cases heq : w.loopOf conn = loop
    · subst heq
      have hempty : r.functors = [] := by
        rw [hr.functors_eq, htodo]
        rfl
      have hstep : (Running.system file).step r .doPendingFunctors
          = some ⟨{ r.session with pendingFunctors := [] }, r.session.pendingFunctors⟩ := if_pos hempty
      refine ⟨_, hreach.step trivial hstep, hr.conn_eq, hr.trace_eq, ?_, ?_⟩
      · change [] = tasksOf conn (swapped.loops (w.loopOf conn)).pendingFunctors
        rw [hswapped, modifyLoop_loops_self]
        rfl
      · change _ = tasksOf conn (swapped.loops (w.loopOf conn)).todo
        rw [hswapped, modifyLoop_loops_self]
        exact hr.pending_eq
    · have hloops : swapped.loops (w.loopOf conn) = w.loops (w.loopOf conn) :=
        modifyLoop_loops_of_ne heq
      refine ⟨r, hreach, hr.conn_eq, hr.trace_eq, ?_, ?_⟩
      · change _ = tasksOf conn (swapped.loops (w.loopOf conn)).pendingFunctors
        rw [hloops, hr.pending_eq]
      · change _ = tasksOf conn (swapped.loops (w.loopOf conn)).todo
        rw [hloops, hr.functors_eq]

/-! ### Each step of the server -/

theorem RunsAlone.insertConnection (h : w.RunsAlone file conn) (config : ServerConfig)
    (sockfd : Nat) : (w.insertConnection config sockfd).RunsAlone file conn := by
  by_cases heq : conn = w.accepted
  · subst heq
    have hnone : ∀ loop, tasksOf w.accepted (w.loops loop).queue = [] := fun loop =>
      h.homed loop fun hlt => absurd hlt (Nat.lt_irrefl _)
    have hself := w.insertConnection_conns_self config sockfd
    have hstate : (w.insertConnection config sockfd).state w.accepted = .kConnecting := by
      rw [state, hself]
      rfl
    refine ⟨fun loop _ => hnone loop, fun _ _ => ⟨?_, ?_, hnone _⟩, fun _ hne => absurd hstate hne⟩
    · rw [hself]
      exact ⟨_, _, _, _, _, _, _, _, rfl⟩
    · rw [hself]
  · refine h.congr (insertConnection_conns_of_ne config sockfd heq) ?_ (fun _ => rfl) fun _ => rfl
    change conn < w.accepted + 1 ↔ conn < w.accepted
    omega

theorem RunsAlone.newConnection (h : w.RunsAlone file conn) (config : ServerConfig)
    (sockfd : Nat) : (w.newConnection config sockfd).RunsAlone file conn := by
  have hinserted := h.insertConnection config sockfd
  simp only [Server.newConnection]
  split
  · by_cases heq : conn = w.accepted
    · subst heq
      have hlt : w.accepted < (w.insertConnection config sockfd).accepted := Nat.lt_succ_self _
      refine hinserted.connectEstablished hlt (hinserted.untouched hlt ?_)
      rw [state, insertConnection_conns_self]
      rfl
    · exact hinserted.onConnection_of_ne (Ne.symm heq)
  · exact hinserted.push rfl

theorem RunsAlone.handleEvent (h : w.RunsAlone file conn) (config : ServerConfig)
    (accepted : Option Nat) (active : ActiveChannel) :
    (w.handleEvent config loop accepted active).RunsAlone file conn := by
  cases active with
  | connection other revents =>
    simp only [Server.handleEvent]
    split
    · exact h.modifyLoop rfl rfl
    · exact h.congr rfl Iff.rfl (fun _ => rfl) fun _ => rfl
  | acceptor =>
    cases accepted with
    | none => exact h
    | some sockfd => exact h.newConnection config sockfd
  | wakeup => exact h

theorem Inv.ready (h : Inv config w) (hindex : (w.channel conn).index ≠ .kNew) :
    conn < w.accepted ∧ w.state conn ≠ .kConnecting :=
  ⟨h.created conn (h.live conn (.inl hindex)).1, fun hstate => hindex (h.connecting conn hstate)⟩

theorem RunsAlone.runFrame (h : w.RunsAlone file conn) (hinv : Inv config w) {frame : Frame}
    {rest : List Frame} (hstack : (w.loops loop).stack = frame :: rest)
    (read : Except Errno (List Byte)) (write : Except Errno Nat) :
    ((w.modifyLoop loop fun l => { l with stack := rest }).runFrame loop read write frame).RunsAlone
      file conn := by
  have hpop : (w.modifyLoop loop fun l => { l with stack := rest }).RunsAlone file conn :=
    h.modifyLoop rfl rfl
  have hmem : frame ∈ (w.loops loop).stack := by
    rw [hstack]
    exact List.mem_cons_self
  -- the handler of an event runs on a registered connection
  have hready : ∀ other, frame.event = some other → other = conn →
      conn < w.accepted ∧ w.state conn ≠ .kConnecting := by
    rintro other hevent rfl
    exact hinv.ready ((hinv.tracks loop other).event (.inr ⟨frame, hmem, hevent⟩)).2
  cases frame with
  | handleClose other =>
    exact hpop.onConnection .handleClose (fun _ _ _ _ h => h.handleClose) (fun _ => rfl)
      (hready other rfl)
  | handleError other =>
    exact hpop.onConnection .handleError (fun _ _ _ _ h => h) (fun _ => rfl) (hready other rfl)
  | handleRead other =>
    exact hpop.onConnection (f := fun s => s.handleRead read) (.handleRead read)
      (fun _ _ _ _ h => h.handleRead read) (fun _ => rfl) (hready other rfl)
  | handleWrite other =>
    exact hpop.onConnection (f := fun s => s.handleWrite write) (.handleWrite write)
      (fun _ _ _ _ h => h.handleWrite write) (fun _ => rfl) (hready other rfl)
  | removeConnection other =>
    simp only [Server.runFrame, removeConnection]
    split
    · exact hpop.removeConnectionInLoop other
    · exact hpop.push rfl
  | userCode => exact hpop

/-- A functor that the connection has queued for itself. -/
theorem RunsAlone.callTask (h : w.RunsAlone file conn) {t : Task} {rest : List ServerFunctor}
    (htodo : (w.loops loop).todo = .task conn t :: rest) (write : Except Errno Nat)
    (hdefined : ((w.modifyLoop loop fun l => { l with todo := rest }).callFunctor file loop write
      (.task conn t)).undefined = false) :
    ((w.modifyLoop loop fun l => { l with todo := rest }).callFunctor file loop write
      (.task conn t)).RunsAlone file conn := by
  have htasks : tasksOf conn (w.loops loop).todo = t :: tasksOf conn rest := by
    rw [htodo, tasksOf_cons, ServerFunctor.taskOf, if_pos rfl]
    rfl
  have hsome : tasksOf conn (w.loops loop).queue ≠ [] := by
    rw [ServerLoop.queue, tasksOf_append, htasks]
    exact List.append_ne_nil_of_right_ne_nil _ (List.cons_ne_nil _ _)
  obtain ⟨hlt, rfl⟩ : conn < w.accepted ∧ loop = w.loopOf conn := by
    by_contra hnot
    exact hsome (h.homed loop fun hlt heq => hnot ⟨hlt, heq⟩)
  have hstate : w.state conn ≠ .kConnecting := fun hconnecting =>
    hsome (h.untouched hlt hconnecting).queue_eq
  obtain ⟨r, hreach, hr⟩ := h.run hlt hstate
  have hstands : (w.modifyLoop (w.loopOf conn) fun l => { l with todo := rest }).StandsFor conn
      { r with functors := tasksOf conn rest } := hr.popped
  have hrun : (Running.system file).Reachable
      ⟨Running.runTask file r.session write t, tasksOf conn rest⟩ := by
    refine hreach.step trivial (a := .runFunctor write) ?_
    change Running.step file r (.runFunctor write) = _
    simp only [Running.step, hr.functors_eq, htasks]
  have hhomed : (w.modifyLoop (w.loopOf conn) fun l => { l with todo := rest }).Homed conn := by
    intro loop hloop
    have hne : loop ≠ w.loopOf conn := hloop hlt
    rw [modifyLoop_loops_of_ne hne]
    exact h.homed loop fun _ => hne
  cases t with
  | sendFileInLoop fileDescriptor offset count =>
    simp only [Server.callFunctor] at hdefined ⊢
    split
    · exact hstands.runsAlone hhomed hlt
        (fun _ _ _ _ h => h.sendFileInLoop file fileDescriptor offset count write) hrun
    · rename_i hdead
      rw [if_neg hdead] at hdefined
      cases hdefined
  | writeCompleteCallback =>
    have hcalled : (w.modifyLoop (w.loopOf conn) fun l => { l with todo := rest }).RunsAlone file
        conn := ⟨hhomed, fun _ hconnecting => absurd hconnecting hstate, fun _ _ => ⟨_, hrun, hstands⟩⟩
    exact hcalled.userCode
  | highWaterMarkCallback length =>
    have hcalled : (w.modifyLoop (w.loopOf conn) fun l => { l with todo := rest }).RunsAlone file
        conn := ⟨hhomed, fun _ hconnecting => absurd hconnecting hstate, fun _ _ => ⟨_, hrun, hstands⟩⟩
    exact hcalled.userCode

theorem RunsAlone.callFunctor (h : w.RunsAlone file conn) (hinv : Inv config w)
    {functor : ServerFunctor} {rest : List ServerFunctor}
    (htodo : (w.loops loop).todo = functor :: rest) (write : Except Errno Nat)
    (hdefined : ((w.modifyLoop loop fun l => { l with todo := rest }).callFunctor file loop write
      functor).undefined = false) :
    ((w.modifyLoop loop fun l => { l with todo := rest }).callFunctor file loop write
      functor).RunsAlone file conn := by
  have hpop : functor.taskOf conn = none →
      (w.modifyLoop loop fun l => { l with todo := rest }).RunsAlone file conn := by
    intro hnone
    refine h.modifyLoop rfl ?_
    rw [htodo, tasksOf_cons, hnone]
    rfl
  have hmem : functor ∈ (w.loops loop).queue := by
    apply List.mem_append_right _
    rw [htodo]
    exact List.mem_cons_self
  cases functor with
  | connectEstablished other =>
    obtain ⟨-, hstate⟩ := (hinv.tracks loop other).establishing hmem
    have hlt := hinv.created other (hinv.live other (.inr hstate)).1
    by_cases heq : other = conn
    · subst heq
      exact (hpop rfl).connectEstablished hlt ((hpop rfl).untouched hlt hstate)
    · exact (hpop rfl).onConnection_of_ne heq
  | connectDestroyed other =>
    refine (hpop rfl).onConnection .connectDestroyed (fun _ _ _ _ h => h.connectDestroyed)
      (fun _ => rfl) ?_
    rintro rfl
    obtain ⟨halive, hstate⟩ := (hinv.tracks loop other).removing (.inr (.inr hmem))
    exact ⟨hinv.created other halive, hstate⟩
  | removeConnectionInLoop other => exact (hpop rfl).removeConnectionInLoop other
  | task own t =>
    by_cases heq : own = conn
    · subst heq
      exact h.callTask htodo write hdefined
    · have hnone := hpop (if_neg heq)
      cases t with
      | sendFileInLoop fileDescriptor offset count =>
        simp only [Server.callFunctor]
        split
        · exact hnone.onConnection_of_ne heq
        · exact hnone.congr rfl Iff.rfl (fun _ => rfl) fun _ => rfl
      | writeCompleteCallback => exact hnone.userCode
      | highWaterMarkCallback length => exact hnone.userCode
  | user => exact (hpop rfl).userCode

/-- A call of the user, which does nothing on a connection that is not connected. -/
theorem RunsAlone.call (h : w.RunsAlone file conn) (hinv : Inv config w) (step : Step)
    (hidle : w.state other ≠ .kConnected → f (w.session other) = w.session other)
    (hf : ∀ past queued (s t : Session Nat), Session.Resumes past queued s t →
      Session.Resumes past queued (f s) (f t))
    (hstep : ∀ r, Running.step file r step = some { r with session := f r.session }) :
    (w.onConnection other f).RunsAlone file conn := by
  by_cases hstate : w.state other = .kConnected
  · refine h.onConnection step hf hstep ?_
    rintro rfl
    exact hinv.ready (hinv.connected other hstate)
  · rw [onConnection_of_eq (hidle hstate)]
    exact h

theorem RunsAlone.move (h : w.RunsAlone file conn) (hinv : Inv config w) {action : ServerAction n}
    (hmove : w.move file config action = some w') (hdefined : w'.undefined = false) :
    w'.RunsAlone file conn := by
  cases action with
  | poll loop active =>
    obtain ⟨-, rfl⟩ := guarded_eq_some.mp hmove
    exact h.modifyLoop rfl rfl
  | dispatch loop accepted =>
    obtain ⟨active, rest, -, -, rfl⟩ := move_dispatch hmove
    have hpop : (w.modifyLoop loop fun l => { l with activeChannels := rest }).RunsAlone file conn :=
      h.modifyLoop rfl rfl
    exact hpop.handleEvent config accepted active
  | frame loop read write =>
    obtain ⟨frame, rest, hstack, rfl⟩ := move_frame hmove
    exact h.runFrame hinv hstack read write
  | handled loop =>
    obtain ⟨-, rfl⟩ := guarded_eq_some.mp hmove
    exact h.modifyLoop rfl rfl
  | doPendingFunctors loop =>
    obtain ⟨⟨hphase, -⟩, rfl⟩ := guarded_eq_some.mp hmove
    exact h.doPendingFunctors ((hinv.phase loop).calling (by rw [hphase]; decide))
  | runFunctor loop write =>
    obtain ⟨functor, rest, htodo, -, rfl⟩ := move_runFunctor hmove
    exact h.callFunctor hinv htodo write hdefined
  | endBatch loop =>
    obtain ⟨-, rfl⟩ := guarded_eq_some.mp hmove
    exact h.modifyLoop rfl rfl
  | send loop other data write =>
    obtain ⟨-, rfl⟩ := guarded_eq_some.mp hmove
    exact h.call (f := fun s => s.send data write) hinv (.send data write)
      (fun hstate => if_neg hstate) (fun _ _ _ _ h => h.send data write) fun _ => rfl
  | sendFile loop other fileDescriptor offset count write =>
    obtain ⟨-, rfl⟩ := guarded_eq_some.mp hmove
    refine h.call (f := fun s => s.sendFile file fileDescriptor offset count write) hinv
      (.sendFile fileDescriptor offset count write) (fun hstate => if_neg ?_)
      (fun _ _ _ _ h => h.sendFile file fileDescriptor offset count write) fun _ => rfl
    rw [TcpConnection.connected, decide_eq_true_iff]
    exact hstate
  | shutdown loop other =>
    obtain ⟨-, rfl⟩ := guarded_eq_some.mp hmove
    exact h.call hinv .shutdown (fun hstate => if_neg hstate) (fun _ _ _ _ h => h.shutdown)
      fun _ => rfl
  | queueInLoop loop =>
    obtain rfl := Option.some.inj hmove
    exact h.push rfl
  | hold other =>
    obtain ⟨-, rfl⟩ := guarded_eq_some.mp hmove
    exact h.congr rfl Iff.rfl (fun _ => rfl) fun _ => rfl
  | drop other =>
    obtain rfl := Option.some.inj hmove
    exact h.congr rfl Iff.rfl (fun _ => rfl) fun _ => rfl

/-! ### Runs -/

theorem runsAlone_of_reachable (hreach : (system file config).Reachable w)
    (hfew : w.accepted < 2 ^ 31) (conn : Nat) : w.RunsAlone file conn := by
  have hall : w.accepted < 2 ^ 31 → (Inv config w ∧ w.Sheltered) ∧ w.RunsAlone file conn := by
    refine hreach.invariant (I := fun v => v.accepted < 2 ^ 31 →
      (Inv config v ∧ v.Sheltered) ∧ v.RunsAlone file conn) ?_ ?_
    · rintro v rfl -
      refine ⟨⟨inv_new config, sheltered_new⟩, fun _ _ => rfl, ?_, ?_⟩
      · exact fun hlt => absurd hlt (Nat.not_lt_zero conn)
      · exact fun hlt => absurd hlt (Nat.not_lt_zero conn)
    · rintro v action v' halone - hstep hfew'
      obtain ⟨⟨hinv, hsheltered⟩, hbefore⟩ := halone ((accepted_le_step hstep).trans_lt hfew')
      refine ⟨⟨step_inv (fun _ => hinv) hstep hfew', step_sheltered hinv hsheltered hstep hfew'⟩, ?_⟩
      obtain ⟨u, hmove, rfl⟩ := step_eq_some hstep
      have hdefined := (hsheltered.move hinv hmove).defined
      exact (hbefore.move hinv hmove hdefined).congr rfl Iff.rfl (fun _ => rfl) fun _ => rfl
  exact (hall hfew).2

/-- **Each connection runs alone.** In every state of every run of the server with fewer than `2 ^ 31`
accepted connections, whatever the other connections, loops and users do: what has happened to an
established connection is what happens in some run of that connection alone. -/
theorem connection_runs_alone (file : Nat → List Byte) {w : Server n}
    (hreach : (system file config).Reachable w) (hfew : w.accepted < 2 ^ 31) {conn : Nat}
    (hlt : conn < w.accepted) (hstate : w.state conn ≠ .kConnecting) :
    ∃ r, (Running.system file).Reachable r ∧ w.StandsFor conn r :=
  (runsAlone_of_reachable hreach hfew conn).run hlt hstate

/-- Two connections of one sub loop; the first has two bytes left to write. -/
def twoConnections (base sub : Fin (n + 1)) : List (ServerAction n) :=
  [.poll base [.acceptor, .acceptor], .dispatch base (some 7), .dispatch base (some 8),
    .poll sub [.wakeup], .dispatch sub none, .doPendingFunctors sub, .runFunctor sub (.ok 0),
    .send sub 0 [1, 2, 3] (.ok 1), .frame sub (.ok []) (.ok 0), .runFunctor sub (.ok 0)]

theorem connection_runs_alone_two :
    ∃ (w : Server 1) (r : Running Nat),
      (system (fun _ => []) echoServer).exec new (twoConnections 0 1) = some w ∧
      (Running.system fun _ => []).Reachable r ∧
      r.session.trace = [.connectionCallback true, .send [1, 2, 3], .write [1]] := by
  obtain ⟨w, hw, hfew, hlt, hstate, htrace⟩ : ∃ w : Server 1,
      (system (fun _ => []) echoServer).exec new (twoConnections 0 1) = some w ∧
      w.accepted < 2 ^ 31 ∧ 0 < w.accepted ∧ w.state 0 = .kConnected ∧
      (w.conns 0).trace = [.connectionCallback true, .send [1, 2, 3], .write [1]] :=
    ⟨_, rfl, by decide, by decide, rfl, rfl⟩
  obtain ⟨r, hreach, hr⟩ := connection_runs_alone _ (System.reachable_of_exec rfl hw) hfew hlt
    (by rw [hstate]; decide)
  exact ⟨w, r, hw, hreach, hr.trace_eq.trans htrace⟩

end Server

end MuduoCore
