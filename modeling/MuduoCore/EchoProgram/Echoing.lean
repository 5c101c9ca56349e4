import MuduoCore.EchoProgram.Basic

/-!
# What the clients of the echo program are sent

A step of the program is about one connection, or about none, and a loop that is in `onMessage` does
nothing before its frame ends. So the streams of every connection follow those of the echo server.
-/

namespace MuduoCore

variable {n : ℕ}

namespace Server

/-- What a connection of the program has been sent is what it has sent, but for a message that its
loop is in. -/
structure Echoing (w : Server n) (message : Fin (n + 1) → Option Nat) (conn : Nat)
    (received : List Byte) : Prop where
  unseen : w.accepted ≤ conn → received = []
  unused : conn < w.accepted → w.state conn = .kConnecting →
    Unused (w.alone conn) ∧ received = []
  echoed : conn < w.accepted → w.state conn ≠ .kConnecting →
    message (w.loopOf conn) ≠ some conn → Echoed (w.alone conn) received
  unanswered : ∀ loop, message loop = some conn →
    loop = w.loopOf conn ∧ conn < w.accepted ∧ Unanswered (w.alone conn) received

variable {config : ServerConfig} {w w' : Server n} {message message' : Fin (n + 1) → Option Nat}
  {conn other : Nat} {received : List Byte} {loop : Fin (n + 1)} {f : Session Nat → Session Nat}

/-- A step that adds only events of no interest to what happened to the connection. -/
theorem Echoing.of_silent (h : w.Echoing message conn received) {events : List Event}
    (hevents : Silent events) (hloop : w'.loopOf conn = w.loopOf conn)
    (htrace : (w'.alone conn).trace = (w.alone conn).trace ++ events)
    (hconn : (w'.alone conn).conn = (w.alone conn).conn)
    (haccepted : conn < w'.accepted ↔ conn < w.accepted)
    (hmessage : ∀ loop, message' loop = some conn ↔ message loop = some conn) :
    w'.Echoing message' conn received := by
  have hstate : w'.state conn = w.state conn := congrArg TcpConnection.state hconn
  refine ⟨fun hle => h.unseen ?_, fun hlt hconnecting => ?_, fun hlt hne hquiet => ?_,
    fun loop hin => ?_⟩
  · exact Nat.not_lt.mp fun hlt => Nat.not_lt.mpr hle (haccepted.mpr hlt)
  · rw [hstate] at hconnecting
    obtain ⟨hunused, hnone⟩ := h.unused (haccepted.mp hlt) hconnecting
    exact ⟨hunused.of_silent hevents htrace hconn, hnone⟩
  · rw [hstate] at hne
    rw [hloop, Ne, hmessage] at hquiet
    exact (h.echoed (haccepted.mp hlt) hne hquiet).of_silent hevents htrace hconn
  · obtain ⟨hself, hlt, hunanswered⟩ := h.unanswered loop ((hmessage loop).mp hin)
    exact ⟨hself.trans hloop.symm, haccepted.mpr hlt, hunanswered.of_silent hevents htrace hconn⟩

theorem Echoing.congr (h : w.Echoing message conn received) (hconn : w'.conns conn = w.conns conn)
    (haccepted : conn < w'.accepted ↔ conn < w.accepted) : w'.Echoing message conn received := by
  have hloop : w'.loopOf conn = w.loopOf conn := by rw [loopOf, hconn]
  obtain ⟨htrace, htcp⟩ := alone_congr hconn
  exact h.of_silent silent_nil hloop htrace htcp haccepted fun _ => Iff.rfl

theorem Echoing.onConnection_of_ne (h : w.Echoing message conn received) (hne : other ≠ conn) :
    (w.onConnection other f).Echoing message conn received :=
  h.congr (onConnection_conns_of_ne hne.symm) Iff.rfl

/-- A member function, when the loop is not in `onMessage` of the connection. -/
theorem Echoing.onConnection (h : w.Echoing message conn received)
    (hquiet : message (w.loopOf conn) ≠ some conn)
    (hf : ∀ past queued (s t : Session Nat), Session.Resumes past queued s t →
      Session.Resumes past queued (f s) (f t))
    (hechoed : Echoed (f (w.alone conn)) received) :
    (w.onConnection conn f).Echoing message conn received := by
  obtain ⟨htrace, hconn⟩ := alone_onConnection w conn hf
  have hstate : (w.onConnection conn f).state conn = (f (w.alone conn)).conn.state :=
    congrArg TcpConnection.state hconn
  refine ⟨h.unseen, fun _ hconnecting => absurd (hstate.symm.trans hconnecting) hechoed.state_ne,
    fun _ _ _ => ?_, fun loop hin => ?_⟩
  · exact hechoed.of_silent silent_nil (htrace.trans (List.append_nil _).symm) hconn
  · obtain ⟨rfl, -, -⟩ := h.unanswered loop hin
    exact absurd hin hquiet

/-- A handler that reads nothing from the socket. -/
theorem Echoing.runFrame (h : w.Echoing message conn received) (hinv : Inv config w)
    (horderly : w.Orderly config conn) {frame : Frame} {rest : List Frame}
    (hstack : (w.loops loop).stack = frame :: rest) (hquiet : message loop = none)
    (hread : ∀ other, frame ≠ .handleRead other) (read : Except Errno (List Byte))
    (write : Except Errno Nat) :
    ((w.modifyLoop loop fun l => { l with stack := rest }).runFrame loop read write frame).Echoing
      message conn received := by
  have hpop : (w.modifyLoop loop fun l => { l with stack := rest }).Echoing message conn received :=
    h.congr rfl Iff.rfl
  -- a handler of the connection runs on its loop, which is in no `onMessage`
  have hself : frame.event = some conn → conn < w.accepted ∧ w.state conn ≠ .kConnecting ∧
      message (w.loopOf conn) ≠ some conn := by
    intro hevent
    obtain ⟨rfl, hlt, hne⟩ := hinv.handling hstack hevent
    exact ⟨hlt, hne, fun hin => by cases hquiet.symm.trans hin⟩
  cases frame with
  | handleClose other =>
    by_cases heq : other = conn
    · subst heq
      obtain ⟨hlt, hne, hidle⟩ := hself rfl
      exact hpop.onConnection hidle (fun _ _ _ _ h => h.handleClose)
        (hpop.echoed hlt hne hidle).handleClose
    · exact hpop.onConnection_of_ne heq
  | handleError other =>
    by_cases heq : other = conn
    · subst heq
      obtain ⟨hlt, hne, hidle⟩ := hself rfl
      exact hpop.onConnection hidle (fun _ _ _ _ h => h) (hpop.echoed hlt hne hidle)
    · exact hpop.onConnection_of_ne heq
  | handleRead other => exact absurd rfl (hread other)
  | handleWrite other =>
    by_cases heq : other = conn
    · subst heq
      obtain ⟨hlt, hne, hidle⟩ := hself rfl
      refine hpop.onConnection (f := fun s => s.handleWrite write) hidle
        (fun _ _ _ _ h => h.handleWrite write) ?_
      have hechoed := hpop.echoed hlt hne hidle
      by_cases hdown : w.state other = .kDisconnected
      · set down := (w.modifyLoop loop fun l => { l with stack := rest }).alone other
        have hclosed : ClosedWith down down :=
          ⟨hdown, (horderly.gone hdown).2.1, rfl, rfl, rfl⟩
        rw [hclosed.handleWrite write]
        exact hechoed
      · exact hechoed.handleWrite hdown write
    · exact hpop.onConnection_of_ne (f := fun s => s.handleWrite write) heq
  | removeConnection other =>
    simp only [Server.runFrame, removeConnection]
    split
    · exact hpop.congr rfl Iff.rfl
    · exact hpop.congr rfl Iff.rfl
  | userCode => exact hpop

/-- The connection is told UP, and has been sent nothing. -/
theorem Echoing.connectEstablished (h : w.Echoing message conn received) (hlt : conn < w.accepted)
    (hstate : w.state conn = .kConnecting) :
    (w.onConnection conn Session.connectEstablished).Echoing message conn received := by
  obtain ⟨hunused, rfl⟩ := h.unused hlt hstate
  refine h.onConnection (fun hin => ?_) (fun _ _ _ _ h => h.connectEstablished)
    hunused.connectEstablished
  obtain ⟨-, -, hunanswered⟩ := h.unanswered _ hin
  exact absurd (hstate.symm.trans hunanswered.state) (by decide)

theorem Echoing.callFunctor (h : w.Echoing message conn received) (hinv : Inv config w)
    (hhandshake : w.Handshake) (horderly : w.Orderly config conn) (file : Nat → List Byte)
    {functor : ServerFunctor} {rest : List ServerFunctor}
    (htodo : (w.loops loop).todo = functor :: rest) (write : Except Errno Nat) :
    ((w.modifyLoop loop fun l => { l with todo := rest }).callFunctor file loop write
      functor).Echoing message conn received := by
  have hpop : (w.modifyLoop loop fun l => { l with todo := rest }).Echoing message conn received :=
    h.congr rfl Iff.rfl
  have hmem : functor ∈ (w.loops loop).queue := by
    apply List.mem_append_right
    rw [htodo]
    exact List.mem_cons_self
  cases functor with
  | connectEstablished other =>
    by_cases heq : other = conn
    · subst heq
      obtain ⟨-, hstate⟩ := (hinv.tracks loop other).establishing hmem
      exact hpop.connectEstablished (hinv.created other (hinv.live other (.inr hstate)).1) hstate
    · exact hpop.onConnection_of_ne heq
  | connectDestroyed other =>
    by_cases heq : other = conn
    · subst heq
      have hdown := (hhandshake.settled other).removing ⟨loop, .inr (.inr hmem)⟩
      have hlt := hinv.created other ((hinv.tracks loop other).removing (.inr (.inr hmem))).1
      have hquiet : message (w.loopOf other) ≠ some other := by
        intro hin
        obtain ⟨-, -, hunanswered⟩ := h.unanswered _ hin
        exact absurd (hdown.symm.trans hunanswered.state) (by decide)
      have hne : w.state other ≠ .kConnecting := by
        rw [hdown]
        decide
      exact hpop.onConnection hquiet (fun _ _ _ _ h => h.connectDestroyed)
        ((hpop.echoed hlt hne hquiet).connectDestroyed hdown (horderly.gone hdown).2.1)
    · exact hpop.onConnection_of_ne heq
  | removeConnectionInLoop other => exact hpop.congr rfl Iff.rfl
  | user => exact hpop.congr rfl Iff.rfl
  | task other task =>
    cases task with
    | sendFileInLoop fileDescriptor offset count =>
      simp only [Server.callFunctor]
      split
      · by_cases heq : other = conn
        · subst heq
          set popped := w.modifyLoop loop fun l => { l with todo := rest }
          obtain ⟨htrace, hconn⟩ := alone_onConnection popped other
            (f := fun s => s.sendFileInLoop file fileDescriptor offset count write)
            fun _ _ _ _ h => h.sendFileInLoop file fileDescriptor offset count write
          obtain ⟨events, hsilent, hevents⟩ :=
            Session.sendFileInLoop_silent file (popped.alone other) fileDescriptor offset count write
          exact hpop.of_silent hsilent (onConnection_loop other) (htrace.trans hevents)
            (hconn.trans (Session.sendFileInLoop_conn ..)) Iff.rfl fun _ => Iff.rfl
        · exact hpop.onConnection_of_ne heq
      · exact hpop.congr rfl Iff.rfl
    | writeCompleteCallback => exact hpop.congr rfl Iff.rfl
    | highWaterMarkCallback length => exact hpop.congr rfl Iff.rfl

theorem unused_insertConnection (config : ServerConfig) (hset : config.messageCallback = true)
    (sockfd : Nat) : Unused ((w.insertConnection config sockfd).alone w.accepted) := by
  have hself := w.insertConnection_conns_self config sockfd
  have hconn : ((w.insertConnection config sockfd).alone w.accepted).conn
      = TcpConnection.new sockfd (64 * 1024 * 1024) Buffer.kInitialSize config.connectionCallback
        config.messageCallback config.writeCompleteCallback config.highWaterMarkCallback true := by
    change ((w.insertConnection config sockfd).conns w.accepted).tcp = _
    rw [hself]
  have htrace : ((w.insertConnection config sockfd).alone w.accepted).trace = [] := by
    change ((w.insertConnection config sockfd).conns w.accepted).trace = _
    rw [hself]
  refine ⟨?_, ?_, ?_, ?_, ?_⟩
  · rw [htrace]
    exact silent_nil
  · rw [hconn]
    exact ValidBuffer.content_new _
  · rw [hconn]
    exact ValidBuffer.content_new _
  · rw [hconn]
    exact Channel.new_isWriting sockfd
  · rw [hconn]
    exact hset

theorem Echoing.insertConnection (h : w.Echoing message conn received)
    (hset : config.messageCallback = true) (sockfd : Nat) :
    (w.insertConnection config sockfd).Echoing message conn received := by
  by_cases heq : conn = w.accepted
  · subst heq
    have hstate : (w.insertConnection config sockfd).state w.accepted = .kConnecting := by
      rw [state, insertConnection_conns_self]
      rfl
    refine ⟨fun hle => ?_, fun _ _ => ⟨unused_insertConnection config hset sockfd, ?_⟩,
      fun _ hne => absurd hstate hne, fun loop hin => ?_⟩
    · exact absurd hle (Nat.not_succ_le_self w.accepted)
    · exact h.unseen le_rfl
    · exact absurd (h.unanswered loop hin).2.1 (Nat.lt_irrefl _)
  · refine h.congr (insertConnection_conns_of_ne config sockfd heq) ?_
    change conn < w.accepted + 1 ↔ conn < w.accepted
    omega

theorem Echoing.newConnection (h : w.Echoing message conn received)
    (hset : config.messageCallback = true) (sockfd : Nat) :
    (w.newConnection config sockfd).Echoing message conn received := by
  have hinserted := h.insertConnection hset sockfd
  simp only [Server.newConnection]
  split
  · by_cases heq : conn = w.accepted
    · subst heq
      refine hinserted.connectEstablished (Nat.lt_succ_self _) ?_
      rw [state, insertConnection_conns_self]
      rfl
    · exact hinserted.onConnection_of_ne (Ne.symm heq)
  · exact hinserted.congr rfl Iff.rfl

/-- A step of the server that is no `handleRead`, and is made on no loop that is in `onMessage`. -/
theorem Echoing.move {file : Nat → List Byte} {action : ServerAction n}
    (h : w.Echoing message conn received) (hset : config.messageCallback = true)
    (hinv : Inv config w) (hhandshake : w.Handshake) (horderly : w.Orderly config conn)
    (hmove : w.move file config action = some w') (huser : action.ofUser = false)
    (hframe : ∀ loop read write, action = .frame loop read write → message loop = none ∧
      ∀ conn rest, (w.loops loop).stack ≠ .handleRead conn :: rest) :
    w'.Echoing message conn received := by
  cases action with
  | dispatch loop accepted =>
    obtain ⟨a, rest, -, -, rfl⟩ := move_dispatch hmove
    have hpop : (w.modifyLoop loop fun l => { l with activeChannels := rest }).Echoing message conn
        received := h.congr rfl Iff.rfl
    cases a with
    | connection other revents =>
      simp only [Server.handleEvent]
      split
      · exact hpop.congr rfl Iff.rfl
      · exact hpop.congr rfl Iff.rfl
    | acceptor =>
      cases accepted with
      | none => exact hpop
      | some sockfd => exact hpop.newConnection hset sockfd
    | wakeup => exact hpop
  | frame loop read write =>
    obtain ⟨frame, rest, hstack, rfl⟩ := move_frame hmove
    obtain ⟨hquiet, hread⟩ := hframe loop read write rfl
    refine h.runFrame hinv horderly hstack hquiet (fun other heq => ?_) read write
    exact hread other rest (heq ▸ hstack)
  | runFunctor loop write =>
    obtain ⟨functor, rest, htodo, -, rfl⟩ := move_runFunctor hmove
    exact h.callFunctor hinv hhandshake horderly file htodo write
  | poll loop active =>
    obtain ⟨-, rfl⟩ := guarded_eq_some.mp hmove
    exact h.congr rfl Iff.rfl
  | handled loop =>
    obtain ⟨-, rfl⟩ := guarded_eq_some.mp hmove
    exact h.congr rfl Iff.rfl
  | doPendingFunctors loop =>
    obtain ⟨-, rfl⟩ := guarded_eq_some.mp hmove
    exact h.congr rfl Iff.rfl
  | endBatch loop =>
    obtain ⟨-, rfl⟩ := guarded_eq_some.mp hmove
    exact h.congr rfl Iff.rfl
  | _ => cases huser

end Server

/-! ### A read, and `onMessage` -/

section Session

variable {κ : Type*} {s : Session κ} {received : List Byte}

/-- `handleRead` either calls `onMessage`, or takes nothing. -/
theorem Echoed.handleRead (h : Echoed s received) (hopen : s.conn.state ≠ .kDisconnected)
    (read : Except Errno (List Byte)) :
    (∃ more, (s.handleRead read).trace = s.trace ++ more ∧ .messageCallback ∉ more ∧
      EchoProgram.taken s.conn read = [] ∧ Echoed (s.handleRead read) received) ∨
    (s.handleRead read).trace = s.trace ++ [.messageCallback] ∧
      Unanswered (s.handleRead read) (received ++ EchoProgram.taken s.conn read) := by
  cases read with
  | error errno => exact .inl ⟨[], (List.append_nil _).symm, List.not_mem_nil, rfl, h⟩
  | ok ready =>
    by_cases hdata : ready = []
    · subst hdata
      have htrace := (congrArg Session.trace s.handleRead_eof).trans
        ((Session.handleClose_trace _).trans (List.append_assoc ..))
      refine .inl ⟨_, htrace, ?_, List.take_nil, h.readEnd⟩
      split <;> split <;> simp
    · obtain ⟨-, -, hmessage⟩ := h.live hopen
      refine .inr ⟨?_, h.read hopen hdata⟩
      rw [s.handleRead_ok hdata, Session.emitWhen_trace, if_pos hmessage]

theorem Updates.onMessage (s : Session κ) (answer : Except Errno Nat) :
    Updates s (s.onMessage answer) :=
  (Updates.setInputBuffer s _).trans (Updates.send _ _ answer)

theorem Calls.onMessage (s : Session κ) (answer : Except Errno Nat) :
    Calls [] s (s.onMessage answer) :=
  (Calls.setInputBuffer s _).silent (Calls.send _ _ answer)

end Session

namespace Server

variable {config : ServerConfig} {w : Server n} {message message' : Fin (n + 1) → Option Nat}
  {conn : Nat} {received taken : List Byte} {loop : Fin (n + 1)} {f : Session Nat → Session Nat}

theorem Echoing.tell (h : w.Echoing message conn received)
    (hmessage : ∀ loop, message' loop = some conn ↔ message loop = some conn) :
    w.Echoing message' conn received :=
  h.of_silent silent_nil rfl (List.append_nil _).symm rfl Iff.rfl hmessage

/-- `messageCallback_` is called from the handler that called it last. -/
theorem stack_messageCallback
    (hf : ∀ past queued (s t : Session Nat), Session.Resumes past queued s t →
      Session.Resumes past queued (f s) (f t))
    (htrace : (f (w.alone conn)).trace = (w.alone conn).trace ++ [.messageCallback]) :
    ((w.onConnection conn f).loops (w.loopOf conn)).stack.head? = some .userCode := by
  have hafter := hf (w.conns conn).trace [] (w.session conn) (w.alone conn)
    ⟨rfl, (List.append_nil _).symm, rfl⟩
  have hcalled : (f (w.session conn)).trace = [.messageCallback] :=
    (List.append_cancel_left (htrace.symm.trans hafter.trace_eq)).symm
  rw [onConnection_loops_self, ServerLoop.after, hcalled]
  rfl

/-- The loop of the connection begins an `onMessage`. -/
theorem Echoing.read (h : w.Echoing message conn received) (hlt : conn < w.accepted)
    (hf : ∀ past queued (s t : Session Nat), Session.Resumes past queued s t →
      Session.Resumes past queued (f s) (f t))
    (hunanswered : Unanswered (f (w.alone conn)) taken) :
    (w.onConnection conn f).Echoing (Function.update message (w.loopOf conn) (some conn)) conn
      taken := by
  obtain ⟨htrace, hconn⟩ := alone_onConnection w conn hf
  have hafter := hunanswered.of_silent silent_nil (htrace.trans (List.append_nil _).symm) hconn
  have hloop : (w.onConnection conn f).loopOf conn = w.loopOf conn := onConnection_loop conn
  have hself : Function.update message (w.loopOf conn) (some conn)
      ((w.onConnection conn f).loopOf conn) = some conn := by
    rw [hloop, Function.update_self]
  refine ⟨fun hle => absurd hlt (Nat.not_lt.mpr hle), fun _ hconnecting => ?_,
    fun _ _ hquiet => absurd hself hquiet, fun loop hin => ?_⟩
  · exact absurd (hconnecting.symm.trans hafter.state) (by decide)
  · refine ⟨?_, hlt, hafter⟩
    rw [hloop]
    by_contra hne
    rw [Function.update_of_ne hne] at hin
    exact hne (h.unanswered loop hin).1

/-- The loop of the connection ends an `onMessage`. -/
theorem Echoing.onMessage (h : w.Echoing message conn received) (hin : message loop = some conn)
    {write : Except Errno Nat} (hfault : ¬(w.session conn).SendFaults write) :
    (w.onConnection conn fun s => s.onMessage write).Echoing (Function.update message loop none)
      conn received := by
  obtain ⟨hloop, hlt, hunanswered⟩ := h.unanswered loop hin
  obtain ⟨htrace, hconn⟩ := alone_onConnection w conn
    (f := fun s => s.onMessage write) fun _ _ _ _ h => h.onMessage write
  have hechoed := (hunanswered.onMessage hfault).of_silent silent_nil
    (htrace.trans (List.append_nil _).symm) hconn
  refine ⟨fun hle => absurd hlt (Nat.not_lt.mpr hle),
    fun _ hconnecting => absurd hconnecting hechoed.state_ne, fun _ _ _ => hechoed,
    fun other hother => ?_⟩
  by_cases heq : other = loop
  · subst heq
    rw [Function.update_self] at hother
    cases hother
  · rw [Function.update_of_ne heq] at hother
    exact absurd ((h.unanswered other hother).1.trans hloop.symm) heq

end Server

/-! ### Every run of the program -/

namespace EchoProgram

variable {file : Nat → List Byte} {e e' : EchoProgram n} {w w' : Server n}
  {message : Fin (n + 1) → Option Nat} {received : Nat → List Byte} {action : ServerAction n}
  {loop : Fin (n + 1)} {conn : Nat}

structure Inv (w : Server n) (message : Fin (n + 1) → Option Nat) (received : Nat → List Byte) :
    Prop where
  server : Server.Inv config w
  handshake : w.Handshake
  seated : w.Seated
  orderly : ∀ conn, w.Orderly config conn
  talking : ∀ loop, message loop ≠ none → (w.loops loop).stack.head? = some .userCode
  echoing : ∀ conn, w.Echoing message conn (received conn)

theorem Inv.new : Inv (Server.new : Server n) (fun _ => none) fun _ => [] where
  server := Server.inv_new config
  handshake := Server.handshake_new
  seated _ hmem := by cases hmem
  orderly conn := Server.orderly_new config conn
  talking _ hmessage := absurd rfl hmessage
  echoing conn :=
    ⟨fun _ => rfl, fun hlt => absurd hlt (Nat.not_lt_zero conn),
      fun hlt => absurd hlt (Nat.not_lt_zero conn), fun _ hin => by cases hin⟩

/-- A loop that is in `onMessage` does nothing else. -/
theorem Inv.stackOf_ne (h : Inv w message received)
    (hmove : w.move file config action = some w')
    (hframe : ∀ loop read write, action = .frame loop read write → message loop = none)
    (hmessage : message loop ≠ none) : action.stackOf ≠ some loop := by
  have hbusy : (w.loops loop).stack ≠ [] := by
    intro hnil
    have hhead := h.talking loop hmessage
    rw [hnil] at hhead
    cases hhead
  intro hstack
  cases action with
  | dispatch other accepted =>
    obtain rfl := Option.some.inj hstack
    obtain ⟨-, -, -, ⟨-, hidle, -⟩, -⟩ := Server.move_dispatch hmove
    exact hbusy hidle.1
  | frame other read write =>
    obtain rfl := Option.some.inj hstack
    exact hmessage (hframe other read write rfl)
  | runFunctor other write =>
    obtain rfl := Option.some.inj hstack
    obtain ⟨-, -, -, ⟨-, hidle⟩, -⟩ := Server.move_runFunctor hmove
    exact hbusy hidle
  | _ => cases hstack

/-- What a step of the server keeps, whatever it reads. -/
theorem Inv.server_step (h : Inv w message received) (honce : w.ReportsOnce action)
    (hstep : w.step file config action = some w') (hfew : w'.accepted < 2 ^ 31) :
    Server.Inv config w' ∧ w'.Handshake ∧ w'.Seated ∧ ∀ conn, w'.Orderly config conn := by
  refine ⟨Server.step_inv (fun _ => h.server) hstep hfew,
    Server.step_handshake h.server h.handshake hstep hfew, ?_⟩
  obtain ⟨u, hmove, rfl⟩ := Server.step_eq_some hstep
  exact ⟨fun loop hmem => h.seated.move hmove loop hmem,
    fun conn => ((h.orderly conn).move h.server h.handshake honce hmove).congr rfl id rfl rfl⟩

/-- A step of the server that is no `handleRead`, on a loop that is in no `onMessage`. -/
theorem Inv.step (h : Inv w message received) (honce : w.ReportsOnce action)
    (huser : action.ofUser = false)
    (hframe : ∀ loop read write, action = .frame loop read write → message loop = none ∧
      ∀ conn rest, (w.loops loop).stack ≠ .handleRead conn :: rest)
    (hstep : w.step file config action = some w') (hfew : w'.accepted < 2 ^ 31) :
    Inv w' message received := by
  obtain ⟨hinv, hhandshake, hseated, horderly⟩ := h.server_step honce hstep hfew
  obtain ⟨u, hmove, rfl⟩ := Server.step_eq_some hstep
  refine ⟨hinv, hhandshake, hseated, horderly, fun loop hmessage => ?_, fun conn => ?_⟩
  · have hother := h.stackOf_ne hmove (fun loop read write heq => (hframe loop read write heq).1)
      hmessage
    exact (congrArg List.head? (Server.move_stack h.server h.seated hmove huser hother)).trans
      (h.talking loop hmessage)
  · exact ((h.echoing conn).move rfl h.server h.handshake (h.orderly conn) hmove huser hframe).congr
      rfl Iff.rfl

/-- `onMessage` of a connection, on its loop. -/
theorem Inv.onMessage (h : Inv w message received) (hin : message loop = some conn)
    {write : Except Errno Nat} (hfault : ¬(w.session conn).SendFaults write) :
    Inv (w.onConnection conn fun s => s.onMessage write) (Function.update message loop none)
      received := by
  obtain ⟨hloop, -, hunanswered⟩ := (h.echoing conn).unanswered loop hin
  have hstate : w.state conn = .kConnected := hunanswered.state
  have hne : w.state conn ≠ .kConnecting := by
    rw [hstate]
    decide
  have hupdates := Updates.onMessage (w.session conn) write
  have hcalls := Calls.onMessage (w.session conn) write
  have hindex := h.server.connected conn hstate
  refine ⟨h.server.onRegistered hindex hupdates.keeps,
    h.handshake.staysUp (.inl ⟨hindex, hne⟩) hupdates.staysUp, h.seated.onConnection,
    fun other => ?_, fun other hmessage => ?_, fun other => ?_⟩
  · by_cases heq : conn = other
    · subst heq
      exact (h.orderly conn).quiet hcalls hupdates.staysUp.state_eq fun hdown =>
        absurd (hstate.symm.trans hdown) (by decide)
    · exact (h.orderly other).onConnection_of_ne heq
  · have hother : other ≠ loop := by
      rintro rfl
      exact hmessage (Function.update_self ..)
    rw [Function.update_of_ne hother] at hmessage
    exact (congrArg List.head? (Server.onConnection_stack fun _ => hcalls.callbacks_eq)).trans
      (h.talking other hmessage)
  · by_cases heq : conn = other
    · subst heq
      exact (h.echoing conn).onMessage hin hfault
    · refine ((h.echoing other).onConnection_of_ne heq).tell fun l => ?_
      by_cases hl : l = loop
      · subst hl
        rw [Function.update_self, hin]
        exact iff_of_false (Option.some_ne_none other).symm fun hsame =>
          heq (Option.some.inj hsame)
      · rw [Function.update_of_ne hl]

/-- A `handleRead`, which may begin an `onMessage`. -/
theorem Inv.read (h : Inv w message received) (hmessage : message loop = none)
    {rest : List Frame} (hstack : (w.loops loop).stack = .handleRead conn :: rest)
    {read : Except Errno (List Byte)} {write : Except Errno Nat}
    (hstep : w.step file config (.frame loop read write) = some w') (hfew : w'.accepted < 2 ^ 31) :
    ∃ more, (w'.conns conn).trace = (w.conns conn).trace ++ more ∧
      Inv w' (if .messageCallback ∈ more then Function.update message loop (some conn) else message)
        (Function.update received conn (received conn ++ taken (w.conns conn).tcp read)) := by
  obtain ⟨hinv, hhandshake, hseated, horderly⟩ := h.server_step
    (show w.ReportsOnce (.frame loop read write) from trivial) hstep hfew
  obtain ⟨rfl, hlt, hne⟩ := h.server.handling hstack rfl
  have hopen : w.state conn ≠ .kDisconnected :=
    ((h.orderly conn).handling hstack (if_pos rfl)).2.2 (.inr rfl)
  obtain ⟨u, hmove, rfl⟩ := Server.step_eq_some hstep
  have hothers : ∀ other, other ≠ w.loopOf conn →
      (u.loops other).stack = (w.loops other).stack := fun other hother =>
    Server.move_stack h.server h.seated hmove rfl fun heq => hother (Option.some.inj heq).symm
  obtain ⟨frame, rest', hstack', hrun⟩ := Server.move_frame hmove
  cases hstack.symm.trans hstack'
  set popped := w.modifyLoop (w.loopOf conn) fun l => { l with stack := rest }
  obtain rfl : u = popped.onConnection conn fun s => s.handleRead read := hrun
  have hpop : ∀ other, popped.Echoing message other (received other) := fun other =>
    (h.echoing other).congr rfl Iff.rfl
  have hunrelated : ∀ other, conn ≠ other →
      (popped.onConnection conn fun s => s.handleRead read).Echoing message other
        (received other) := fun other heq => (hpop other).onConnection_of_ne heq
  have hidle : message (popped.loopOf conn) ≠ some conn := fun hin => by
    cases hmessage.symm.trans hin
  have hresumes : ∀ past queued (s t : Session Nat), Session.Resumes past queued s t →
      Session.Resumes past queued (s.handleRead read) (t.handleRead read) :=
    fun _ _ _ _ hresumes => hresumes.handleRead read
  have htrace := (Server.alone_onConnection popped conn hresumes).1
  rcases ((hpop conn).echoed hlt hne hidle).handleRead hopen read with
    ⟨more, hmore, hquiet, htaken, hafter⟩ | ⟨hmore, hafter⟩
  · refine ⟨more, htrace.trans hmore, ?_⟩
    rw [if_neg hquiet]
    have hreceived : received conn ++ taken (w.conns conn).tcp read = received conn :=
      (congrArg (received conn ++ ·) htaken).trans (List.append_nil _)
    rw [hreceived, Function.update_eq_self]
    refine ⟨hinv, hhandshake, hseated, horderly, fun other hin => ?_, fun other => ?_⟩
    · have hother : other ≠ w.loopOf conn := by
        rintro rfl
        exact hin hmessage
      exact (congrArg List.head? (hothers other hother)).trans (h.talking other hin)
    · by_cases heq : conn = other
      · subst heq
        exact ((hpop conn).onConnection hidle hresumes hafter).congr rfl Iff.rfl
      · exact (hunrelated other heq).congr rfl Iff.rfl
  · refine ⟨_, htrace.trans hmore, ?_⟩
    rw [if_pos List.mem_cons_self]
    refine ⟨hinv, hhandshake, hseated, horderly, fun other hin => ?_, fun other => ?_⟩
    · by_cases hother : other = w.loopOf conn
      · subst hother
        exact Server.stack_messageCallback hresumes hmore
      · rw [Function.update_of_ne hother] at hin
        exact (congrArg List.head? (hothers other hother)).trans (h.talking other hin)
    · by_cases heq : conn = other
      · subst heq
        rw [Function.update_self]
        exact ((hpop conn).read hlt hresumes hafter).congr rfl Iff.rfl
      · rw [Function.update_of_ne (Ne.symm heq)]
        refine ((hunrelated other heq).tell fun l => ?_).congr rfl Iff.rfl
        by_cases hl : l = w.loopOf conn
        · subst hl
          rw [Function.update_self, hmessage]
          exact iff_of_false (fun hsame => heq (Option.some.inj hsame))
            (Option.some_ne_none other).symm
        · rw [Function.update_of_ne hl]

theorem Survives.reportsOnce (h : e.Survives action) : e.server.ReportsOnce action := by
  cases action with
  | frame loop read write => trivial
  | _ => exact h

theorem inv_step (h : e.server.accepted < 2 ^ 31 → Inv e.server e.message e.received)
    (hok : e.Survives action) (hstep : e.step file action = some e')
    (hfew : e'.server.accepted < 2 ^ 31) : Inv e'.server e'.message e'.received := by
  rcases step_cases hstep with ⟨loop, read, write, conn, w, rfl, hin, hserver, rfl⟩
    | ⟨loop, read, write, conn, rest, w, rfl, hmessage, hstack, hserver, rfl⟩
    | ⟨w, hserver, rfl, huser, hframe⟩
  · have hbefore := h ((Server.accepted_le_step hserver).trans_lt hfew)
    have hhead := hbefore.talking loop (by rw [hin]; exact Option.some_ne_none conn)
    have hcalls := Calls.onMessage (e.server.session conn) write
    have hstack : ((e.server.onConnection conn fun s => s.onMessage write).loops loop).stack
        = (e.server.loops loop).stack := Server.onConnection_stack fun _ => hcalls.callbacks_eq
    refine (hbefore.onMessage hin (hok conn hin)).step
      (show Server.ReportsOnce _ (.frame loop read write) from trivial) rfl
      (fun other _ _ heq => ?_) hserver hfew
    cases heq
    refine ⟨Function.update_self .., fun conn rest heq => ?_⟩
    rw [← hstack, heq] at hhead
    cases hhead
  · have hbefore := h ((Server.accepted_le_step hserver).trans_lt hfew)
    obtain ⟨more, htrace, hafter⟩ := hbefore.read hmessage hstack hserver hfew
    rw [afterRead, htrace, List.drop_left]
    exact hafter
  · have hbefore := h ((Server.accepted_le_step hserver).trans_lt hfew)
    exact hbefore.step hok.reportsOnce huser hframe hserver hfew

theorem inv_of_reachable (h : (system file).ReachableUnder Survives e)
    (hfew : e.server.accepted < 2 ^ 31) : Inv e.server e.message e.received := by
  refine h.invariant (I := fun v => v.server.accepted < 2 ^ 31 →
    Inv v.server v.message v.received) ?_ ?_ hfew
  · rintro v rfl -
    exact Inv.new
  · exact fun _ _ _ hinv hok hstep => inv_step hinv hok hstep

/-- **The program echoes**: what a connection has been sent, what waits in its output buffer, and, in
`onMessage`, what waits in its input buffer, are the bytes that were read from it, in their order. So
in every run with fewer than `2 ^ 31` connections, whatever the threads do meanwhile. -/
theorem echoes (file : Nat → List Byte) {e : EchoProgram n}
    (h : (system file).ReachableUnder Survives e) (hfew : e.server.accepted < 2 ^ 31) {conn : Nat}
    (hlt : conn < e.server.accepted) :
    written (e.server.conns conn).trace ++ (e.server.conns conn).tcp.outputBuffer.content
        ++ (e.server.conns conn).tcp.inputBuffer.content = e.received conn ∧
      ((∀ loop, e.message loop ≠ some conn) →
        (e.server.conns conn).tcp.inputBuffer.content = []) := by
  have hechoing := (inv_of_reachable h hfew).echoing conn
  by_cases hin : ∃ loop, e.message loop = some conn
  · obtain ⟨loop, hin⟩ := hin
    exact ⟨(hechoing.unanswered loop hin).2.2.stream, fun hquiet => absurd hin (hquiet loop)⟩
  have hquiet : ∀ loop, e.message loop ≠ some conn := not_exists.mp hin
  by_cases hstate : e.server.state conn = .kConnecting
  · obtain ⟨hunused, hnone⟩ := hechoing.unused hlt hstate
    refine ⟨?_, fun _ => hunused.input⟩
    rw [hnone, show written (e.server.conns conn).trace = [] from hunused.silent.written_eq,
      show (e.server.conns conn).tcp.outputBuffer.content = [] from hunused.output,
      show (e.server.conns conn).tcp.inputBuffer.content = [] from hunused.input]
    rfl
  · have hechoed := hechoing.echoed hlt hstate (hquiet _)
    refine ⟨?_, fun _ => hechoed.drained⟩
    rw [show (e.server.conns conn).tcp.inputBuffer.content = [] from hechoed.drained,
      List.append_nil]
    exact hechoed.stream

/-- A connection of the main loop sends two bytes, and the socket takes the first of them back. -/
theorem echoes_hi :
    ∃ e : EchoProgram 0, (system fun _ => []).ReachableUnder Survives e ∧
      e.received 0 = [104, 105] ∧
      written (e.server.conns 0).trace ++ (e.server.conns 0).tcp.outputBuffer.content
        ++ (e.server.conns 0).tcp.inputBuffer.content = [104, 105] ∧
      (e.server.conns 0).tcp.inputBuffer.content = [] := by
  have hrun : ((system fun _ => []).exec (new : EchoProgram 0)
      [.poll 0 [.acceptor], .dispatch 0 (some 7), .frame 0 (.ok []) (.ok 0),
        .doPendingFunctors 0, .endBatch 0, .poll 0 [.connection 0 EPOLLIN], .dispatch 0 none,
        .frame 0 (.ok [104, 105]) (.ok 0), .frame 0 (.ok []) (.ok 1)]).any
      (fun e => decide (e.server.accepted = 1 ∧ e.received 0 = [104, 105] ∧ e.message 0 = none))
      = true := by decide +kernel
  obtain ⟨e, he, hafter⟩ := Option.any_eq_true _ _ |>.mp hrun
  obtain ⟨haccepted, hreceived, hquiet⟩ := of_decide_eq_true hafter
  have hreach : (system fun _ => []).ReachableUnder Survives e := by
    have hin : ¬ClosesAndReads EPOLLIN := by decide
    refine ⟨new, _, rfl, System.runUnder_of_exec ?_ he⟩
    simp [Survives, Server.ReportsOnce, Session.not_sendFaults_ok, List.filterMap,
      ActiveChannel.conn, ActiveChannel.Plain, hin]
  obtain ⟨hstream, hdrained⟩ := echoes _ hreach (by rw [haccepted]; decide)
    (Nat.lt_of_lt_of_eq Nat.zero_lt_one haccepted.symm)
  refine ⟨e, hreach, hreceived, hstream.trans hreceived, hdrained fun loop hin => ?_⟩
  obtain rfl : loop = 0 := Fin.eq_zero loop
  cases hquiet.symm.trans hin

end EchoProgram

end MuduoCore
