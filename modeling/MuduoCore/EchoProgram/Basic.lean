import MuduoCore.EchoServer
import MuduoCore.InetAddress
import MuduoCore.TcpConnection.Past
import MuduoCore.TcpServer.Stacks

/-!
# The echo program

`src/main.cpp` with all its threads: a `TcpServer` whose `messageCallback_` is `onMessage`. A loop is
in `onMessage` from the step of `handleRead` that calls it to the step of its frame, while the other
loops go on. What every client is sent is what it has sent itself.
-/

namespace MuduoCore

variable {n : ℕ}

/-- `message` is the connection whose `onMessage` a loop is in, and `received` what `::readv` has
given each connection. -/
structure EchoProgram (n : ℕ) where
  server : Server n
  message : Fin (n + 1) → Option Nat
  received : Nat → List Byte

namespace EchoProgram

/-- `main` and the constructor of `EchoServer`. -/
def config : ServerConfig :=
  ServerConfig.listenOn
    { name := ['E', 'c', 'h', 'o', 'S', 'e', 'r', 'v', 'e', 'r']
      ipPort := []
      ipPort_length := by decide
      connectionCallback := true
      messageCallback := true
      writeCompleteCallback := false
      highWaterMarkCallback := false }
    (InetAddress.new 8080 ['0', '.', '0', '.', '0', '.', '0'])

def new : EchoProgram n where
  server := Server.new
  message _ := none
  received _ := []

/-- The bytes that `handleRead` takes from the socket. -/
def taken (c : TcpConnection) : Except Errno (List Byte) → List Byte
  | .ok ready => ready.take c.inputBuffer.raw.offered
  | .error _ => []

/-- The program when the server has called `handleRead`, and so maybe `onMessage`. -/
def afterRead (e : EchoProgram n) (loop : Fin (n + 1)) (conn : Nat)
    (read : Except Errno (List Byte)) (w : Server n) : EchoProgram n where
  server := w
  message :=
    if .messageCallback ∈ (w.conns conn).trace.drop (e.server.conns conn).trace.length then
      Function.update e.message loop (some conn)
    else e.message
  received := Function.update e.received conn
    (e.received conn ++ taken (e.server.conns conn).tcp read)

def stepFrame (file : Nat → List Byte) (e : EchoProgram n) (loop : Fin (n + 1))
    (read : Except Errno (List Byte)) (write : Except Errno Nat) : Option (EchoProgram n) :=
  match e.message loop, (e.server.loops loop).stack with
  | some conn, _ =>
      ((e.server.onConnection conn fun s => s.onMessage write).step file config
        (.frame loop read write)).map fun w =>
          { e with server := w, message := Function.update e.message loop none }
  | none, .handleRead conn :: _ =>
      (e.server.step file config (.frame loop read write)).map (e.afterRead loop conn read)
  | none, _ =>
      (e.server.step file config (.frame loop read write)).map fun w => { e with server := w }

def step (file : Nat → List Byte) (e : EchoProgram n) (action : ServerAction n) :
    Option (EchoProgram n) :=
  match action with
  | .frame loop read write => e.stepFrame file loop read write
  | action =>
      if action.ofUser then none
      else (e.server.step file config action).map fun w => { e with server := w }

def system (file : Nat → List Byte) : System (EchoProgram n) (ServerAction n) where
  init e := e = new
  step := step file

/-- No `EPIPE` or `ECONNRESET` where `onMessage` writes. -/
def Survives (e : EchoProgram n) : ServerAction n → Prop
  | .frame loop _ write =>
      ∀ conn ∈ e.message loop, ¬(e.server.session conn).SendFaults write
  | action => e.server.ReportsOnce action

/-- What a step does: it ends an `onMessage`, or may begin one, or is a step of the server. -/
theorem step_cases {file : Nat → List Byte} {e e' : EchoProgram n} {action : ServerAction n}
    (h : e.step file action = some e') :
    (∃ loop read write conn w, action = .frame loop read write ∧ e.message loop = some conn ∧
      (e.server.onConnection conn fun s => s.onMessage write).step file config
        (.frame loop read write) = some w ∧
      e' = { e with server := w, message := Function.update e.message loop none }) ∨
    (∃ loop read write conn rest w, action = .frame loop read write ∧ e.message loop = none ∧
      (e.server.loops loop).stack = .handleRead conn :: rest ∧
      e.server.step file config (.frame loop read write) = some w ∧
      e' = e.afterRead loop conn read w) ∨
    ∃ w, e.server.step file config action = some w ∧ e' = { e with server := w } ∧
      action.ofUser = false ∧
      ∀ loop read write, action = .frame loop read write → e.message loop = none ∧
        ∀ conn rest, (e.server.loops loop).stack ≠ .handleRead conn :: rest := by
  unfold step at h
  split at h
  · rename_i loop read write
    unfold stepFrame at h
    split at h
    · rename_i conn hmessage
      obtain ⟨w, hstep, rfl⟩ := Option.map_eq_some_iff.mp h
      exact .inl ⟨loop, read, write, conn, w, rfl, hmessage, hstep, rfl⟩
    · rename_i conn rest hmessage hstack
      obtain ⟨w, hstep, rfl⟩ := Option.map_eq_some_iff.mp h
      exact .inr (.inl ⟨loop, read, write, conn, rest, w, rfl, hmessage, hstack, hstep, rfl⟩)
    · rename_i hmessage hstack
      obtain ⟨w, hstep, rfl⟩ := Option.map_eq_some_iff.mp h
      refine .inr (.inr ⟨w, hstep, rfl, rfl, ?_⟩)
      intro loop' read' write' heq
      cases heq
      exact ⟨hmessage, hstack⟩
  · rename_i hframe
    split at h
    · cases h
    · rename_i huser
      obtain ⟨w, hstep, rfl⟩ := Option.map_eq_some_iff.mp h
      exact .inr (.inr ⟨w, hstep, rfl, Bool.eq_false_iff.mpr huser,
        fun loop read write heq => absurd heq (hframe loop read write)⟩)

end EchoProgram

/-! ### One connection -/

section Session

variable {κ : Type*} {s s' : Session κ} {received : List Byte}

/-- Before `connectEstablished`. -/
structure Unused (s : Session κ) : Prop where
  silent : Silent s.trace
  output : s.conn.outputBuffer.content = []
  input : s.conn.inputBuffer.content = []
  idle : s.conn.channel.isWriting = false
  message : s.conn.messageCallback = true

/-- In `onMessage`: what was read last is still in the input buffer. -/
structure Unanswered (s : Session κ) (received : List Byte) : Prop where
  stream : written s.trace ++ s.conn.outputBuffer.content ++ s.conn.inputBuffer.content = received
  flow : Flow s
  state : s.conn.state = .kConnected
  message : s.conn.messageCallback = true

theorem Unused.connectEstablished (h : Unused s) : Echoed s.connectEstablished [] := by
  obtain ⟨hstate, hbuffer, hwriting, -, events, hcallbacks, htrace⟩ := s.connectEstablished_spec
  have hsilent : Silent s.connectEstablished.trace := by
    rw [htrace]
    exact h.silent.append hcallbacks.silent
  have hoff : s.connectEstablished.conn.channel.isWriting = false := hwriting.trans h.idle
  have hempty : s.connectEstablished.conn.outputBuffer.content = [] := by
    rw [hbuffer]
    exact h.output
  have hfresh : .shutdownWrite ∉ s.connectEstablished.trace := fun hmem => (hsilent _ hmem).1 rfl
  refine ⟨?_, ?_, fun _ => ⟨⟨?_, ?_, .inl hstate, ?_, ?_⟩, hstate, ?_⟩⟩
  · rw [hsilent.written_eq, hempty, List.append_nil]
  · have hinput : s.connectEstablished.conn.inputBuffer = s.conn.inputBuffer := by
      simp [Session.connectEstablished, Session.enableReading, Session.tie]
    rw [hinput]
    exact h.input
  · rw [hsilent.written_eq, hsilent.accepted_eq, hempty, List.append_nil]
  · rw [hoff, hempty]
    decide
  · rw [hstate]
    exact iff_of_false hfresh (by simp)
  · exact Flow.finLast_of_notMem hfresh
  · have hmessage : s.connectEstablished.conn.messageCallback = s.conn.messageCallback := by
      simp [Session.connectEstablished, Session.enableReading, Session.tie]
    exact hmessage.trans h.message

theorem Echoed.state_ne (h : Echoed s received) : s.conn.state ≠ .kConnecting := by
  intro hconnecting
  obtain ⟨-, hstate, -⟩ := h.live (by rw [hconnecting]; decide)
  exact absurd (hconnecting.symm.trans hstate) (by decide)

theorem Unused.of_silent (h : Unused s) {events : List Event} (hevents : Silent events)
    (htrace : s'.trace = s.trace ++ events) (hconn : s'.conn = s.conn) : Unused s' := by
  refine ⟨?_, ?_, ?_, ?_, ?_⟩
  · rw [htrace]
    exact h.silent.append hevents
  · rw [hconn]
    exact h.output
  · rw [hconn]
    exact h.input
  · rw [hconn]
    exact h.idle
  · rw [hconn]
    exact h.message

theorem Unanswered.of_silent (h : Unanswered s received) {events : List Event}
    (hevents : Silent events) (htrace : s'.trace = s.trace ++ events) (hconn : s'.conn = s.conn) :
    Unanswered s' received := by
  refine ⟨?_, h.flow.of_silent hevents htrace ?_ ?_ ?_, ?_, ?_⟩
  · rw [htrace, written_append, hevents.written_eq, List.append_nil, hconn]
    exact h.stream
  · rw [hconn]
  · rw [hconn]
  · rw [hconn]
  · rw [hconn]
    exact h.state
  · rw [hconn]
    exact h.message

theorem Unanswered.onMessage (h : Unanswered s received) {answer : Except Errno Nat}
    (hfault : ¬s.SendFaults answer) : Echoed (s.onMessage answer) received := by
  have hechoed := Echoed.onMessage h.flow h.state h.message rfl rfl hfault
  rw [h.stream] at hechoed
  exact hechoed

theorem Echoed.read (h : Echoed s received) (hopen : s.conn.state ≠ .kDisconnected)
    {ready : List Byte} (hdata : ready ≠ []) :
    Unanswered (s.handleRead (.ok ready))
      (received ++ ready.take s.conn.inputBuffer.raw.offered) := by
  obtain ⟨hflow, hstate, hmessage⟩ := h.live hopen
  have hsome : Except.ok ready ≠ (.ok [] : Except Errno (List Byte)) := fun heq =>
    hdata (Except.ok.inj heq)
  obtain ⟨events, hcallbacks, htrace, -, hconn⟩ := s.handleRead_of_data hsome
  refine ⟨?_, hflow.handleRead hsome, ?_, ?_⟩
  · calc written (s.handleRead (.ok ready)).trace
          ++ (s.handleRead (.ok ready)).conn.outputBuffer.content
          ++ (s.handleRead (.ok ready)).conn.inputBuffer.content
        = written s.trace ++ s.conn.outputBuffer.content
          ++ (s.conn.inputBuffer.readFd (.ok ready)).1.content := by
          rw [htrace, written_append, hcallbacks.silent.written_eq, List.append_nil, hconn]
      _ = received ++ ready.take s.conn.inputBuffer.raw.offered := by
          rw [ValidBuffer.content_readFd, h.drained, List.nil_append, h.stream]
  · rw [hconn]
    exact hstate
  · rw [hconn]
    exact hmessage

/-- The last call of a connection that is down. -/
theorem Echoed.connectDestroyed (h : Echoed s received) (hdown : s.conn.state = .kDisconnected)
    (hidle : s.conn.channel.isWriting = false) : Echoed s.connectDestroyed received := by
  have hclosed : ClosedWith s s := ⟨hdown, hidle, rfl, rfl, rfl⟩
  refine h.closed hclosed.connectDestroyed ?_
  rw [s.connectDestroyed_of_ne (by rw [hdown]; decide)]
  exact h.drained

theorem Session.Resumes.onMessage {past : List Event} {queued : List Task} {t : Session κ}
    (h : Session.Resumes past queued s t) (answer : Except Errno Nat) :
    Session.Resumes past queued (s.onMessage answer) (t.onMessage answer) := by
  set emptied := { s.conn with inputBuffer := s.conn.inputBuffer.retrieveAllAsString.2 }
  have htaken : Session.Resumes past queued { s with conn := emptied } { t with conn := emptied } :=
    ⟨rfl, h.trace_eq, h.pending_eq⟩
  unfold Session.onMessage
  rw [h.conn_eq]
  exact htaken.send _ answer

end Session

/-! ### One connection of a server -/

namespace Server

variable {w w' : Server n} {conn : Nat} {f : Session Nat → Session Nat}

/-- The connection with all that happened to it. -/
def alone (w : Server n) (conn : Nat) : Session Nat :=
  { w.session conn with trace := (w.conns conn).trace }

theorem alone_onConnection (w : Server n) (conn : Nat)
    (hf : ∀ past queued (s t : Session Nat), Session.Resumes past queued s t →
      Session.Resumes past queued (f s) (f t)) :
    ((w.onConnection conn f).alone conn).trace = (f (w.alone conn)).trace ∧
      ((w.onConnection conn f).alone conn).conn = (f (w.alone conn)).conn := by
  have hafter := hf (w.conns conn).trace [] (w.session conn) (w.alone conn)
    ⟨rfl, (List.append_nil _).symm, rfl⟩
  have hself : (w.onConnection conn f).conns conn = { w.conns conn with
      tcp := (f (w.session conn)).conn
      trace := (w.conns conn).trace ++ (f (w.session conn)).trace } := onConnection_conns_self
  refine ⟨?_, ?_⟩
  · change ((w.onConnection conn f).conns conn).trace = _
    rw [hself, hafter.trace_eq]
  · change ((w.onConnection conn f).conns conn).tcp = _
    rw [hself, hafter.conn_eq]

theorem alone_congr (hconn : w'.conns conn = w.conns conn) :
    (w'.alone conn).trace = (w.alone conn).trace ++ [] ∧
      (w'.alone conn).conn = (w.alone conn).conn := by
  refine ⟨?_, ?_⟩
  · rw [List.append_nil]
    exact congrArg ServerConnection.trace hconn
  · exact congrArg ServerConnection.tcp hconn

end Server

end MuduoCore
