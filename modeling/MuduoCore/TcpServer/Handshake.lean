import MuduoCore.TcpConnection.Disconnected
import MuduoCore.TcpConnection.Updates
import MuduoCore.TcpServer.Lifetime

/-!
# The close handshake

A close takes three hops: `handleClose` on the loop of the connection, `removeConnectionInLoop` on the
main loop and `connectDestroyed` on the loop of the connection again. Each hop leaves the next one in
the stack or the queue of a loop, so that a connection is either up and in `connections_`, or one of the
hops is still to come, or all of them are done.
-/

namespace MuduoCore

variable {n : ℕ} {config : ServerConfig}

/-- The connection whose handshake the functor is a part of. -/
def ServerFunctor.handshake : ServerFunctor → Option Nat
  | connectEstablished conn | connectDestroyed conn | removeConnectionInLoop conn => some conn
  | task _ _ | user => none

namespace ServerLoop

/-- The loops have the same parts of the handshake of `conn` left to do. -/
structure SameFor (conn : Nat) (l' l : ServerLoop) : Prop where
  frame : .removeConnection conn ∈ l'.stack ↔ .removeConnection conn ∈ l.stack
  removal : .removeConnectionInLoop conn ∈ l'.queue ↔ .removeConnectionInLoop conn ∈ l.queue
  destroying : .connectDestroyed conn ∈ l'.queue ↔ .connectDestroyed conn ∈ l.queue
  establishing : .connectEstablished conn ∈ l'.queue ↔ .connectEstablished conn ∈ l.queue

namespace SameFor

variable {conn : Nat} {l l' l'' : ServerLoop}

theorem of_eq (hstack : l'.stack = l.stack) (hqueue : l'.queue = l.queue) : SameFor conn l' l := by
  refine ⟨?_, ?_, ?_, ?_⟩
  · rw [hstack]
  · rw [hqueue]
  · rw [hqueue]
  · rw [hqueue]

theorem refl (l : ServerLoop) : SameFor conn l l := of_eq rfl rfl

theorem trans (hsnd : SameFor conn l'' l') (hfst : SameFor conn l' l) : SameFor conn l'' l :=
  ⟨hsnd.frame.trans hfst.frame, hsnd.removal.trans hfst.removal,
    hsnd.destroying.trans hfst.destroying, hsnd.establishing.trans hfst.establishing⟩

theorem removing (h : SameFor conn l' l) : l'.Removing conn ↔ l.Removing conn :=
  or_congr h.frame (or_congr h.removal h.destroying)

/-- A queue that differs in functors of no handshake, or of another connection's. -/
theorem of_queue (hstack : l'.stack = l.stack)
    (hqueue : ∀ functor : ServerFunctor, functor.handshake = some conn →
      (functor ∈ l'.queue ↔ functor ∈ l.queue)) : SameFor conn l' l :=
  ⟨by rw [hstack], hqueue _ rfl, hqueue _ rfl, hqueue _ rfl⟩

theorem push (l : ServerLoop) {functor : ServerFunctor} (hother : functor.handshake ≠ some conn) :
    SameFor conn (l.push functor) l := by
  refine of_queue rfl fun other hhandshake => ?_
  rw [mem_queue_push, or_iff_left]
  rintro rfl
  exact hother hhandshake

theorem todo {functor : ServerFunctor} {rest : List ServerFunctor}
    (htodo : l.todo = functor :: rest) (hother : functor.handshake ≠ some conn) :
    SameFor conn { l with todo := rest } l := by
  refine of_queue rfl fun other hhandshake => ?_
  constructor
  · intro hmem
    exact (shrinks_todo htodo).queue.subset hmem
  · intro hmem
    apply mem_queue_todo htodo hmem
    rintro rfl
    exact hother hhandshake

theorem stack {frame : Frame} {rest : List Frame} (hstack : l.stack = frame :: rest)
    (hother : frame ≠ .removeConnection conn) : SameFor conn { l with stack := rest } l := by
  refine ⟨?_, Iff.rfl, Iff.rfl, Iff.rfl⟩
  rw [hstack, List.mem_cons, or_iff_right hother.symm]

theorem after (l : ServerLoop) (other : Nat) (s : Session Nat)
    (hclose : other = conn → .closeCallback ∉ s.trace) : SameFor conn (l.after other s) l := by
  refine ⟨?_, mem_queue_after (by simp), mem_queue_after (by simp), mem_queue_after (by simp)⟩
  constructor
  · intro hmem
    refine (List.mem_append.mp hmem).resolve_left fun hcallback => ?_
    obtain heq | ⟨heq, hclosed⟩ := mem_callbackFrames hcallback
    · cases heq
    · cases heq
      exact hclose rfl hclosed
  · exact fun hmem => List.mem_append_right _ hmem

end SameFor

theorem mem_stack_after {l : ServerLoop} {conn : Nat} {s : Session Nat}
    (hclose : .closeCallback ∈ s.trace) : .removeConnection conn ∈ (l.after conn s).stack :=
  List.mem_append_left _ (List.mem_filterMap.mpr ⟨_, hclose, rfl⟩)

end ServerLoop

namespace Server

/-- A hop of the close is still to come. -/
def Removing (w : Server n) (conn : Nat) : Prop := ∃ loop, (w.loops loop).Removing conn

def Destroying (w : Server n) (conn : Nat) : Prop :=
  ∃ loop, .connectDestroyed conn ∈ (w.loops loop).queue

def Establishing (w : Server n) (conn : Nat) : Prop :=
  .connectEstablished conn ∈ (w.loops (w.loopOf conn)).queue

/-- Where the connection is in its handshakes. -/
structure Settled (w : Server n) (conn : Nat) : Prop where
  callback : conn < w.accepted → (w.conns conn).tcp.closeCallback = true
  connecting : w.state conn = .kConnecting →
    w.Establishing conn ∧ (w.channel conn).events = Channel.kNoneEvent
  mapped : conn < w.accepted → w.state conn ≠ .kDisconnected → w.Mapped conn
  up : w.state conn = .kConnected ∨ w.state conn = .kDisconnecting → Watching (w.channel conn)
  down : conn < w.accepted → w.state conn = .kDisconnected →
    .closeCallback ∈ (w.conns conn).trace ∧
      (w.Removing conn ∨ (w.channel conn).index = .kNew ∧ ¬w.Mapped conn)
  removing : w.Removing conn → w.state conn = .kDisconnected
  destroying : w.Destroying conn → ¬w.Mapped conn

/-- Entries of `connections_` stand under the names of their connections. -/
def Named (w : Server n) : Prop :=
  ∀ name conn, w.connections name = some conn → conn < w.accepted ∧ (w.conns conn).name = name

/-- `closeCallback_` is called in the dispatch phase only. -/
def Framed (w : Server n) : Prop :=
  ∀ loop conn, .removeConnection conn ∈ (w.loops loop).stack → (w.loops loop).phase = .dispatching

variable {w w' : Server n} {loop : Fin (n + 1)} {conn : Nat}

/-! ### Connections that a step is not about -/

theorem removing_congr (hloops : ∀ loop, (w'.loops loop).SameFor conn (w.loops loop)) :
    w'.Removing conn ↔ w.Removing conn :=
  exists_congr fun loop => (hloops loop).removing

theorem Settled.congr (h : w.Settled conn) (hconn : w'.conns conn = w.conns conn)
    (haccepted : conn < w'.accepted → conn < w.accepted) (hmapped : w'.Mapped conn ↔ w.Mapped conn)
    (hloops : ∀ loop, (w'.loops loop).SameFor conn (w.loops loop)) : w'.Settled conn := by
  have hremoving := removing_congr hloops
  have hestablishing : w'.Establishing conn ↔ w.Establishing conn := by
    rw [Establishing, Establishing, loopOf, hconn]
    exact (hloops _).establishing
  have hdestroying : w'.Destroying conn ↔ w.Destroying conn :=
    exists_congr fun loop => (hloops loop).destroying
  refine ⟨?_, ?_, ?_, ?_, ?_, ?_, ?_⟩
  · rw [hconn]
    exact fun hc => h.callback (haccepted hc)
  · rw [state, channel, hconn, hestablishing]
    exact h.connecting
  · rw [state, hconn, hmapped]
    exact fun hc => h.mapped (haccepted hc)
  · rw [state, channel, hconn]
    exact h.up
  · rw [state, channel, hconn, hremoving, hmapped]
    exact fun hc => h.down (haccepted hc)
  · rw [state, hconn, hremoving]
    exact h.removing
  · rw [hdestroying, hmapped]
    exact h.destroying

theorem sameFor_modifyLoop {g : ServerLoop → ServerLoop}
    (h : (g (w.loops loop)).SameFor conn (w.loops loop)) (other : Fin (n + 1)) :
    ((w.modifyLoop loop g).loops other).SameFor conn (w.loops other) := by
  by_cases heq : other = loop
  · subst heq
    rw [modifyLoop_loops_self]
    exact h
  · rw [modifyLoop_loops_of_ne heq]
    exact .refl _

/-- A step of a loop that is no part of the handshake of `conn`. -/
theorem Settled.modifyLoop (h : w.Settled conn) {g : ServerLoop → ServerLoop}
    (hsame : (g (w.loops loop)).SameFor conn (w.loops loop)) :
    (w.modifyLoop loop g).Settled conn :=
  h.congr rfl id Iff.rfl (sameFor_modifyLoop hsame)

variable {f : Session Nat → Session Nat} {other : Nat}

theorem mapped_onConnection : (w.onConnection conn f).Mapped other ↔ w.Mapped other := by
  rw [Mapped, Mapped, onConnection_name]
  rfl

theorem sameFor_onConnection (hclose : conn = other → .closeCallback ∉ (f (w.session conn)).trace)
    (loop : Fin (n + 1)) :
    ((w.onConnection conn f).loops loop).SameFor other (w.loops loop) := by
  obtain heq | heq := onConnection_loops_cases w conn f loop <;> rw [heq]
  · exact .refl _
  · exact .after _ _ _ hclose

theorem Settled.onConnection_of_ne (h : w.Settled other) (hne : other ≠ conn) :
    (w.onConnection conn f).Settled other :=
  h.congr (onConnection_conns_of_ne hne) id mapped_onConnection
    (sameFor_onConnection fun heq => absurd heq.symm hne)

/-! ### The stages of a connection -/

/-- A connection in `connections_` whose `connectEstablished` has not been called. -/
structure Fresh (w : Server n) (conn : Nat) : Prop where
  callback : (w.conns conn).tcp.closeCallback = true
  state_eq : w.state conn = .kConnecting
  events_eq : (w.channel conn).events = Channel.kNoneEvent
  mapped : w.Mapped conn
  not_removing : ¬w.Removing conn
  not_destroying : ¬w.Destroying conn

/-- A connection whose `handleClose` has been called. -/
structure Closing (w : Server n) (conn : Nat) : Prop where
  callback : (w.conns conn).tcp.closeCallback = true
  state_eq : w.state conn = .kDisconnected
  called : .closeCallback ∈ (w.conns conn).trace
  destroying : w.Destroying conn → ¬w.Mapped conn

theorem Settled.fresh (h : w.Settled conn) (hconn : conn < w.accepted)
    (hstate : w.state conn = .kConnecting) : w.Fresh conn := by
  have hne : w.state conn ≠ .kDisconnected := by
    rw [hstate]
    decide
  exact ⟨h.callback hconn, hstate, (h.connecting hstate).2, h.mapped hconn hne,
    fun hremoving => hne (h.removing hremoving),
    fun hdestroying => h.destroying hdestroying (h.mapped hconn hne)⟩

theorem Settled.closing (h : w.Settled conn) (hconn : conn < w.accepted)
    (hstate : w.state conn = .kDisconnected) : w.Closing conn :=
  ⟨h.callback hconn, hstate, (h.down hconn hstate).1, h.destroying⟩

theorem Fresh.settled (h : w.Fresh conn) (hestablishing : w.Establishing conn) :
    w.Settled conn := by
  refine ⟨fun _ => h.callback, fun _ => ⟨hestablishing, h.events_eq⟩, fun _ _ => h.mapped, ?_, ?_,
    fun hremoving => absurd hremoving h.not_removing,
    fun hdestroying => absurd hdestroying h.not_destroying⟩
  · rw [h.state_eq]
    rintro (hup | hup) <;> cases hup
  · rw [h.state_eq]
    intro _ hdown
    cases hdown

theorem Closing.settled (h : w.Closing conn)
    (hrest : w.Removing conn ∨ (w.channel conn).index = .kNew ∧ ¬w.Mapped conn) :
    w.Settled conn := by
  refine ⟨fun _ => h.callback, ?_, ?_, ?_, fun _ _ => ⟨h.called, hrest⟩, fun _ => h.state_eq,
    h.destroying⟩ <;> rw [h.state_eq]
  · intro hconnecting
    cases hconnecting
  · exact fun _ hne => absurd rfl hne
  · rintro (hup | hup) <;> cases hup

theorem removing_modifyLoop {g : ServerLoop → ServerLoop}
    (h : (g (w.loops loop)).Removing conn → (w.loops loop).Removing conn)
    (hremoving : (w.modifyLoop loop g).Removing conn) : w.Removing conn := by
  obtain ⟨other, hother⟩ := hremoving
  by_cases heq : other = loop
  · subst heq
    rw [modifyLoop_loops_self] at hother
    exact ⟨other, h hother⟩
  · rw [modifyLoop_loops_of_ne heq] at hother
    exact ⟨other, hother⟩

theorem destroying_modifyLoop {g : ServerLoop → ServerLoop}
    (h : .connectDestroyed conn ∈ (g (w.loops loop)).queue →
      .connectDestroyed conn ∈ (w.loops loop).queue)
    (hdestroying : (w.modifyLoop loop g).Destroying conn) : w.Destroying conn := by
  obtain ⟨other, hother⟩ := hdestroying
  by_cases heq : other = loop
  · subst heq
    rw [modifyLoop_loops_self] at hother
    exact ⟨other, h hother⟩
  · rw [modifyLoop_loops_of_ne heq] at hother
    exact ⟨other, hother⟩

theorem Fresh.modifyLoop (h : w.Fresh conn) {g : ServerLoop → ServerLoop}
    (hremoving : (g (w.loops loop)).Removing conn → (w.loops loop).Removing conn)
    (hdestroying : .connectDestroyed conn ∈ (g (w.loops loop)).queue →
      .connectDestroyed conn ∈ (w.loops loop).queue) : (w.modifyLoop loop g).Fresh conn :=
  ⟨h.callback, h.state_eq, h.events_eq, h.mapped,
    fun hpending => h.not_removing (removing_modifyLoop hremoving hpending),
    fun hpending => h.not_destroying (destroying_modifyLoop hdestroying hpending)⟩

theorem Closing.modifyLoop (h : w.Closing conn) {g : ServerLoop → ServerLoop}
    (hdestroying : .connectDestroyed conn ∈ (g (w.loops loop)).queue →
      .connectDestroyed conn ∈ (w.loops loop).queue) : (w.modifyLoop loop g).Closing conn :=
  ⟨h.callback, h.state_eq, h.called,
    fun hpending => h.destroying (destroying_modifyLoop hdestroying hpending)⟩

theorem destroying_onConnection : (w.onConnection conn f).Destroying other ↔ w.Destroying other :=
  exists_congr fun _ => mem_queue_onConnection (by simp)

/-! ### What a connection does itself -/

theorem not_closed_of_staysUp {s : Session Nat} (hstays : StaysUp (w.session conn) s) :
    .closeCallback ∉ s.trace := by
  obtain ⟨more, htrace, -, hclose⟩ := hstays.trace_eq
  rw [htrace]
  exact hclose

/-- A member function that does not close the connection, called while it is registered, or without
an effect on the connection itself. -/
theorem Settled.staysUp (h : w.Settled conn)
    (hplace : (w.channel conn).index ≠ .kNew ∧ w.state conn ≠ .kConnecting ∨
      (f (w.session conn)).conn = (w.conns conn).tcp)
    (hstays : StaysUp (w.session conn) (f (w.session conn))) :
    (w.onConnection conn f).Settled conn := by
  have hremoving : (w.onConnection conn f).Removing conn ↔ w.Removing conn :=
    removing_congr (sameFor_onConnection fun _ => not_closed_of_staysUp hstays)
  have hafter : (w.onConnection conn f).state conn = (f (w.session conn)).conn.state := by
    rw [state, onConnection_conns_self]
  have hchannel : (w.onConnection conn f).channel conn = (f (w.session conn)).conn.channel := by
    rw [channel, onConnection_conns_self]
  -- a connection that is down was down before
  have hdown : (w.onConnection conn f).state conn = .kDisconnected → w.state conn = .kDisconnected := by
    rw [hafter]
    intro hdisconnected
    by_contra hopen
    exact hstays.state_ne (by decide) hopen hdisconnected
  refine ⟨?_, ?_, ?_, ?_, ?_, ?_, ?_⟩
  · rw [onConnection_conns_self]
    exact fun hconn => hstays.closeCallback_eq.trans (h.callback hconn)
  · rw [hafter, hchannel, Establishing, loopOf, onConnection_loop, mem_queue_onConnection (by simp)]
    intro hconnecting
    obtain ⟨-, hstate⟩ | hsame := hplace
    · exact absurd hconnecting (hstays.state_ne (by decide) hstate)
    · rw [hsame] at hconnecting ⊢
      exact h.connecting hconnecting
  · rw [mapped_onConnection, hafter]
    intro hconn hopen
    apply h.mapped hconn
    intro hdisconnected
    apply hopen
    rw [hstays.state_eq_of_ne (by rw [show (w.session conn).conn.state = _ from hdisconnected]; decide)]
    exact hdisconnected
  · rw [hafter, hchannel]
    intro hup
    apply hstays.watching
    apply h.up
    obtain hsame | ⟨hconnected, -⟩ := hstays.state_eq
    · rw [hsame] at hup
      exact hup
    · exact .inl hconnected
  · intro hconn hdisconnected
    obtain ⟨hcalled, hrest⟩ := h.down hconn (hdown hdisconnected)
    refine ⟨?_, ?_⟩
    · rw [onConnection_conns_self]
      exact List.mem_append_left _ hcalled
    · rw [hremoving, mapped_onConnection, hchannel]
      obtain ⟨hindex, -⟩ | hsame := hplace
      · exact .inl (hrest.resolve_right fun hnew => hindex hnew.1)
      · rw [hsame]
        exact hrest
  · intro hpending
    have hold := h.removing (hremoving.mp hpending)
    rw [hafter, hstays.state_eq_of_ne (by rw [show (w.session conn).conn.state = _ from hold]; decide)]
    exact hold
  · rw [destroying_onConnection, mapped_onConnection]
    exact h.destroying

/-- `handleClose`, called by itself or at the end of the stream. -/
theorem Settled.closes (h : w.Settled conn) (hconn : conn < w.accepted)
    (hstate : (f (w.session conn)).conn.state = .kDisconnected)
    (hclose : .closeCallback ∈ (f (w.session conn)).trace)
    (hcallback : (f (w.session conn)).conn.closeCallback = (w.conns conn).tcp.closeCallback) :
    (w.onConnection conn f).Settled conn := by
  have hclosing : (w.onConnection conn f).Closing conn := by
    refine ⟨?_, ?_, ?_, ?_⟩
    · rw [onConnection_conns_self]
      exact hcallback.trans (h.callback hconn)
    · rw [state, onConnection_conns_self]
      exact hstate
    · rw [onConnection_conns_self]
      exact List.mem_append_right _ hclose
    · rw [destroying_onConnection, mapped_onConnection]
      exact h.destroying
  refine hclosing.settled (.inl ⟨w.loopOf conn, .inl ?_⟩)
  rw [onConnection_loops_self]
  exact ServerLoop.mem_stack_after hclose

theorem closeCallback_mem_handleClose {s : Session Nat} (hcallback : s.conn.closeCallback = true) :
    .closeCallback ∈ s.handleClose.trace := by
  rw [Session.handleClose_trace, if_pos hcallback]
  simp

theorem handleClose_closeCallback (s : Session Nat) :
    s.handleClose.conn.closeCallback = s.conn.closeCallback := by
  simp [Session.handleClose, Session.disableAll]

theorem Settled.handleClose (h : w.Settled conn) (hconn : conn < w.accepted) :
    (w.onConnection conn Session.handleClose).Settled conn :=
  h.closes hconn (w.session conn).handleClose_closed.state_eq
    (closeCallback_mem_handleClose (h.callback hconn)) (handleClose_closeCallback _)

theorem Settled.handleRead (h : w.Settled conn) (hconn : conn < w.accepted)
    (hindex : (w.channel conn).index ≠ .kNew) (hstate : w.state conn ≠ .kConnecting)
    (read : Except Errno (List Byte)) :
    (w.onConnection conn fun s => s.handleRead read).Settled conn := by
  by_cases heof : read = .ok []
  · subst heof
    have hclose := (w.session conn).handleRead_eof
    apply h.closes hconn
    · exact (w.session conn).handleRead_eof_closed.state_eq
    · rw [hclose]
      exact closeCallback_mem_handleClose (h.callback hconn)
    · rw [hclose, handleClose_closeCallback]
      rfl
  · exact h.staysUp (.inl ⟨hindex, hstate⟩) (Updates.handleRead _ heof).staysUp

theorem not_closed_of_connectEstablished :
    .closeCallback ∉ (w.session conn).connectEstablished.trace := by
  rw [Session.connectEstablished_trace]
  split <;> simp [session]

theorem Fresh.connectEstablished (h : w.Fresh conn) :
    (w.onConnection conn Session.connectEstablished).Settled conn := by
  have hremoving : (w.onConnection conn Session.connectEstablished).Removing conn ↔ w.Removing conn :=
    removing_congr (sameFor_onConnection fun _ => not_closed_of_connectEstablished)
  have hafter : (w.onConnection conn Session.connectEstablished).state conn = .kConnected := by
    rw [state, onConnection_conns_self]
    exact (Session.connectEstablished_spec _).1
  refine ⟨?_, ?_, ?_, ?_, ?_, ?_, ?_⟩
  · rw [onConnection_conns_self]
    exact fun _ => (Session.connectEstablished_closeCallback _).trans h.callback
  · rw [hafter]
    intro hconnecting
    cases hconnecting
  · rw [mapped_onConnection]
    exact fun _ _ => h.mapped
  · rw [channel, onConnection_conns_self]
    exact fun _ => connectEstablished_watching h.events_eq
  · rw [hafter]
    intro _ hdown
    cases hdown
  · rw [hremoving]
    exact fun hpending => absurd hpending h.not_removing
  · rw [destroying_onConnection]
    exact fun hpending => absurd hpending h.not_destroying

theorem Closing.connectDestroyed (h : w.Closing conn) (hmapped : ¬w.Mapped conn) :
    (w.onConnection conn Session.connectDestroyed).Settled conn := by
  have hne : (w.session conn).conn.state ≠ .kConnected := by
    rw [show (w.session conn).conn.state = _ from h.state_eq]
    decide
  have hremove := Session.connectDestroyed_of_ne (w.session conn) hne
  have hclosing : (w.onConnection conn Session.connectDestroyed).Closing conn := by
    refine ⟨?_, ?_, ?_, ?_⟩
    · rw [onConnection_conns_self, hremove]
      exact h.callback
    · rw [state, onConnection_conns_self, hremove]
      exact h.state_eq
    · rw [onConnection_conns_self]
      exact List.mem_append_left _ h.called
    · rw [mapped_onConnection]
      exact fun _ => hmapped
  refine hclosing.settled (.inr ⟨?_, ?_⟩)
  · rw [channel, onConnection_conns_self]
    exact connectDestroyed_index _
  · rw [mapped_onConnection]
    exact hmapped

/-! ### The hops -/

theorem Named.erase (h : w.Named) (name : List Char) :
    ({ w with connections := Function.update w.connections name none } : Server n).Named := by
  intro other conn hentry
  simp only at hentry
  by_cases heq : other = name
  · rw [heq, Function.update_self] at hentry
    cases hentry
  · rw [Function.update_of_ne heq] at hentry
    exact h other conn hentry

theorem not_mapped_erase :
    ¬({ w with connections := Function.update w.connections (w.conns conn).name none } :
      Server n).Mapped conn := by
  simp [Mapped]

/-- No other connection has the name of the one that is removed. -/
theorem mapped_erase (hinv : Inv config w) (hnamed : w.Named) (hconn : conn < w.accepted)
    (hne : other ≠ conn) :
    ({ w with connections := Function.update w.connections (w.conns conn).name none } :
      Server n).Mapped other ↔ w.Mapped other := by
  by_cases hname : (w.conns other).name = (w.conns conn).name
  · have hnone : ¬w.Mapped other := by
      intro hmapped
      have hother := (hnamed _ _ hmapped).1
      have hfew := hinv.few
      rw [hinv.named other hother, hinv.named conn hconn] at hname
      have hmod := (connName_eq_iff config).mp hname
      omega
    refine iff_of_false ?_ hnone
    simp [Mapped, hname]
  · simp [Mapped, hname]

/-- The names, the frames and the stages of all connections. -/
structure Handshake (w : Server n) : Prop where
  named : w.Named
  framed : w.Framed
  settled : ∀ conn, w.Settled conn

theorem Framed.modifyLoop (h : w.Framed) {g : ServerLoop → ServerLoop}
    (hframes : ∀ conn, .removeConnection conn ∈ (g (w.loops loop)).stack →
      (g (w.loops loop)).phase = .dispatching) : (w.modifyLoop loop g).Framed := by
  intro other conn hmem
  by_cases heq : other = loop
  · subst heq
    rw [modifyLoop_loops_self] at hmem ⊢
    exact hframes conn hmem
  · rw [modifyLoop_loops_of_ne heq] at hmem ⊢
    exact h other conn hmem

theorem Handshake.modifyLoop (h : w.Handshake) {g : ServerLoop → ServerLoop}
    (hframes : ∀ conn, .removeConnection conn ∈ (g (w.loops loop)).stack →
      (g (w.loops loop)).phase = .dispatching)
    (hsame : ∀ conn, (g (w.loops loop)).SameFor conn (w.loops loop)) :
    (w.modifyLoop loop g).Handshake :=
  ⟨h.named, h.framed.modifyLoop hframes, fun conn => (h.settled conn).modifyLoop (hsame conn)⟩

theorem Named.onConnection (h : w.Named) : (w.onConnection conn f).Named := by
  intro name other hentry
  rw [onConnection_name]
  exact h name other hentry

/-- A member function of `conn`, for which its own stage has been established. -/
theorem Handshake.onConnection (hnamed : w.Named) (hframed : w.Framed)
    (hothers : ∀ other ≠ conn, w.Settled other) (hself : (w.onConnection conn f).Settled conn)
    (hclose : .closeCallback ∈ (f (w.session conn)).trace →
      (w.loops (w.loopOf conn)).phase = .dispatching) : (w.onConnection conn f).Handshake := by
  refine ⟨hnamed.onConnection, ?_, fun other => ?_⟩
  · intro loop other hmem
    by_cases heq : loop = w.loopOf conn
    · subst heq
      rw [onConnection_loops_self] at hmem ⊢
      obtain hcallback | hold := List.mem_append.mp hmem
      · obtain hcase | ⟨-, hclosed⟩ := ServerLoop.mem_callbackFrames hcallback
        · cases hcase
        · exact hclose hclosed
      · exact hframed _ other hold
    · rw [onConnection_loops_of_ne heq] at hmem ⊢
      exact hframed loop other hmem
  · by_cases heq : other = conn
    · rw [heq]
      exact hself
    · exact (hothers other heq).onConnection_of_ne heq

theorem Handshake.removeConnectionInLoop (hinv : Inv config w) (hnamed : w.Named)
    (hframed : w.Framed) (hothers : ∀ other ≠ conn, w.Settled other) (hconn : conn < w.accepted)
    (hclosing : w.Closing conn) : (w.removeConnectionInLoop conn).Handshake := by
  set erased : Server n :=
    { w with connections := Function.update w.connections (w.conns conn).name none }
  have hunmapped : ¬erased.Mapped conn := not_mapped_erase
  have hframes : erased.Framed := hframed
  have hpushed : (erased.modifyLoop (w.loopOf conn) fun l => l.push (.connectDestroyed conn)).Framed :=
    hframes.modifyLoop fun other hmem => hframes _ other hmem
  refine ⟨hnamed.erase _, hpushed, fun other => ?_⟩
  by_cases heq : other = conn
  · subst heq
    have hgone : (w.removeConnectionInLoop other).Closing other :=
      ⟨hclosing.callback, hclosing.state_eq, hclosing.called, fun _ => hunmapped⟩
    refine hgone.settled (.inl ⟨w.loopOf other, .inr (.inr ?_)⟩)
    rw [Server.removeConnectionInLoop, modifyLoop_loops_self, ServerLoop.mem_queue_push]
    exact .inr rfl
  · have herased : erased.Settled other :=
      (hothers other heq).congr rfl id (mapped_erase hinv hnamed hconn heq) fun _ => .refl _
    apply herased.modifyLoop
    apply ServerLoop.SameFor.push
    intro hhandshake
    exact heq (Option.some.inj hhandshake).symm

theorem Handshake.removeConnection (hinv : Inv config w) (hnamed : w.Named)
    (hframed : w.Framed) (hothers : ∀ other ≠ conn, w.Settled other) (hconn : conn < w.accepted)
    (hclosing : w.Closing conn) : (w.removeConnection loop conn).Handshake := by
  rw [Server.removeConnection]
  split
  · exact removeConnectionInLoop hinv hnamed hframed hothers hconn hclosing
  · refine ⟨hnamed, hframed.modifyLoop fun other hmem => hframed _ other hmem, fun other => ?_⟩
    by_cases heq : other = conn
    · subst heq
      have hgone : (w.modifyLoop 0 fun l => l.push (.removeConnectionInLoop other)).Closing other :=
        hclosing.modifyLoop fun hmem => by simpa [ServerLoop.mem_queue_push] using hmem
      refine hgone.settled (.inl ⟨0, .inr (.inl ?_)⟩)
      rw [modifyLoop_loops_self, ServerLoop.mem_queue_push]
      exact .inr rfl
    · apply (hothers other heq).modifyLoop
      apply ServerLoop.SameFor.push
      intro hhandshake
      exact heq (Option.some.inj hhandshake).symm

/-! ### The steps -/

theorem Inv.lt_of_index (h : Inv config w) (hindex : (w.channel conn).index ≠ .kNew) :
    conn < w.accepted :=
  h.created conn (h.live conn (.inl hindex)).1

theorem Inv.phase_of_event (h : Inv config w) (hevent : (w.loops loop).HasEvent conn) :
    (w.loops loop).phase = .dispatching := by
  by_contra hphase
  exact (h.phase loop).dispatching hphase conn hevent

theorem Handshake.staysUp (h : w.Handshake)
    (hplace : (w.channel conn).index ≠ .kNew ∧ w.state conn ≠ .kConnecting ∨
      (f (w.session conn)).conn = (w.conns conn).tcp)
    (hstays : StaysUp (w.session conn) (f (w.session conn))) :
    (w.onConnection conn f).Handshake :=
  .onConnection h.named h.framed (fun other _ => h.settled other)
    ((h.settled conn).staysUp hplace hstays) fun hclose => absurd hclose (not_closed_of_staysUp hstays)

/-- A call of the user, which does nothing on a connection that is not connected. -/
theorem Handshake.call (hinv : Inv config w) (h : w.Handshake)
    (hidle : w.state conn ≠ .kConnected → f (w.session conn) = w.session conn)
    (hstays : StaysUp (w.session conn) (f (w.session conn))) :
    (w.onConnection conn f).Handshake := by
  by_cases hstate : w.state conn = .kConnected
  · refine h.staysUp (.inl ⟨hinv.connected conn hstate, ?_⟩) hstays
    rw [hstate]
    decide
  · rw [onConnection_of_eq (hidle hstate)]
    exact h

/-- A handler of an event, on the loop of its connection. -/
theorem Handshake.handler (h : w.Handshake) (hself : (w.onConnection conn f).Settled conn)
    (hphase : (w.loops (w.loopOf conn)).phase = .dispatching) : (w.onConnection conn f).Handshake :=
  .onConnection h.named h.framed (fun other _ => h.settled other) hself fun _ => hphase

theorem Handshake.runFrame (hinv : Inv config w) (h : w.Handshake) {frame : Frame}
    {rest : List Frame} (hstack : (w.loops loop).stack = frame :: rest)
    (read : Except Errno (List Byte)) (write : Except Errno Nat) :
    ((w.modifyLoop loop fun l => { l with stack := rest }).runFrame loop read write
      frame).Handshake := by
  have hmem : frame ∈ (w.loops loop).stack := by
    rw [hstack]
    exact List.mem_cons_self
  have hframed : ∀ conn, .removeConnection conn ∈ rest → (w.loops loop).phase = .dispatching := by
    intro conn hrest
    apply h.framed loop conn
    rw [hstack]
    exact List.mem_cons_of_mem frame hrest
  set popped : Server n := w.modifyLoop loop fun l => { l with stack := rest } with hpopped
  by_cases hremoval : ∃ conn, frame = .removeConnection conn
  · obtain ⟨conn, rfl⟩ := hremoval
    have hshrinks := ServerLoop.shrinks_stack hstack
    have hinv' : Inv config popped :=
      hinv.shrinks hshrinks (hshrinks.inPhase (hinv.phase loop) rfl rfl rfl) fun _ _ => id
    have hremoving : w.Removing conn := ⟨loop, .inl hmem⟩
    have hconn : conn < w.accepted :=
      hinv.created conn ((hinv.tracks loop conn).removing (.inl hmem)).1
    have hclosing : popped.Closing conn :=
      ((h.settled conn).closing hconn ((h.settled conn).removing hremoving)).modifyLoop
        fun hqueued => hqueued
    refine .removeConnection hinv' h.named (h.framed.modifyLoop hframed) ?_ hconn hclosing
    intro other hne
    apply (h.settled other).modifyLoop
    apply ServerLoop.SameFor.stack hstack
    rintro heq
    cases heq
    exact hne rfl
  · have hpop : popped.Handshake := by
      apply h.modifyLoop hframed
      intro conn
      exact .stack hstack fun heq => hremoval ⟨conn, heq⟩
    -- an event is handled on the loop of its connection, which is registered
    have hplace : ∀ conn, frame.event = some conn → (popped.channel conn).index ≠ .kNew ∧
        popped.state conn ≠ .kConnecting ∧ conn < popped.accepted ∧
        (popped.loops (popped.loopOf conn)).phase = .dispatching := by
      intro conn hevent
      have hhas : (w.loops loop).HasEvent conn := .inr ⟨frame, hmem, hevent⟩
      obtain ⟨hloop, hindex⟩ := (hinv.tracks loop conn).event hhas
      refine ⟨hindex, fun hstate => hindex (hinv.connecting conn hstate), hinv.lt_of_index hindex, ?_⟩
      change (popped.loops (w.loopOf conn)).phase = _
      rw [hloop, hpopped, modifyLoop_loops_self]
      exact hinv.phase_of_event hhas
    cases frame with
    | handleClose conn =>
        obtain ⟨-, -, hconn, hphase⟩ := hplace conn rfl
        exact hpop.handler ((hpop.settled conn).handleClose hconn) hphase
    | handleError conn =>
        obtain ⟨hindex, hstate, -, -⟩ := hplace conn rfl
        exact hpop.staysUp (.inl ⟨hindex, hstate⟩) (Updates.refl _).staysUp
    | handleRead conn =>
        obtain ⟨hindex, hstate, hconn, hphase⟩ := hplace conn rfl
        exact hpop.handler ((hpop.settled conn).handleRead hconn hindex hstate read) hphase
    | handleWrite conn =>
        obtain ⟨hindex, hstate, -, -⟩ := hplace conn rfl
        exact hpop.staysUp (f := fun s => s.handleWrite write) (.inl ⟨hindex, hstate⟩)
          (Updates.handleWrite _ write).staysUp
    | removeConnection conn => exact absurd ⟨conn, rfl⟩ hremoval
    | userCode => exact hpop

theorem Handshake.callFunctor (hinv : Inv config w) (h : w.Handshake) (file : Nat → List Byte)
    {functor : ServerFunctor} {rest : List ServerFunctor}
    (htodo : (w.loops loop).todo = functor :: rest) (write : Except Errno Nat) :
    ((w.modifyLoop loop fun l => { l with todo := rest }).callFunctor file loop write
      functor).Handshake := by
  have hmem : functor ∈ (w.loops loop).queue := by
    apply List.mem_append_right _
    rw [htodo]
    exact List.mem_cons_self
  have hshrinks := ServerLoop.shrinks_todo htodo
  set popped : Server n := w.modifyLoop loop fun l => { l with todo := rest } with hpopped
  have hframed : popped.Framed := h.framed.modifyLoop fun conn hstack => h.framed loop conn hstack
  have hothers : ∀ other, functor.handshake ≠ some other → popped.Settled other :=
    fun other hother => (h.settled other).modifyLoop (.todo htodo hother)
  have hclosing : ∀ conn, (w.loops loop).Removing conn → conn < w.accepted ∧ popped.Closing conn := by
    intro conn hremoving
    have hconn := hinv.created conn ((hinv.tracks loop conn).removing hremoving).1
    refine ⟨hconn, ((h.settled conn).closing hconn ((h.settled conn).removing
      ⟨loop, hremoving⟩)).modifyLoop fun hqueued => hshrinks.queue.subset hqueued⟩
  have huser : (∀ conn, popped.Settled conn) →
      (popped.modifyLoop loop fun l => { l with stack := .userCode :: l.stack }).Handshake := by
    intro hsettled
    have hpop : popped.Handshake := ⟨h.named, hframed, hsettled⟩
    apply hpop.modifyLoop
    · intro conn hstack
      exact hframed loop conn ((List.mem_cons.mp hstack).resolve_left (by simp))
    · intro conn
      exact ⟨by simp, Iff.rfl, Iff.rfl, Iff.rfl⟩
  cases functor with
  | connectEstablished conn =>
      obtain ⟨-, hstate⟩ := (hinv.tracks loop conn).establishing hmem
      have hconn := hinv.created conn (hinv.live conn (.inr hstate)).1
      have hfresh : popped.Fresh conn :=
        ((h.settled conn).fresh hconn hstate).modifyLoop (fun hpending => hshrinks.removing hpending)
          fun hqueued => hshrinks.queue.subset hqueued
      refine .onConnection h.named hframed (fun other hne => hothers other ?_)
        hfresh.connectEstablished fun hclose => absurd hclose not_closed_of_connectEstablished
      exact fun heq => hne (Option.some.inj heq).symm
  | connectDestroyed conn =>
      obtain ⟨-, hgone⟩ := hclosing conn (.inr (.inr hmem))
      have hunmapped : ¬w.Mapped conn := (h.settled conn).destroying ⟨loop, hmem⟩
      refine .onConnection h.named hframed (fun other hne => hothers other ?_)
        (hgone.connectDestroyed hunmapped) fun hclose => ?_
      · exact fun heq => hne (Option.some.inj heq).symm
      · rw [Session.connectDestroyed_of_ne _ (by
          rw [show (popped.session conn).conn.state = _ from hgone.state_eq]
          decide)] at hclose
        cases hclose
  | removeConnectionInLoop conn =>
      obtain ⟨hconn, hgone⟩ := hclosing conn (.inr (.inl hmem))
      have hinv' : Inv config popped := by
        apply hinv.shrinks hshrinks ((hinv.phase loop).todo htodo)
        intro c _ hqueued
        exact ServerLoop.mem_queue_todo htodo hqueued (by simp)
      refine .removeConnectionInLoop hinv' h.named hframed (fun other hne => hothers other ?_) hconn
        hgone
      exact fun heq => hne (Option.some.inj heq).symm
  | task conn task =>
      have hsettled : ∀ conn, popped.Settled conn :=
        fun other => hothers other (by simp [ServerFunctor.handshake])
      cases task with
      | sendFileInLoop fileDescriptor offset count =>
          simp only [Server.callFunctor]
          split
          · have hpop : popped.Handshake := ⟨h.named, hframed, hsettled⟩
            exact hpop.staysUp (f := fun s => s.sendFileInLoop file fileDescriptor offset count write)
              (.inr (Session.sendFileInLoop_conn file _ fileDescriptor offset count write))
              (Updates.sendFileInLoop _ file fileDescriptor offset count write).staysUp
          · exact ⟨h.named, hframed, fun other => (hsettled other).congr rfl id Iff.rfl
              fun _ => .refl _⟩
      | writeCompleteCallback => exact huser hsettled
      | highWaterMarkCallback _ => exact huser hsettled
  | user => exact huser fun other => hothers other (by simp [ServerFunctor.handshake])

theorem Named.insertConnection (h : w.Named) (config : ServerConfig) (sockfd : Nat) :
    (w.insertConnection config sockfd).Named := by
  intro name conn hentry
  change Function.update w.connections (config.connName w.nextConnId) (some w.accepted) name
    = some conn at hentry
  by_cases heq : name = config.connName w.nextConnId
  · rw [heq, Function.update_self] at hentry
    obtain rfl := Option.some.inj hentry
    rw [insertConnection_conns_self, heq]
    exact ⟨Nat.lt_succ_self _, rfl⟩
  · rw [Function.update_of_ne heq] at hentry
    obtain ⟨hconn, hname⟩ := h name conn hentry
    rw [insertConnection_conns_of_ne config sockfd (by omega)]
    exact ⟨Nat.lt_succ_of_lt hconn, hname⟩

/-- The name of a new connection is no other's. -/
theorem mapped_insertConnection (hinv : Inv config w) (hnamed : w.Named)
    (hfew : w.accepted + 1 < 2 ^ 31) (sockfd : Nat) (hne : other ≠ w.accepted) :
    (w.insertConnection config sockfd).Mapped other ↔ w.Mapped other := by
  rw [Mapped, Mapped, insertConnection_conns_of_ne config sockfd hne]
  change Function.update w.connections (config.connName w.nextConnId) (some w.accepted)
    (w.conns other).name = some other ↔ _
  by_cases hname : (w.conns other).name = config.connName w.nextConnId
  · rw [hname, Function.update_self]
    refine iff_of_false (fun heq => hne (Option.some.inj heq).symm) fun hentry => ?_
    have hother := (hnamed _ _ hentry).1
    rw [hinv.named other hother, hinv.counter] at hname
    have hmod := (connName_eq_iff config).mp hname
    omega
  · rw [Function.update_of_ne hname]

theorem fresh_insertConnection (hinv : Inv config w) (sockfd : Nat) :
    (w.insertConnection config sockfd).Fresh w.accepted := by
  have hremoving : ¬(w.insertConnection config sockfd).Removing w.accepted := by
    rintro ⟨loop, hloop⟩
    exact hinv.not_removing_accepted loop hloop
  refine ⟨?_, ?_, ?_, ?_, hremoving, fun ⟨loop, hloop⟩ => hremoving ⟨loop, .inr (.inr hloop)⟩⟩
  · rw [insertConnection_conns_self]
    rfl
  · rw [state, insertConnection_conns_self]
    rfl
  · rw [channel, insertConnection_conns_self]
    rfl
  · rw [Mapped, insertConnection_conns_self]
    exact Function.update_self ..

theorem Handshake.newConnection (hinv : Inv config w) (h : w.Handshake)
    (hfew : w.accepted + 1 < 2 ^ 31) (sockfd : Nat) :
    (w.newConnection config sockfd).Handshake := by
  have hothers : ∀ other ≠ w.accepted, (w.insertConnection config sockfd).Settled other := by
    intro other hne
    apply (h.settled other).congr (insertConnection_conns_of_ne config sockfd hne) ?_
      (mapped_insertConnection hinv h.named hfew sockfd hne) fun _ => .refl _
    intro hlt
    exact lt_of_le_of_ne (Nat.le_of_lt_succ hlt) hne
  have hnamed := h.named.insertConnection config sockfd
  have hfresh := fresh_insertConnection hinv sockfd
  have hframed : (w.insertConnection config sockfd).Framed := h.framed
  simp only [Server.newConnection]
  split
  · exact .onConnection hnamed hframed hothers hfresh.connectEstablished
      fun hclose => absurd hclose not_closed_of_connectEstablished
  · refine ⟨hnamed, hframed.modifyLoop fun conn hmem => hframed _ conn hmem, fun other => ?_⟩
    by_cases heq : other = w.accepted
    · subst heq
      have hpushed : ((w.insertConnection config sockfd).modifyLoop w.getNextLoop.1
          fun l => l.push (.connectEstablished w.accepted)).Fresh w.accepted := by
        apply hfresh.modifyLoop
        · exact Or.imp_right fun hqueued => by simpa [ServerLoop.mem_queue_push] using hqueued
        · exact fun hmem => by simpa [ServerLoop.mem_queue_push] using hmem
      apply hpushed.settled
      change _ ∈ (Server.loops _ ((w.insertConnection config sockfd).loopOf w.accepted)).queue
      rw [loopOf, insertConnection_conns_self, modifyLoop_loops_self, ServerLoop.mem_queue_push]
      exact .inr rfl
    · apply (hothers other heq).modifyLoop
      apply ServerLoop.SameFor.push
      intro hhandshake
      exact heq (Option.some.inj hhandshake).symm

theorem Handshake.handleEvent (hinv : Inv config w) (h : w.Handshake) {active : ActiveChannel}
    {rest : List ActiveChannel} {accepted : Option Nat}
    (hactive : (w.loops loop).activeChannels = active :: rest)
    (hphase : (w.loops loop).phase = .dispatching) (hidle : w.Idle loop)
    (hfew : ((w.modifyLoop loop fun l => { l with activeChannels := rest }).handleEvent config loop
      accepted active).accepted < 2 ^ 31) :
    ((w.modifyLoop loop fun l => { l with activeChannels := rest }).handleEvent config loop
      accepted active).Handshake := by
  have hshrinks := ServerLoop.shrinks_activeChannels hactive
  have hinv' : Inv config (w.modifyLoop loop fun l => { l with activeChannels := rest }) :=
    hinv.shrinks hshrinks (hshrinks.inPhase (hinv.phase loop) rfl rfl rfl) fun _ _ => id
  have hpop : (w.modifyLoop loop fun l => { l with activeChannels := rest }).Handshake :=
    h.modifyLoop (fun _ _ => hphase) fun _ => .of_eq rfl rfl
  cases active with
  | connection conn revents =>
      simp only [Server.handleEvent]
      split
      · have hnone : ∀ other, .removeConnection other ∉ eventFrames conn revents := by
          intro other hmem
          cases event_of_mem_eventFrames hmem
        apply hpop.modifyLoop
        · rw [modifyLoop_loops_self]
          exact fun _ _ => hphase
        · intro other
          rw [modifyLoop_loops_self]
          refine ⟨iff_of_false (hnone other) ?_, Iff.rfl, Iff.rfl, Iff.rfl⟩
          simp [hidle.1]
      · exact ⟨hpop.named, hpop.framed, fun other => (hpop.settled other).congr rfl id Iff.rfl
          fun _ => .refl _⟩
  | acceptor =>
      cases accepted with
      | none => exact hpop
      | some sockfd =>
          apply hpop.newConnection hinv'
          refine lt_of_eq_of_lt ?_ hfew
          simp only [Server.handleEvent, Server.newConnection]
          split <;> rfl
  | wakeup => exact hpop

theorem Handshake.doPendingFunctors (hinv : Inv config w) (h : w.Handshake)
    (hphase : (w.loops loop).phase = .dispatching) (hidle : w.Idle loop) :
    (w.modifyLoop loop fun l =>
      { l with
        functors := l.pendingFunctors
        todo := l.pendingFunctors
        pendingFunctors := []
        phase := .calling }).Handshake := by
  have htodo := (hinv.phase loop).calling (by rw [hphase]; decide)
  apply h.modifyLoop
  · intro conn hmem
    rw [hidle.1] at hmem
    cases hmem
  · intro conn
    refine .of_eq rfl ?_
    rw [ServerLoop.queue, ServerLoop.queue, htodo, List.append_nil, List.nil_append]

theorem move_handshake {file : Nat → List Byte} {w' : Server n} {action : ServerAction n}
    (hinv : Inv config w) (h : w.Handshake) (hmove : w.move file config action = some w')
    (hfew : w'.accepted < 2 ^ 31) : w'.Handshake := by
  cases action with
  | poll loop active =>
      obtain ⟨-, rfl⟩ := guarded_eq_some.mp hmove
      exact h.modifyLoop (fun _ _ => rfl) fun _ => .of_eq rfl rfl
  | dispatch loop accepted =>
      obtain ⟨active, rest, hactive, ⟨hphase, hidle, -⟩, rfl⟩ := move_dispatch hmove
      exact h.handleEvent hinv hactive hphase hidle hfew
  | frame loop read write =>
      obtain ⟨frame, rest, hstack, rfl⟩ := move_frame hmove
      exact h.runFrame hinv hstack read write
  | handled loop =>
      obtain ⟨-, rfl⟩ := guarded_eq_some.mp hmove
      exact h.modifyLoop (h.framed loop) fun _ => .of_eq rfl rfl
  | doPendingFunctors loop =>
      obtain ⟨⟨hphase, hidle, -⟩, rfl⟩ := guarded_eq_some.mp hmove
      exact h.doPendingFunctors hinv hphase hidle
  | runFunctor loop write =>
      obtain ⟨functor, rest, htodo, -, rfl⟩ := move_runFunctor hmove
      exact h.callFunctor hinv file htodo write
  | endBatch loop =>
      obtain ⟨⟨-, hstack, -⟩, rfl⟩ := guarded_eq_some.mp hmove
      apply h.modifyLoop
      · intro conn hmem
        rw [hstack] at hmem
        cases hmem
      · exact fun _ => .of_eq rfl rfl
  | send loop conn data write =>
      obtain ⟨-, rfl⟩ := guarded_eq_some.mp hmove
      exact h.call (f := fun s => s.send data write) hinv (fun hstate => if_neg hstate)
        (Updates.send _ data write).staysUp
  | sendFile loop conn fileDescriptor offset count write =>
      obtain ⟨-, rfl⟩ := guarded_eq_some.mp hmove
      refine h.call (f := fun s => s.sendFile file fileDescriptor offset count write) hinv
        (fun hstate => if_neg ?_) (Updates.sendFile _ file fileDescriptor offset count write).staysUp
      rw [TcpConnection.connected, decide_eq_true_iff]
      exact hstate
  | shutdown loop conn =>
      obtain ⟨-, rfl⟩ := guarded_eq_some.mp hmove
      exact h.call hinv (fun hstate => if_neg hstate) (Updates.shutdown _).staysUp
  | queueInLoop loop =>
      obtain rfl := Option.some.inj hmove
      exact h.modifyLoop (h.framed loop) fun _ => .push _ (by simp [ServerFunctor.handshake])
  | hold conn =>
      obtain ⟨-, rfl⟩ := guarded_eq_some.mp hmove
      exact ⟨h.named, h.framed, fun other => (h.settled other).congr rfl id Iff.rfl
        fun _ => .refl _⟩
  | drop conn =>
      obtain rfl := Option.some.inj hmove
      exact ⟨h.named, h.framed, fun other => (h.settled other).congr rfl id Iff.rfl
        fun _ => .refl _⟩

theorem Handshake.reap (h : w.Handshake) : w.reap.Handshake :=
  ⟨h.named, h.framed, fun other => (h.settled other).congr rfl id Iff.rfl fun _ => .refl _⟩

end Server

end MuduoCore
