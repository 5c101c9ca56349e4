import MuduoCore.TcpConnection.Callbacks
import MuduoCore.TcpConnection.Events
import MuduoCore.TcpServer.Quiescent

/-!
# What the user hears of every connection

A connection tells the user UP, then of its messages, and at its end DOWN, once. That nothing comes
after DOWN rests on the loops: a batch of events has one event of a connection at most, which is
dispatched while the connection is up, and `connectDestroyed` comes after `closeCallback_` only.
-/

namespace MuduoCore

variable {n : ℕ}

/-! ### Handlers and events of one connection -/

def Handler.frame (conn : Nat) : Handler → Frame
  | handleClose => .handleClose conn
  | handleError => .handleError conn
  | handleRead => .handleRead conn
  | handleWrite => .handleWrite conn

/-- The frame, if it is a handler of the connection `conn`. -/
def Frame.handler (conn : Nat) : Frame → Option Handler
  | handleClose own => if own = conn then some .handleClose else none
  | handleError own => if own = conn then some .handleError else none
  | handleRead own => if own = conn then some .handleRead else none
  | handleWrite own => if own = conn then some .handleWrite else none
  | removeConnection _ | userCode => none

def handlersOf (conn : Nat) (stack : List Frame) : List Handler :=
  stack.filterMap (Frame.handler conn)

def ActiveChannel.conn : ActiveChannel → Option Nat
  | connection conn _ => some conn
  | acceptor | wakeup => none

def ActiveChannel.eventOf (conn : Nat) : ActiveChannel → Option EventMask
  | connection own revents => if own = conn then some revents else none
  | acceptor | wakeup => none

/-- The mask does not take `handleEventWithGuard` into its close branch and into its read branch. -/
def ActiveChannel.Plain : ActiveChannel → Prop
  | connection _ revents => ¬ClosesAndReads revents
  | acceptor | wakeup => True

instance : (a : ActiveChannel) → Decidable a.Plain
  | .connection _ _ => inferInstanceAs (Decidable (¬_))
  | .acceptor | .wakeup => inferInstanceAs (Decidable True)

def eventsOf (conn : Nat) (active : List ActiveChannel) : List EventMask :=
  active.filterMap (ActiveChannel.eventOf conn)

theorem eventFrames_eq (conn : Nat) (revents : EventMask) :
    eventFrames conn revents = (eventHandlers revents).map (Handler.frame conn) := by
  unfold eventFrames eventHandlers
  simp only [List.map_append, apply_ite (List.map (Handler.frame conn)), List.map_cons,
    List.map_nil, Handler.frame]

theorem handlersOf_append (conn : Nat) (a b : List Frame) :
    handlersOf conn (a ++ b) = handlersOf conn a ++ handlersOf conn b := List.filterMap_append

theorem handlersOf_cons (conn : Nat) (frame : Frame) (rest : List Frame) :
    handlersOf conn (frame :: rest) = (frame.handler conn).toList ++ handlersOf conn rest := by
  rw [handlersOf, List.filterMap_cons]
  cases frame.handler conn <;> rfl

theorem handlersOf_callbackFrames (conn other : Nat) (trace : List Event) :
    handlersOf conn (callbackFrames other trace) = [] := by
  refine List.filterMap_eq_nil_iff.mpr fun frame hmem => ?_
  rcases ServerLoop.mem_callbackFrames hmem with rfl | ⟨rfl, -⟩ <;> rfl

theorem handlersOf_eventFrames_self (conn : Nat) (revents : EventMask) :
    handlersOf conn (eventFrames conn revents) = eventHandlers revents := by
  have hframe : Frame.handler conn ∘ Handler.frame conn = some := by
    funext handler
    cases handler <;> exact if_pos rfl
  rw [eventFrames_eq, handlersOf, List.filterMap_map, hframe, List.filterMap_some]

theorem handlersOf_eq_nil {conn : Nat} {stack : List Frame}
    (hnone : ∀ frame ∈ stack, frame.event ≠ some conn) : handlersOf conn stack = [] := by
  refine List.filterMap_eq_nil_iff.mpr fun frame hmem => ?_
  have hne := hnone frame hmem
  cases frame with
  | removeConnection _ => rfl
  | userCode => rfl
  | _ own => exact if_neg fun heq => hne (congrArg some heq)

theorem handlersOf_eventFrames_of_ne {conn other : Nat} (hne : other ≠ conn) (revents : EventMask) :
    handlersOf conn (eventFrames other revents) = [] := by
  refine handlersOf_eq_nil fun frame hmem heq => ?_
  rw [event_of_mem_eventFrames hmem] at heq
  exact hne (Option.some.inj heq)

theorem eventsOf_cons (conn : Nat) (a : ActiveChannel) (rest : List ActiveChannel) :
    eventsOf conn (a :: rest) = (a.eventOf conn).toList ++ eventsOf conn rest := by
  rw [eventsOf, List.filterMap_cons]
  cases a.eventOf conn <;> rfl

theorem mem_eventsOf {conn : Nat} {active : List ActiveChannel} {revents : EventMask} :
    revents ∈ eventsOf conn active ↔ .connection conn revents ∈ active := by
  rw [eventsOf, List.mem_filterMap]
  constructor
  · rintro ⟨a, hmem, heq⟩
    cases a with
    | connection own mask =>
      simp only [ActiveChannel.eventOf] at heq
      split at heq
      · rename_i hown
        cases heq
        rwa [hown] at hmem
      · cases heq
    | acceptor => cases heq
    | wakeup => cases heq
  · exact fun hmem => ⟨_, hmem, if_pos rfl⟩

/-- As many events as there are entries of the connection. -/
theorem length_eventsOf (conn : Nat) (active : List ActiveChannel) :
    (eventsOf conn active).length = (active.filterMap ActiveChannel.conn).count conn := by
  induction active with
  | nil => rfl
  | cons a active ih =>
    rw [eventsOf_cons, List.length_append, ih]
    cases a with
    | connection own revents =>
      change _ = (own :: active.filterMap ActiveChannel.conn).count conn
      rw [List.count_cons]
      by_cases heq : own = conn
      · rw [ActiveChannel.eventOf, if_pos heq, if_pos (beq_iff_eq.mpr heq)]
        exact Nat.add_comm ..
      · rw [ActiveChannel.eventOf, if_neg heq, if_neg (mt beq_iff_eq.mp heq)]
        exact Nat.zero_add _
    | acceptor => exact Nat.zero_add _
    | wakeup => exact Nat.zero_add _

/-! ### Handlers after the close -/

/-- What is left of the handlers of one event, of a mask that does not both close and read. -/
def Calm (handlers : List Handler) : Prop :=
  ∃ revents, ¬ClosesAndReads revents ∧ handlers <:+ eventHandlers revents

theorem Calm.nil : Calm [] := ⟨0#32, by decide, List.nil_suffix⟩

theorem Calm.tail {handler : Handler} {rest : List Handler} (h : Calm (handler :: rest)) :
    Calm rest := by
  obtain ⟨revents, hcalm, hsuffix⟩ := h
  exact ⟨revents, hcalm, (List.suffix_cons handler rest).trans hsuffix⟩

theorem Calm.rank_lt {handler : Handler} {rest : List Handler} (h : Calm (handler :: rest)) :
    ∀ later ∈ rest, handler.rank < later.rank := by
  obtain ⟨revents, -, hsuffix⟩ := h
  exact (List.pairwise_cons.mp ((sorted_eventHandlers revents).sublist hsuffix.sublist)).1

/-- Nothing that closes or reads comes after the close branch. -/
theorem Calm.after_handleClose {rest : List Handler} (h : Calm (.handleClose :: rest)) :
    .handleClose ∉ rest ∧ .handleRead ∉ rest := by
  refine ⟨fun hmem => absurd (h.rank_lt _ hmem) (by decide), fun hmem => ?_⟩
  obtain ⟨revents, hcalm, hsuffix⟩ := h
  exact hcalm (closesAndReads_of_mem (hsuffix.mem List.mem_cons_self)
    (hsuffix.mem (List.mem_cons_of_mem _ hmem)))

theorem Calm.after_handleRead {rest : List Handler} (h : Calm (.handleRead :: rest)) :
    .handleClose ∉ rest ∧ .handleRead ∉ rest :=
  ⟨fun hmem => absurd (h.rank_lt _ hmem) (by decide),
    fun hmem => absurd (h.rank_lt _ hmem) (by decide)⟩

/-! ### The story of a connection -/

namespace ServerConfig

variable (config : ServerConfig)

def told (connected : Bool) : List Event :=
  if config.connectionCallback then [.connectionCallback connected] else []

/-- The callbacks of a connection in each of its states, after so many messages. -/
def story (messages : ℕ) : StateE → List Event
  | .kConnecting => []
  | .kConnected | .kDisconnecting =>
      config.told true ++ List.replicate messages .messageCallback
  | .kDisconnected =>
      config.told true ++ List.replicate messages .messageCallback ++
        (config.told false ++ [.closeCallback])

variable {config}

theorem story_of_up {state : StateE} (hne : state ≠ .kConnecting) (hup : state ≠ .kDisconnected)
    (messages : ℕ) :
    config.story messages state
      = config.told true ++ List.replicate messages .messageCallback := by
  cases state with
  | kConnecting => exact absurd rfl hne
  | kDisconnected => exact absurd rfl hup
  | kConnected => rfl
  | kDisconnecting => rfl

end ServerConfig

namespace Server

/-- `epoll_wait` reports a channel once, and `EPOLLHUP` without `EPOLLIN` does not come with urgent
data. -/
def ReportsOnce (_ : Server n) : ServerAction n → Prop
  | .poll _ active =>
      (active.filterMap ActiveChannel.conn).Nodup ∧
        ∀ a ∈ active, a.Plain
  | _ => True

instance (w : Server n) : (action : ServerAction n) → Decidable (w.ReportsOnce action)
  | .poll _ _ => inferInstanceAs (Decidable (_ ∧ _))
  | .dispatch _ _ | .frame _ _ _ | .handled _ | .doPendingFunctors _ | .runFunctor _ _
  | .endBatch _ | .send _ _ _ _ | .sendFile _ _ _ _ _ _ | .shutdown _ _ | .queueInLoop _ | .hold _
  | .drop _ => inferInstanceAs (Decidable True)

/-- The user has heard the story of the connection so far, and what its loop has left to do of an event
fits the state. -/
structure Orderly (config : ServerConfig) (w : Server n) (conn : Nat) : Prop where
  story : conn < w.accepted →
    ∃ messages, callbacks (w.conns conn).trace = config.story messages (w.state conn)
  callback : conn < w.accepted →
    (w.conns conn).tcp.connectionCallback = config.connectionCallback
  calm : Calm (handlersOf conn (w.loops (w.loopOf conn)).stack)
  gone : w.state conn = .kDisconnected → (w.channel conn).index ≠ .kAdded ∧
    (w.channel conn).isWriting = false ∧
    .handleClose ∉ handlersOf conn (w.loops (w.loopOf conn)).stack ∧
    .handleRead ∉ handlersOf conn (w.loops (w.loopOf conn)).stack
  waiting : eventsOf conn (w.loops (w.loopOf conn)).activeChannels = [] ∨
    ∃ revents, eventsOf conn (w.loops (w.loopOf conn)).activeChannels = [revents] ∧
      ¬ClosesAndReads revents ∧ w.state conn ≠ .kDisconnected ∧
      handlersOf conn (w.loops (w.loopOf conn)).stack = []

variable {config : ServerConfig} {file : Nat → List Byte} {w w' : Server n} {conn other : Nat}
  {loop : Fin (n + 1)} {f : Session Nat → Session Nat} {g : ServerLoop → ServerLoop}

/-! ### Steps that are not about the connection -/

theorem Orderly.congr (h : w.Orderly config conn) (hconn : w'.conns conn = w.conns conn)
    (haccepted : conn < w'.accepted → conn < w.accepted)
    (hhandlers : handlersOf conn (w'.loops (w.loopOf conn)).stack
      = handlersOf conn (w.loops (w.loopOf conn)).stack)
    (hevents : eventsOf conn (w'.loops (w.loopOf conn)).activeChannels
      = eventsOf conn (w.loops (w.loopOf conn)).activeChannels) : w'.Orderly config conn := by
  have hloop : w'.loopOf conn = w.loopOf conn := by rw [loopOf, hconn]
  have hstate : w'.state conn = w.state conn := by rw [state, hconn]
  have hchannel : w'.channel conn = w.channel conn := by rw [channel, hconn]
  refine ⟨?_, ?_, ?_, ?_, ?_⟩
  · rw [hstate, hconn]
    exact fun hlt => h.story (haccepted hlt)
  · rw [hconn]
    exact fun hlt => h.callback (haccepted hlt)
  · rw [hloop, hhandlers]
    exact h.calm
  · rw [hstate, hchannel, hloop, hhandlers]
    exact h.gone
  · rw [hstate, hloop, hhandlers, hevents]
    exact h.waiting

theorem Orderly.modifyLoop (h : w.Orderly config conn)
    (hhandlers : loop = w.loopOf conn →
      handlersOf conn (g (w.loops loop)).stack = handlersOf conn (w.loops loop).stack)
    (hevents : loop = w.loopOf conn →
      eventsOf conn (g (w.loops loop)).activeChannels
        = eventsOf conn (w.loops loop).activeChannels) :
    (w.modifyLoop loop g).Orderly config conn := by
  by_cases heq : loop = w.loopOf conn
  · subst heq
    refine h.congr rfl id ?_ ?_ <;> rw [modifyLoop_loops_self]
    · exact hhandlers rfl
    · exact hevents rfl
  · refine h.congr rfl id ?_ ?_ <;> rw [modifyLoop_loops_of_ne (Ne.symm heq)]

/-- A step of the loop of the connection. -/
theorem Orderly.onLoop (h : w.Orderly config conn)
    (hcalm : Calm (handlersOf conn (g (w.loops (w.loopOf conn))).stack))
    (hgone : w.state conn = .kDisconnected →
      .handleClose ∉ handlersOf conn (g (w.loops (w.loopOf conn))).stack ∧
      .handleRead ∉ handlersOf conn (g (w.loops (w.loopOf conn))).stack)
    (hwaiting : eventsOf conn (g (w.loops (w.loopOf conn))).activeChannels = [] ∨
      ∃ revents, eventsOf conn (g (w.loops (w.loopOf conn))).activeChannels = [revents] ∧
        ¬ClosesAndReads revents ∧ w.state conn ≠ .kDisconnected ∧
        handlersOf conn (g (w.loops (w.loopOf conn))).stack = []) :
    (w.modifyLoop (w.loopOf conn) g).Orderly config conn := by
  have hself : (w.modifyLoop (w.loopOf conn) g).loops (w.loopOf conn)
      = g (w.loops (w.loopOf conn)) := modifyLoop_loops_self
  refine ⟨h.story, h.callback, ?_, fun hdown => ⟨(h.gone hdown).1, (h.gone hdown).2.1, ?_⟩, ?_⟩
  · change Calm (handlersOf conn ((w.modifyLoop _ g).loops (w.loopOf conn)).stack)
    rw [hself]
    exact hcalm
  · change _ ∉ handlersOf conn ((w.modifyLoop _ g).loops (w.loopOf conn)).stack ∧
      _ ∉ handlersOf conn ((w.modifyLoop _ g).loops (w.loopOf conn)).stack
    rw [hself]
    exact hgone hdown
  · change eventsOf conn ((w.modifyLoop _ g).loops (w.loopOf conn)).activeChannels = [] ∨
      ∃ revents, eventsOf conn ((w.modifyLoop _ g).loops (w.loopOf conn)).activeChannels = [revents] ∧
        _ ∧ _ ∧ handlersOf conn ((w.modifyLoop _ g).loops (w.loopOf conn)).stack = []
    rw [hself]
    exact hwaiting

theorem Orderly.push (h : w.Orderly config conn) (functor : ServerFunctor) :
    (w.modifyLoop loop fun l => l.push functor).Orderly config conn :=
  h.modifyLoop (fun _ => rfl) fun _ => rfl

theorem Orderly.userCode (h : w.Orderly config conn) :
    (w.modifyLoop loop fun l => { l with stack := .userCode :: l.stack }).Orderly config conn :=
  h.modifyLoop (fun _ => rfl) fun _ => rfl

theorem Orderly.removeConnectionInLoop (h : w.Orderly config conn) (other : Nat) :
    (w.removeConnectionInLoop other).Orderly config conn := by
  have herased : ({ w with connections := Function.update w.connections (w.conns other).name none }
      : Server n).Orderly config conn := h.congr rfl id rfl rfl
  exact herased.push _

theorem Orderly.onConnection_of_ne (h : w.Orderly config conn) (hne : other ≠ conn) :
    (w.onConnection other f).Orderly config conn := by
  refine h.congr (onConnection_conns_of_ne hne.symm) id ?_ ?_
  · rcases onConnection_loops_cases w other f (w.loopOf conn) with heq | heq <;> rw [heq]
    rw [ServerLoop.after, handlersOf_append, handlersOf_callbackFrames, List.nil_append]
  · rcases onConnection_loops_cases w other f (w.loopOf conn) with heq | heq <;> rw [heq]
    rfl

/-! ### Member functions of the connection -/

theorem Orderly.onConnection (h : w.Orderly config conn)
    (hstory : conn < w.accepted → ∃ messages,
      callbacks ((w.conns conn).trace ++ (f (w.session conn)).trace)
        = config.story messages (f (w.session conn)).conn.state)
    (hcallback : (f (w.session conn)).conn.connectionCallback
      = (w.conns conn).tcp.connectionCallback)
    (hgone : (f (w.session conn)).conn.state = .kDisconnected →
      (f (w.session conn)).conn.channel.index ≠ .kAdded ∧
      (f (w.session conn)).conn.channel.isWriting = false ∧
      .handleClose ∉ handlersOf conn (w.loops (w.loopOf conn)).stack ∧
      .handleRead ∉ handlersOf conn (w.loops (w.loopOf conn)).stack)
    (hwaiting : eventsOf conn (w.loops (w.loopOf conn)).activeChannels ≠ [] →
      w.state conn ≠ .kDisconnected → (f (w.session conn)).conn.state ≠ .kDisconnected) :
    (w.onConnection conn f).Orderly config conn := by
  have hloop : (w.onConnection conn f).loopOf conn = w.loopOf conn := onConnection_loop conn
  have hconn : (w.onConnection conn f).conns conn = { w.conns conn with
      tcp := (f (w.session conn)).conn
      trace := (w.conns conn).trace ++ (f (w.session conn)).trace } := onConnection_conns_self
  have hhandlers : handlersOf conn ((w.onConnection conn f).loops (w.loopOf conn)).stack
      = handlersOf conn (w.loops (w.loopOf conn)).stack := by
    rw [onConnection_loops_self, ServerLoop.after, handlersOf_append, handlersOf_callbackFrames,
      List.nil_append]
  have hevents : eventsOf conn ((w.onConnection conn f).loops (w.loopOf conn)).activeChannels
      = eventsOf conn (w.loops (w.loopOf conn)).activeChannels := by
    rw [onConnection_loops_self]
    rfl
  have hstate : (w.onConnection conn f).state conn = (f (w.session conn)).conn.state := by
    rw [state, hconn]
  refine ⟨?_, ?_, ?_, ?_, ?_⟩
  · rw [hstate, hconn]
    exact hstory
  · rw [hconn]
    exact fun hlt => hcallback.trans (h.callback hlt)
  · rw [hloop, hhandlers]
    exact h.calm
  · rw [hstate, channel, hconn, hloop, hhandlers]
    exact hgone
  · rw [hstate, hloop, hhandlers, hevents]
    rcases h.waiting with hnone | ⟨revents, hone, hplain, hup, hidle⟩
    · exact .inl hnone
    · refine .inr ⟨revents, hone, hplain, hwaiting ?_ hup, hidle⟩
      rw [hone]
      exact List.cons_ne_nil _ _

/-- A member function that calls nothing, and does nothing to a connection that is down. -/
theorem Orderly.quiet (h : w.Orderly config conn)
    (hcalls : Calls [] (w.session conn) (f (w.session conn)))
    (hstate : (f (w.session conn)).conn.state = w.state conn ∨
      w.state conn = .kConnected ∧ (f (w.session conn)).conn.state = .kDisconnecting)
    (hsame : w.state conn = .kDisconnected →
      (f (w.session conn)).conn.channel = w.channel conn) :
    (w.onConnection conn f).Orderly config conn := by
  have hdown : (f (w.session conn)).conn.state = .kDisconnected → w.state conn = .kDisconnected := by
    rcases hstate with hsame | ⟨-, hclosing⟩
    · rw [hsame]
      exact id
    · rw [hclosing]
      exact fun hdown => absurd hdown (by decide)
  have hcalled : callbacks (f (w.session conn)).trace = [] := hcalls.callbacks_eq
  refine h.onConnection (fun hlt => ?_) hcalls.connectionCallback_eq (fun hgone => ?_)
    fun _ hup hgone => hup (hdown hgone)
  · obtain ⟨messages, hstory⟩ := h.story hlt
    refine ⟨messages, ?_⟩
    rw [callbacks_append, hcalled, List.append_nil, hstory]
    rcases hstate with hsame | ⟨hconnected, hclosing⟩
    · rw [hsame]
    · rw [hconnected, hclosing]
      rfl
  · rw [hsame (hdown hgone)]
    exact h.gone (hdown hgone)

/-- The step that takes the connection down. -/
theorem Orderly.close (h : w.Orderly config conn) (hwatching : Watching (w.channel conn))
    (hup : w.state conn ≠ .kDisconnected) (hne : w.state conn ≠ .kConnecting)
    (hset : (w.conns conn).tcp.closeCallback = true)
    (hclose : .handleClose ∉ handlersOf conn (w.loops (w.loopOf conn)).stack)
    (hread : .handleRead ∉ handlersOf conn (w.loops (w.loopOf conn)).stack)
    (hnone : eventsOf conn (w.loops (w.loopOf conn)).activeChannels = [])
    (hclosed : f (w.session conn) = (w.session conn).handleClose ∨
      f (w.session conn) = (w.session conn).handleRead (.ok [])) :
    (w.onConnection conn f).Orderly config conn := by
  have hcalls : Calls ((if (w.conns conn).tcp.connectionCallback then [.connectionCallback false]
      else []) ++ [.closeCallback]) (w.session conn) (f (w.session conn)) := by
    have hif : (if (w.session conn).conn.closeCallback then [Event.closeCallback] else [])
        = [.closeCallback] := if_pos hset
    rcases hclosed with heq | heq <;> rw [heq, ← hif]
    · exact Calls.handleClose (w.session conn)
    · exact Calls.handleRead_eof (w.session conn)
  have hend : (f (w.session conn)).conn.state = .kDisconnected ∧
      (f (w.session conn)).conn.channel.index = .kDeleted ∧
      (f (w.session conn)).conn.channel.isWriting = false := by
    rcases hclosed with heq | heq <;> rw [heq]
    · exact ⟨(w.session conn).handleClose_closed.state_eq,
        Dispatch.handleClose_index hwatching.index_eq, (w.session conn).handleClose_closed.idle⟩
    · refine ⟨(w.session conn).handleRead_eof_closed.state_eq, ?_,
        (w.session conn).handleRead_eof_closed.idle⟩
      rw [Session.handleRead_eof]
      exact Dispatch.handleClose_index hwatching.index_eq
  obtain ⟨hdown, hindex, hidle⟩ := hend
  refine h.onConnection (fun hlt => ?_) hcalls.connectionCallback_eq (fun _ => ?_)
    fun hsome => absurd hnone hsome
  · obtain ⟨messages, hstory⟩ := h.story hlt
    have hcalled : callbacks (f (w.session conn)).trace = config.told false ++ [.closeCallback] := by
      rw [ServerConfig.told, ← h.callback hlt]
      exact hcalls.callbacks_eq
    refine ⟨messages, ?_⟩
    rw [callbacks_append, hcalled, hstory, hdown, ServerConfig.story_of_up hne hup]
    rfl
  · refine ⟨?_, hidle, hclose, hread⟩
    rw [hindex]
    decide

/-- A message, or a call of `handleRead` that reads nothing. -/
theorem Orderly.read (h : w.Orderly config conn) (hup : w.state conn ≠ .kDisconnected)
    (hne : w.state conn ≠ .kConnecting) {read : Except Errno (List Byte)} (hdata : read ≠ .ok []) :
    (w.onConnection conn fun s => s.handleRead read).Orderly config conn := by
  obtain ⟨-, -, -, -, hconn⟩ := (w.session conn).handleRead_of_data hdata
  have hstate : ((w.session conn).handleRead read).conn.state = w.state conn := by
    rw [hconn]
    rfl
  cases read with
  | error errno =>
    refine h.quiet (f := fun s => s.handleRead (.error errno)) (Calls.handleRead_error _ errno)
      (.inl hstate) fun hdown => absurd hdown hup
  | ok ready =>
    have hcalls := Calls.handleRead_data (w.session conn)
      (show ready ≠ [] from fun heq => hdata (congrArg _ heq))
    refine h.onConnection (fun hlt => ?_) hcalls.connectionCallback_eq (fun hdown => ?_)
      fun _ hup => hstate.symm ▸ hup
    · obtain ⟨messages, hstory⟩ := h.story hlt
      have hcalled : callbacks ((w.session conn).handleRead (.ok ready)).trace
          = if (w.session conn).conn.messageCallback then [.messageCallback] else [] :=
        hcalls.callbacks_eq
      rw [ServerConfig.story_of_up hne hup] at hstory
      rw [callbacks_append, hcalled, hstory, hstate]
      cases (w.session conn).conn.messageCallback with
      | false =>
        refine ⟨messages, ?_⟩
        rw [ServerConfig.story_of_up hne hup]
        exact List.append_nil _
      | true =>
        refine ⟨messages + 1, ?_⟩
        rw [ServerConfig.story_of_up hne hup, List.replicate_succ', List.append_assoc]
        rfl
    · exact absurd (hstate.symm.trans hdown) hup

/-! ### Handlers and functors -/

/-- The next handler is one of the connection. -/
theorem Orderly.handling (h : w.Orderly config conn) {frame : Frame} {rest : List Frame}
    {handler : Handler} (hstack : (w.loops (w.loopOf conn)).stack = frame :: rest)
    (hframe : frame.handler conn = some handler) :
    Calm (handler :: handlersOf conn rest) ∧
      eventsOf conn (w.loops (w.loopOf conn)).activeChannels = [] ∧
      (handler = .handleClose ∨ handler = .handleRead → w.state conn ≠ .kDisconnected) := by
  have hhandlers : handlersOf conn (w.loops (w.loopOf conn)).stack
      = handler :: handlersOf conn rest := by
    rw [hstack, handlersOf_cons, hframe]
    rfl
  refine ⟨?_, ?_, fun hclosing hdown => ?_⟩
  · rw [← hhandlers]
    exact h.calm
  · refine h.waiting.resolve_right ?_
    rintro ⟨-, -, -, -, hidle⟩
    rw [hhandlers] at hidle
    cases hidle
  · obtain ⟨-, -, hclose, hread⟩ := h.gone hdown
    rw [hhandlers] at hclose hread
    rcases hclosing with rfl | rfl
    · exact hclose List.mem_cons_self
    · exact hread List.mem_cons_self

theorem Orderly.popped (h : w.Orderly config conn) {frame : Frame} {rest : List Frame}
    (hstack : (w.loops loop).stack = frame :: rest) :
    (w.modifyLoop loop fun l => { l with stack := rest }).Orderly config conn := by
  have hhandlers : handlersOf conn (w.loops loop).stack
      = (frame.handler conn).toList ++ handlersOf conn rest := by
    rw [hstack, handlersOf_cons]
  by_cases heq : loop = w.loopOf conn
  · cases hframe : frame.handler conn with
    | none =>
      rw [hframe] at hhandlers
      exact h.modifyLoop (fun _ => hhandlers.symm) fun _ => rfl
    | some handler =>
      subst heq
      obtain ⟨hcalm, hnone, -⟩ := h.handling hstack hframe
      rw [hframe] at hhandlers
      refine h.onLoop hcalm.tail (fun hdown => ?_) (.inl hnone)
      obtain ⟨-, -, hclose, hread⟩ := h.gone hdown
      rw [hhandlers] at hclose hread
      exact ⟨fun hmem => hclose (List.mem_cons_of_mem _ hmem),
        fun hmem => hread (List.mem_cons_of_mem _ hmem)⟩
  · exact h.modifyLoop (fun hsame => absurd hsame heq) fun _ => rfl

theorem Settled.watching (h : w.Settled conn) (hne : w.state conn ≠ .kConnecting)
    (hup : w.state conn ≠ .kDisconnected) : Watching (w.channel conn) := by
  apply h.up
  revert hne hup
  cases w.state conn <;> simp

theorem Orderly.handleWrite (h : w.Orderly config conn) (write : Except Errno Nat) :
    (w.onConnection conn fun s => s.handleWrite write).Orderly config conn := by
  refine h.quiet (f := fun s => s.handleWrite write) (Calls.handleWrite _ write)
    (.inl (Session.handleWrite_state _ write)) fun hdown => ?_
  have hclosed : ClosedWith (w.session conn) (w.session conn) :=
    ⟨hdown, (h.gone hdown).2.1, rfl, rfl, rfl⟩
  rw [hclosed.handleWrite write]
  rfl

theorem event_of_handler {frame : Frame} {handler : Handler}
    (h : frame.handler conn = some handler) : frame.event = some conn := by
  cases frame with
  | removeConnection _ => cases h
  | userCode => cases h
  | _ own =>
    simp only [Frame.handler] at h
    split at h
    · rename_i hown
      exact congrArg some hown
    · cases h

/-- The handler of a connection runs on its loop, and after `connectEstablished`. -/
theorem Inv.handling (hinv : Inv config w) {frame : Frame} {rest : List Frame}
    (hstack : (w.loops loop).stack = frame :: rest) (hevent : frame.event = some conn) :
    loop = w.loopOf conn ∧ conn < w.accepted ∧ w.state conn ≠ .kConnecting := by
  have hmem : frame ∈ (w.loops loop).stack := by
    rw [hstack]
    exact List.mem_cons_self
  obtain ⟨hloop, hindex⟩ := (hinv.tracks loop conn).event (.inr ⟨frame, hmem, hevent⟩)
  exact ⟨hloop.symm, hinv.lt_of_index hindex, fun hstate => hindex (hinv.connecting conn hstate)⟩

/-- A handler that closes the connection. -/
theorem Orderly.closing (h : w.Orderly config conn) (hinv : Inv config w) (hsettled : w.Settled conn)
    {frame : Frame} {rest : List Frame} (hstack : (w.loops loop).stack = frame :: rest)
    {handler : Handler} (hframe : frame.handler conn = some handler)
    (hclosing : handler = .handleClose ∨ handler = .handleRead)
    (hclosed : (∀ s, f s = s.handleClose) ∨ ∀ s, f s = s.handleRead (.ok [])) :
    ((w.modifyLoop loop fun l => { l with stack := rest }).onConnection conn f).Orderly config
      conn := by
  obtain ⟨rfl, hlt, hne⟩ := hinv.handling hstack (event_of_handler hframe)
  obtain ⟨hcalm, hnone, hopen⟩ := h.handling hstack hframe
  have hup := hopen hclosing
  have hafter : .handleClose ∉ handlersOf conn rest ∧ .handleRead ∉ handlersOf conn rest := by
    rcases hclosing with rfl | rfl
    · exact hcalm.after_handleClose
    · exact hcalm.after_handleRead
  refine (h.popped hstack).close (hsettled.watching hne hup) hup hne (hsettled.callback hlt) ?_ ?_ ?_
    (hclosed.imp (fun heq => heq _) fun heq => heq _)
  · change _ ∉ handlersOf conn ((w.modifyLoop _ _).loops (w.loopOf conn)).stack
    rw [modifyLoop_loops_self]
    exact hafter.1
  · change _ ∉ handlersOf conn ((w.modifyLoop _ _).loops (w.loopOf conn)).stack
    rw [modifyLoop_loops_self]
    exact hafter.2
  · change eventsOf conn ((w.modifyLoop _ _).loops (w.loopOf conn)).activeChannels = []
    rw [modifyLoop_loops_self]
    exact hnone

theorem Orderly.runFrame (h : w.Orderly config conn) (hinv : Inv config w) (hsettled : w.Settled conn)
    {frame : Frame} {rest : List Frame} (hstack : (w.loops loop).stack = frame :: rest)
    (read : Except Errno (List Byte)) (write : Except Errno Nat) :
    ((w.modifyLoop loop fun l => { l with stack := rest }).runFrame loop read write frame).Orderly
      config conn := by
  have hpop := h.popped hstack
  cases frame with
  | handleClose other =>
    by_cases heq : other = conn
    · subst heq
      exact h.closing hinv hsettled hstack (if_pos rfl) (.inl rfl) (.inl fun _ => rfl)
    · exact hpop.onConnection_of_ne heq
  | handleError other =>
    by_cases heq : other = conn
    · subst heq
      exact hpop.quiet (Calls.refl _) (.inl rfl) fun _ => rfl
    · exact hpop.onConnection_of_ne heq
  | handleRead other =>
    by_cases heq : other = conn
    · subst heq
      by_cases heof : read = .ok []
      · subst heof
        exact h.closing hinv hsettled hstack (if_pos rfl) (.inr rfl) (.inr fun _ => rfl)
      · obtain ⟨rfl, -, hne⟩ := hinv.handling hstack rfl
        have hframe : (Frame.handleRead other).handler other = some .handleRead := if_pos rfl
        obtain ⟨-, -, hopen⟩ := h.handling hstack hframe
        exact hpop.read (hopen (.inr rfl)) hne heof
    · exact hpop.onConnection_of_ne (f := fun s => s.handleRead read) heq
  | handleWrite other =>
    by_cases heq : other = conn
    · subst heq
      exact hpop.handleWrite write
    · exact hpop.onConnection_of_ne heq
  | removeConnection other =>
    simp only [Server.runFrame, removeConnection]
    split
    · exact hpop.removeConnectionInLoop other
    · exact hpop.push _
  | userCode => exact hpop

/-- The connection is told UP. -/
theorem Orderly.connectEstablished (h : w.Orderly config conn)
    (hstate : w.state conn = .kConnecting) :
    (w.onConnection conn Session.connectEstablished).Orderly config conn := by
  have hcalls := Calls.connectEstablished (w.session conn)
  have hafter : (w.session conn).connectEstablished.conn.state = .kConnected :=
    (w.session conn).connectEstablished_spec.1
  refine h.onConnection (fun hlt => ?_) hcalls.connectionCallback_eq (fun hdown => ?_)
    fun _ _ hdown => ?_
  · obtain ⟨messages, hstory⟩ := h.story hlt
    have hcalled : callbacks (w.session conn).connectEstablished.trace = config.told true := by
      rw [ServerConfig.told, ← h.callback hlt]
      exact hcalls.callbacks_eq
    rw [hstate] at hstory
    refine ⟨0, ?_⟩
    rw [callbacks_append, hcalled, hstory, hafter]
    exact (List.append_nil _).symm
  · exact absurd (hafter.symm.trans hdown) (by decide)
  · exact absurd (hafter.symm.trans hdown) (by decide)

/-- The last call of a connection that is down: the channel goes out of the poller. -/
theorem Orderly.connectDestroyed (h : w.Orderly config conn)
    (hdown : w.state conn = .kDisconnected) :
    (w.onConnection conn Session.connectDestroyed).Orderly config conn := by
  have hremove : (w.session conn).connectDestroyed = (w.session conn).remove := by
    refine (w.session conn).connectDestroyed_of_ne ?_
    change w.state conn ≠ _
    rw [hdown]
    decide
  obtain ⟨-, hidle, hclose, hread⟩ := h.gone hdown
  refine h.onConnection (fun hlt => ?_) ?_ (fun _ => ?_) fun _ hup => absurd hdown hup
  · obtain ⟨messages, hstory⟩ := h.story hlt
    refine ⟨messages, ?_⟩
    rw [hremove]
    change callbacks ((w.conns conn).trace ++ []) = _
    rw [List.append_nil]
    exact hstory
  · rw [hremove]
    rfl
  · rw [hremove]
    refine ⟨?_, hidle, hclose, hread⟩
    change Index.kNew ≠ .kAdded
    decide

theorem Orderly.callFunctor (h : w.Orderly config conn) (hinv : Inv config w)
    (hhandshake : w.Handshake) (file : Nat → List Byte) {functor : ServerFunctor}
    {rest : List ServerFunctor} (htodo : (w.loops loop).todo = functor :: rest)
    (write : Except Errno Nat) :
    ((w.modifyLoop loop fun l => { l with todo := rest }).callFunctor file loop write
      functor).Orderly config conn := by
  have hpop : (w.modifyLoop loop fun l => { l with todo := rest }).Orderly config conn :=
    h.modifyLoop (fun _ => rfl) fun _ => rfl
  have hmem : functor ∈ (w.loops loop).queue := by
    apply List.mem_append_right
    rw [htodo]
    exact List.mem_cons_self
  cases functor with
  | connectEstablished other =>
    by_cases heq : other = conn
    · subst heq
      obtain ⟨-, hstate⟩ := (hinv.tracks loop other).establishing hmem
      exact hpop.connectEstablished hstate
    · exact hpop.onConnection_of_ne heq
  | connectDestroyed other =>
    by_cases heq : other = conn
    · subst heq
      exact hpop.connectDestroyed ((hhandshake.settled other).removing ⟨loop, .inr (.inr hmem)⟩)
    · exact hpop.onConnection_of_ne heq
  | removeConnectionInLoop other => exact hpop.removeConnectionInLoop other
  | task other task =>
    cases task with
    | sendFileInLoop fileDescriptor offset count =>
      simp only [Server.callFunctor]
      split
      · by_cases heq : other = conn
        · subst heq
          exact hpop.quiet (f := fun s => s.sendFileInLoop file fileDescriptor offset count write)
            (Calls.sendFileInLoop ..)
            (.inl (congrArg TcpConnection.state (Session.sendFileInLoop_conn ..)))
            fun _ => congrArg TcpConnection.channel (Session.sendFileInLoop_conn ..)
        · exact hpop.onConnection_of_ne heq
      · exact hpop.congr rfl id rfl rfl
    | writeCompleteCallback => exact hpop.userCode
    | highWaterMarkCallback length => exact hpop.userCode
  | user => exact hpop.userCode

/-- A call of the user, which does nothing on a connection that is not connected. -/
theorem Orderly.call (h : w.Orderly config conn)
    (hidle : w.state other ≠ .kConnected → f (w.session other) = w.session other)
    (hcalls : Calls [] (w.session other) (f (w.session other)))
    (hstays : StaysUp (w.session other) (f (w.session other))) :
    (w.onConnection other f).Orderly config conn := by
  by_cases heq : other = conn
  · subst heq
    refine h.quiet hcalls hstays.state_eq fun hdown => ?_
    rw [hidle (by rw [hdown]; decide)]
    rfl
  · exact h.onConnection_of_ne heq

/-! ### Events -/

theorem not_hasEvent_accepted (hinv : Inv config w) (loop : Fin (n + 1)) :
    ¬(w.loops loop).HasEvent w.accepted := fun hevent =>
  Nat.lt_irrefl _ (hinv.lt_of_index ((hinv.tracks loop w.accepted).event hevent).2)

theorem handlersOf_of_not_hasEvent {l : ServerLoop} (h : ¬l.HasEvent conn) :
    handlersOf conn l.stack = [] :=
  handlersOf_eq_nil fun frame hmem hevent => h (.inr ⟨frame, hmem, hevent⟩)

theorem eventsOf_of_not_hasEvent {l : ServerLoop} (h : ¬l.HasEvent conn) :
    eventsOf conn l.activeChannels = [] := by
  refine List.eq_nil_iff_forall_not_mem.mpr fun revents hmem => ?_
  exact h (.inl ⟨revents, mem_eventsOf.mp hmem⟩)

theorem Orderly.insertConnection (h : w.Orderly config conn) (hinv : Inv config w) (sockfd : Nat) :
    (w.insertConnection config sockfd).Orderly config conn := by
  by_cases heq : conn = w.accepted
  · subst heq
    have hself := w.insertConnection_conns_self config sockfd
    have hstate : (w.insertConnection config sockfd).state w.accepted = .kConnecting := by
      rw [state, hself]
      rfl
    have hhandlers := fun loop => handlersOf_of_not_hasEvent (not_hasEvent_accepted hinv loop)
    have hevents := fun loop => eventsOf_of_not_hasEvent (not_hasEvent_accepted hinv loop)
    refine ⟨fun _ => ⟨0, ?_⟩, fun _ => ?_, ?_, fun hdown => ?_, .inl (hevents _)⟩
    · rw [hstate, hself]
      rfl
    · rw [hself]
      rfl
    · exact (hhandlers _).symm ▸ Calm.nil
    · exact absurd (hstate.symm.trans hdown) (by decide)
  · refine h.congr (insertConnection_conns_of_ne config sockfd heq) ?_ rfl rfl
    change conn < w.accepted + 1 → conn < w.accepted
    omega

theorem Orderly.newConnection (h : w.Orderly config conn) (hinv : Inv config w) (sockfd : Nat) :
    (w.newConnection config sockfd).Orderly config conn := by
  have hinserted := h.insertConnection hinv sockfd
  simp only [Server.newConnection]
  split
  · by_cases heq : conn = w.accepted
    · subst heq
      refine hinserted.connectEstablished ?_
      rw [state, insertConnection_conns_self]
      rfl
    · exact hinserted.onConnection_of_ne (Ne.symm heq)
  · exact hinserted.push _

theorem Orderly.poppedActive (h : w.Orderly config conn) {a : ActiveChannel}
    {rest : List ActiveChannel} (hactive : (w.loops loop).activeChannels = a :: rest) :
    (w.modifyLoop loop fun l => { l with activeChannels := rest }).Orderly config conn := by
  have hevents : eventsOf conn (w.loops loop).activeChannels
      = (a.eventOf conn).toList ++ eventsOf conn rest := by
    rw [hactive, eventsOf_cons]
  by_cases heq : loop = w.loopOf conn
  · cases hevent : a.eventOf conn with
    | none =>
      rw [hevent] at hevents
      exact h.modifyLoop (fun _ => rfl) fun _ => hevents.symm
    | some revents =>
      subst heq
      rw [hevent] at hevents
      refine h.onLoop h.calm (fun hdown => (h.gone hdown).2.2) (.inl ?_)
      rcases h.waiting with hnone | ⟨other, hone, -⟩
      · rw [hnone] at hevents
        cases hevents
      · rw [hone] at hevents
        exact (List.cons.inj hevents).2.symm
  · exact h.modifyLoop (fun _ => rfl) fun hsame => absurd hsame heq

/-- The next event goes to the handlers of its connection. -/
theorem Orderly.handleEvent (h : w.Orderly config conn) (hinv : Inv config w) {a : ActiveChannel}
    {rest : List ActiveChannel} (hactive : (w.loops loop).activeChannels = a :: rest)
    (hidle : (w.loops loop).stack = []) (accepted : Option Nat) :
    ((w.modifyLoop loop fun l => { l with activeChannels := rest }).handleEvent config loop accepted
      a).Orderly config conn := by
  have hpop := h.poppedActive hactive
  have hshrinks := ServerLoop.shrinks_activeChannels hactive
  have hinvPop : Inv config (w.modifyLoop loop fun l => { l with activeChannels := rest }) :=
    hinv.shrinks hshrinks (hshrinks.inPhase (hinv.phase loop) rfl rfl rfl) fun _ _ => id
  cases a with
  | connection other revents =>
    simp only [Server.handleEvent]
    split
    · by_cases heq : other = conn
      · subst heq
        have hmem : .connection other revents ∈ (w.loops loop).activeChannels := by
          rw [hactive]
          exact List.mem_cons_self
        obtain rfl : w.loopOf other = loop :=
          ((hinv.tracks loop other).event (.inl ⟨revents, hmem⟩)).1
        have hhead := mem_eventsOf.mpr hmem
        obtain hnone | ⟨mask, hone, hplain, hup, -⟩ := h.waiting
        · rw [hnone] at hhead
          cases hhead
        · rw [hone, List.mem_singleton] at hhead
          subst hhead
          have hrest : eventsOf other rest = [] := by
            rw [hactive, eventsOf_cons, ActiveChannel.eventOf, if_pos rfl] at hone
            exact (List.cons.inj hone).2
          refine hpop.onLoop ⟨revents, hplain, ?_⟩ (fun hdown => absurd hdown hup) (.inl ?_)
          · rw [handlersOf_eventFrames_self]
          · change eventsOf other ((w.modifyLoop _ _).loops (w.loopOf other)).activeChannels = []
            rw [modifyLoop_loops_self]
            exact hrest
      · refine hpop.modifyLoop (fun _ => ?_) fun _ => rfl
        rw [handlersOf_eventFrames_of_ne heq, modifyLoop_loops_self]
        change [] = handlersOf conn (w.loops loop).stack
        rw [hidle]
        rfl
    · exact hpop.congr rfl id rfl rfl
  | acceptor =>
    cases accepted with
    | none => exact hpop
    | some sockfd => exact hpop.newConnection hinvPop sockfd
  | wakeup => exact hpop

/-- What a loop hears of, is in its interest list. -/
theorem Inv.added_of_reports (hinv : Inv config w) {revents : EventMask}
    (hreports : w.Reports (w.loopOf conn) (.connection conn revents)) :
    (w.channel conn).index = .kAdded := by
  obtain ⟨event, hset, hptr⟩ := Option.map_eq_some_iff.mp hreports
  obtain ⟨-, hadded⟩ := (hinv.coherent (w.loopOf conn)).owner _ event hset
  rw [hptr, channelOn, if_pos rfl] at hadded
  exact hadded

theorem Orderly.poll (h : w.Orderly config conn) (hinv : Inv config w) {active : List ActiveChannel}
    (hphase : (w.loops loop).phase = .polling) (hreports : ∀ a ∈ active, w.Reports loop a)
    (honce : w.ReportsOnce (.poll loop active)) :
    (w.modifyLoop loop fun l => { l with activeChannels := active, phase := .dispatching }).Orderly
      config conn := by
  by_cases heq : loop = w.loopOf conn
  · subst heq
    have hquiet : ¬(w.loops (w.loopOf conn)).HasEvent conn :=
      (hinv.phase _).dispatching (by rw [hphase]; decide) conn
    have hidle := handlersOf_of_not_hasEvent hquiet
    refine h.onLoop h.calm (fun hdown => (h.gone hdown).2.2) ?_
    have hlength : (eventsOf conn active).length ≤ 1 := by
      rw [length_eventsOf]
      exact List.nodup_iff_count_le_one.mp honce.1 conn
    cases hevents : eventsOf conn active with
    | nil => exact .inl rfl
    | cons revents others =>
      rw [hevents, List.length_cons] at hlength
      obtain rfl : others = [] := List.length_eq_zero_iff.mp (by omega)
      have hmem : .connection conn revents ∈ active := by
        rw [← mem_eventsOf, hevents]
        exact List.mem_cons_self
      have hadded := hinv.added_of_reports (hreports _ hmem)
      exact .inr ⟨revents, rfl, honce.2 _ hmem, fun hdown => (h.gone hdown).1 hadded, hidle⟩
  · exact h.modifyLoop (fun _ => rfl) fun hsame => absurd hsame heq

theorem Orderly.move (h : w.Orderly config conn) (hinv : Inv config w) (hhandshake : w.Handshake)
    {action : ServerAction n} (honce : w.ReportsOnce action)
    (hmove : w.move file config action = some w') : w'.Orderly config conn := by
  cases action with
  | poll loop active =>
    obtain ⟨⟨hphase, hreports⟩, rfl⟩ := guarded_eq_some.mp hmove
    exact h.poll hinv hphase hreports honce
  | dispatch loop accepted =>
    obtain ⟨a, rest, hactive, ⟨-, hidle, -⟩, rfl⟩ := move_dispatch hmove
    exact h.handleEvent hinv hactive hidle.1 accepted
  | frame loop read write =>
    obtain ⟨frame, rest, hstack, rfl⟩ := move_frame hmove
    exact h.runFrame hinv (hhandshake.settled conn) hstack read write
  | runFunctor loop write =>
    obtain ⟨functor, rest, htodo, -, rfl⟩ := move_runFunctor hmove
    exact h.callFunctor hinv hhandshake file htodo write
  | send loop other data write =>
    obtain ⟨-, rfl⟩ := guarded_eq_some.mp hmove
    exact h.call (f := fun s => s.send data write) (fun hstate => if_neg hstate)
      (Calls.send _ data write) (Updates.send _ data write).staysUp
  | sendFile loop other fileDescriptor offset count write =>
    obtain ⟨-, rfl⟩ := guarded_eq_some.mp hmove
    refine h.call (f := fun s => s.sendFile file fileDescriptor offset count write)
      (fun hstate => if_neg ?_) (Calls.sendFile ..) (Updates.sendFile ..).staysUp
    rw [TcpConnection.connected, decide_eq_true_iff]
    exact hstate
  | shutdown loop other =>
    obtain ⟨-, rfl⟩ := guarded_eq_some.mp hmove
    exact h.call (fun hstate => if_neg hstate) (Calls.shutdown _) (Updates.shutdown _).staysUp
  | queueInLoop loop =>
    obtain rfl := Option.some.inj hmove
    exact h.push _
  | drop other =>
    obtain rfl := Option.some.inj hmove
    exact h.congr rfl id rfl rfl
  | hold other =>
    obtain ⟨-, rfl⟩ := guarded_eq_some.mp hmove
    exact h.congr rfl id rfl rfl
  | _ =>
    obtain ⟨-, rfl⟩ := guarded_eq_some.mp hmove
    exact h.modifyLoop (fun _ => rfl) fun _ => rfl

/-! ### Runs -/

theorem orderly_new (config : ServerConfig) (conn : Nat) : (new : Server n).Orderly config conn := by
  refine ⟨fun hlt => absurd hlt (Nat.not_lt_zero conn),
    fun hlt => absurd hlt (Nat.not_lt_zero conn), Calm.nil, fun _ => ?_, .inl rfl⟩
  have hchannel : (new : Server n).channel conn = Channel.new 0 := rfl
  rw [hchannel]
  exact ⟨by decide, by decide, List.not_mem_nil, List.not_mem_nil⟩

theorem orderly_of_reachable (h : (system file config).ReachableUnder ReportsOnce w)
    (hfew : w.accepted < 2 ^ 31) (conn : Nat) : w.Orderly config conn := by
  have hall : w.accepted < 2 ^ 31 → Inv config w ∧ w.Handshake ∧ w.Orderly config conn := by
    refine h.invariant (I := fun v => v.accepted < 2 ^ 31 →
      Inv config v ∧ v.Handshake ∧ v.Orderly config conn) ?_ ?_
    · rintro v rfl -
      exact ⟨inv_new config, handshake_new, orderly_new config conn⟩
    · rintro v action v' hinv honce hstep hfew'
      obtain ⟨hinvBefore, hhandshake, horderly⟩ := hinv ((accepted_le_step hstep).trans_lt hfew')
      obtain ⟨u, hmove, rfl⟩ := step_eq_some hstep
      have hmoved := horderly.move hinvBefore hhandshake honce hmove
      exact ⟨step_inv (fun _ => hinvBefore) hstep hfew', step_handshake hinvBefore hhandshake hstep hfew',
        hmoved.congr rfl id rfl rfl⟩
  exact (hall hfew).2.2

/-- **The user hears the story of every connection**: UP, messages, and at its end DOWN and
`closeCallback_`, each once and in this order, as far as the state of the connection says. So in every
run of a server with fewer than `2 ^ 31` accepted connections, whatever the other connections, loops and
users do. -/
theorem callbacks_in_order (file : Nat → List Byte) {w : Server n}
    (hreach : (system file config).ReachableUnder ReportsOnce w) (hfew : w.accepted < 2 ^ 31)
    {conn : Nat} (hlt : conn < w.accepted) :
    ∃ messages, callbacks (w.conns conn).trace = config.story messages (w.state conn) :=
  (orderly_of_reachable hreach hfew conn).story hlt

/-- Two connections of the main loop. The peer of the first hangs up. -/
theorem callbacks_in_order_hangup :
    ∃ w : Server 0, (system (fun _ => []) echoServer).ReachableUnder ReportsOnce w ∧
      (∃ messages, callbacks (w.conns 0).trace = echoServer.story messages .kDisconnected) ∧
      ∃ messages, callbacks (w.conns 1).trace = echoServer.story messages .kConnected := by
  obtain ⟨w, hw, hfew, hlt, hdown, hup⟩ : ∃ w : Server 0,
      (system (fun _ => []) echoServer).exec new
        [.poll 0 [.acceptor, .acceptor], .dispatch 0 (some 7), .frame 0 (.ok []) (.ok 0),
          .dispatch 0 (some 8), .frame 0 (.ok []) (.ok 0), .doPendingFunctors 0, .endBatch 0,
          .poll 0 [.connection 0 EPOLLHUP], .dispatch 0 none, .frame 0 (.ok []) (.ok 0)] = some w ∧
      w.accepted < 2 ^ 31 ∧ 1 < w.accepted ∧ w.state 0 = .kDisconnected ∧
      w.state 1 = .kConnected := ⟨_, rfl, by decide, by decide, rfl, rfl⟩
  have hreach : (system (fun _ => []) echoServer).ReachableUnder ReportsOnce w := by
    have hhup : ¬ClosesAndReads EPOLLHUP := by decide
    refine ⟨new, _, rfl, System.runUnder_of_exec ?_ hw⟩
    simp [ReportsOnce, List.filterMap, ActiveChannel.conn, ActiveChannel.Plain, hhup]
  obtain ⟨messages, hstory⟩ := callbacks_in_order _ hreach hfew (Nat.lt_of_succ_lt hlt)
  obtain ⟨others, hother⟩ := callbacks_in_order _ hreach hfew hlt
  exact ⟨w, hreach, ⟨messages, hdown ▸ hstory⟩, others, hup ▸ hother⟩

end Server

end MuduoCore
