import MuduoCore.TcpConnection.Close
import MuduoCore.TcpConnection.Output
import MuduoCore.TcpServer.Projection

/-!
# The streams of all connections

What was proved of one connection on its own, read off the connections of a running server. The kernel's
interest lists belong to the loops, and they say of every connection that is up whether it has output
left to write.
-/

namespace MuduoCore

variable {κ : Type*}

/-- No call of `::write` has met `EPIPE` or `ECONNRESET`. -/
def Unbroken (trace : List Event) : Prop := ∀ errno, .writeError errno ∈ trace → ¬IsFatal errno

theorem Unbroken.of_append {before more : List Event} (h : Unbroken (before ++ more)) :
    Unbroken before := fun errno hmem => h errno (List.mem_append_left _ hmem)

/-- The interest of a connection that is up, in the kernel's list or not. -/
structure Interested (c : Channel) : Prop where
  index_ne : c.index ≠ .kDeleted
  events : c.events = Channel.kReadEvent ∨
    c.events = Channel.kReadEvent ||| Channel.kWriteEvent

theorem Watching.interested {c : Channel} (h : Watching c) : Interested c :=
  ⟨by rw [h.index_eq]; decide, h.events⟩

theorem Updates.interested {s s' : Session κ} (hupdates : Updates s s')
    (h : Interested s.conn.channel) : Interested s'.conn.channel := by
  induction hupdates with
  | trans _ _ ihfst ihsnd => exact ihsnd (ihfst h)
  | enableWriting s =>
    refine (Watching.setEvents _ _ _ ?_).interested
    rcases h.events with hevents | hevents <;> rw [hevents]
    · exact .inr rfl
    · exact .inr (by decide)
  | disableWriting s =>
    refine (Watching.setEvents _ _ _ ?_).interested
    rcases h.events with hevents | hevents <;> rw [hevents]
    · exact .inl (by decide)
    · exact .inl (by decide)
  | _ => exact h

/-- The mask that `epoll_ctl` was given last. -/
def interestOf (content : List Byte) : EventMask :=
  if content = [] then Channel.kReadEvent else Channel.kReadEvent ||| Channel.kWriteEvent

theorem Interested.events_eq {c : Channel} (h : Interested c) {content : List Byte}
    (hwriting : c.isWriting = true ↔ content ≠ []) : c.events = interestOf content := by
  unfold interestOf
  rcases h.events with hevents | hevents
  · have hidle : c.isWriting = false := by
      rw [Channel.isWriting, hevents]
      decide
    rw [if_pos, hevents]
    by_contra hne
    rw [hwriting.mpr hne] at hidle
    cases hidle
  · have hbusy : c.isWriting = true := by
      rw [Channel.isWriting, hevents]
      decide
    rw [if_neg (hwriting.mp hbusy), hevents]

namespace Running

variable (file : Nat → List Byte) {r r' : Running κ} {step : Step}

theorem step_trace (hstep : Running.step file r step = some r') :
    ∃ more, r'.session.trace = r.session.trace ++ more := by
  have h : Session.Resumes r.session.trace [] { r.session with trace := [] } r.session :=
    ⟨rfl, (List.append_nil _).symm, rfl⟩
  cases step with
  | send data answer =>
    obtain rfl := Option.some.inj hstep
    exact ⟨_, (h.send data answer).trace_eq⟩
  | sendFile fileDescriptor offset count answer =>
    obtain rfl := Option.some.inj hstep
    exact ⟨_, (h.sendFile file fileDescriptor offset count answer).trace_eq⟩
  | shutdown =>
    obtain rfl := Option.some.inj hstep
    exact ⟨_, h.shutdown.trace_eq⟩
  | handleRead answer =>
    obtain rfl := Option.some.inj hstep
    exact ⟨_, (h.handleRead answer).trace_eq⟩
  | handleWrite answer =>
    obtain rfl := Option.some.inj hstep
    exact ⟨_, (h.handleWrite answer).trace_eq⟩
  | handleClose =>
    obtain rfl := Option.some.inj hstep
    exact ⟨_, h.handleClose.trace_eq⟩
  | handleError =>
    obtain rfl := Option.some.inj hstep
    exact ⟨_, h.trace_eq⟩
  | connectDestroyed =>
    obtain rfl := Option.some.inj hstep
    exact ⟨_, h.connectDestroyed.trace_eq⟩
  | doPendingFunctors =>
    obtain ⟨-, rfl⟩ := step_doPendingFunctors hstep
    exact ⟨[], (List.append_nil _).symm⟩
  | runFunctor answer =>
    obtain ⟨task, rest, -, rfl⟩ := step_runFunctor hstep
    exact ⟨_, (h.runTask file answer task).trace_eq⟩

/-- A step that does not take the connection down keeps it open as in a run on its own, or is the
`connectDestroyed` of a connection that is shutting down. -/
theorem keepsOpen_of_up (hstep : Running.step file r step = some r')
    (hup : r'.session.conn.state ≠ .kDisconnected) (hunbroken : Unbroken r'.session.trace) :
    KeepsOpen r step ∨ r'.session = r.session.remove := by
  have hafter := step_state file hstep
  cases step with
  | send data answer =>
    refine .inl fun hstate => ?_
    rintro ⟨hdirect, errno, rfl, hfatal⟩
    obtain rfl := Option.some.inj hstep
    refine hunbroken errno ?_ hfatal
    have hfaults : (r.session.emit (.send data)).SendFaults (.error errno) :=
      ⟨hdirect, errno, rfl, hfatal⟩
    change .writeError errno ∈ (r.session.send data (.error errno)).trace
    rw [Session.send, if_pos hstate, Session.sendInLoop_of_faults _ _ (by simp [hstate]) hfaults]
    simp
  | handleRead answer =>
    refine .inl ?_
    rintro rfl
    exact hup hafter
  | handleClose => exact absurd hafter hup
  | connectDestroyed =>
    refine .inr ?_
    obtain rfl := Option.some.inj hstep
    refine r.session.connectDestroyed_of_ne fun hconnected => hup ?_
    rw [hafter, Step.nextState, if_pos hconnected]
  | _ => exact .inl trivial

theorem up_before (hstep : Running.step file r step = some r')
    (hup : r'.session.conn.state ≠ .kDisconnected) : r.session.conn.state ≠ .kDisconnected := by
  intro hdown
  apply hup
  rw [step_state file hstep, hdown]
  unfold Step.nextState
  split <;> rfl

end Running

theorem Flow.remove {s : Session κ} (h : Flow s) : Flow s.remove :=
  h.of_silent silent_nil (List.append_nil _).symm rfl rfl s.remove_isWriting

namespace Running

variable {file : Nat → List Byte} {r r' : Running κ} {step : Step}

/-- Until the connection goes down its output is intact, also after a `connectDestroyed` that found it
shutting down. -/
theorem flow_of_up (hreach : (system file).Reachable r) (hup : r.session.conn.state ≠ .kDisconnected)
    (hunbroken : Unbroken r.session.trace) : Flow r.session := by
  refine hreach.invariant (I := fun r : Running κ => r.session.conn.state ≠ .kDisconnected →
    Unbroken r.session.trace → Flow r.session) ?_ ?_ hup hunbroken
  · exact fun r hinit _ _ => flow_of_established hinit
  · intro r step r' hflow _ hstep hup hunbroken
    obtain ⟨more, htrace⟩ := step_trace file hstep
    have hbefore := hflow (up_before file hstep hup) (Unbroken.of_append (htrace ▸ hunbroken))
    rcases keepsOpen_of_up file hstep hup hunbroken with hopen | hremoved
    · exact flow_step file hbefore hopen hstep
    · rw [hremoved]
      exact hbefore.remove

theorem interested_step (h : Interested r.session.conn.channel)
    (hstep : Running.step file r step = some r')
    (hup : r'.session.conn.state ≠ .kDisconnected) : Interested r'.session.conn.channel := by
  have hafter := step_state file hstep
  cases step with
  | send data answer =>
    obtain rfl := Option.some.inj hstep
    exact (Updates.send _ data answer).interested h
  | sendFile fileDescriptor offset count answer =>
    obtain rfl := Option.some.inj hstep
    exact (Updates.sendFile _ file fileDescriptor offset count answer).interested h
  | shutdown =>
    obtain rfl := Option.some.inj hstep
    exact (Updates.shutdown _).interested h
  | handleRead answer =>
    obtain rfl := Option.some.inj hstep
    refine (Updates.handleRead _ ?_).interested h
    rintro rfl
    exact hup hafter
  | handleWrite answer =>
    obtain rfl := Option.some.inj hstep
    exact (Updates.handleWrite _ answer).interested h
  | handleClose => exact absurd hafter hup
  | handleError =>
    obtain rfl := Option.some.inj hstep
    exact h
  | connectDestroyed =>
    obtain rfl := Option.some.inj hstep
    have hne : r.session.conn.state ≠ .kConnected := by
      intro hconnected
      rw [Step.nextState, if_pos hconnected] at hafter
      exact hup hafter
    have hremoved : r.session.connectDestroyed = r.session.remove :=
      r.session.connectDestroyed_of_ne hne
    change Interested r.session.connectDestroyed.conn.channel
    rw [hremoved]
    refine ⟨?_, h.events⟩
    intro hdeleted
    cases hdeleted
  | doPendingFunctors =>
    obtain ⟨-, rfl⟩ := step_doPendingFunctors hstep
    exact h
  | runFunctor answer =>
    obtain ⟨task, rest, -, rfl⟩ := step_runFunctor hstep
    exact (Updates.runTask _ file answer task).interested h

theorem interested_of_up (hreach : (system file).Reachable r)
    (hup : r.session.conn.state ≠ .kDisconnected) : Interested r.session.conn.channel := by
  refine hreach.invariant (I := fun r : Running κ => r.session.conn.state ≠ .kDisconnected →
    Interested r.session.conn.channel) ?_ ?_ hup
  · rintro r hinit -
    obtain ⟨self, poller, fd, mark, size, _, _, _, _, _, hsession, -⟩ := hinit
    rw [hsession]
    exact (connectEstablished_watching rfl).interested
  · intro r step r' h _ hstep hup
    exact interested_step (h (up_before file hstep hup)) hstep hup

end Running

namespace Server

variable {n : ℕ} {config : ServerConfig} {w : Server n} {conn : Nat}

theorem flow_of_reachable {file : Nat → List Byte} (hreach : (system file config).Reachable w)
    (hfew : w.accepted < 2 ^ 31) (hlt : conn < w.accepted)
    (hup : w.state conn = .kConnected ∨ w.state conn = .kDisconnecting)
    (hunbroken : Unbroken (w.conns conn).trace) :
    ∃ r, (Running.system file).Reachable r ∧ w.StandsFor conn r ∧ Flow r.session := by
  have hne : w.state conn ≠ .kConnecting ∧ w.state conn ≠ .kDisconnected := by
    rcases hup with hstate | hstate <;> rw [hstate] <;> decide
  obtain ⟨r, hrun, hr⟩ := (runsAlone_of_reachable hreach hfew conn).run hlt hne.1
  refine ⟨r, hrun, hr, Running.flow_of_up hrun ?_ ?_⟩
  · rw [hr.conn_eq]
    exact hne.2
  · rw [hr.trace_eq]
    exact hunbroken

/-- **The streams of a server stay intact.** For every connection that is up and whose writes have not
failed, whatever the other connections and loops do: what `::write` has accepted, followed by the output
buffer, is what was sent, and the half close has been asked for exactly if the connection shuts down
and has nothing left to write. -/
theorem streams_intact (file : Nat → List Byte) {w : Server n}
    (hreach : (system file config).Reachable w) (hfew : w.accepted < 2 ^ 31) {conn : Nat}
    (hlt : conn < w.accepted)
    (hup : w.state conn = .kConnected ∨ w.state conn = .kDisconnecting)
    (hunbroken : Unbroken (w.conns conn).trace) :
    let c := w.conns conn
    written c.trace ++ c.tcp.outputBuffer.content = MuduoCore.accepted c.trace ∧
      (.shutdownWrite ∈ c.trace ↔
        c.tcp.state = .kDisconnecting ∧ c.tcp.outputBuffer.content = []) ∧
      c.trace.count .shutdownWrite ≤ 1 ∧
      ∀ before after, c.trace = before ++ .shutdownWrite :: after →
        ∀ event ∈ after, event.isWrite = false := by
  obtain ⟨r, -, hr, hflow⟩ := flow_of_reachable hreach hfew hlt hup hunbroken
  have hstream := hflow.stream
  have hfin := hflow.fin_iff
  have hlast := hflow.fin_last
  rw [hr.trace_eq, hr.conn_eq] at hstream hfin
  rw [hr.trace_eq] at hlast
  refine ⟨hstream, hfin, hlast.count_le, ?_⟩
  intro before after htrace
  exact FinLast.no_write_after (htrace ▸ hlast)

theorem streams_intact_two :
    ∃ w : Server 1, (system (fun _ => []) echoServer).exec new (twoConnections 0 1) = some w ∧
      (w.conns 0).tcp.outputBuffer.content = [2, 3] := by
  obtain ⟨w, hw, hfew, hlt, hstate, htrace⟩ : ∃ w : Server 1,
      (system (fun _ => []) echoServer).exec new (twoConnections 0 1) = some w ∧ w.accepted < 2 ^ 31 ∧
      0 < w.accepted ∧ w.state 0 = .kConnected ∧
      (w.conns 0).trace = [.connectionCallback true, .send [1, 2, 3], .write [1]] :=
    ⟨_, rfl, by decide, by decide, rfl, rfl⟩
  obtain ⟨hstream, -, -, -⟩ := streams_intact _ (System.reachable_of_exec rfl hw) hfew hlt
    (.inl hstate) (by rw [htrace]; simp [Unbroken])
  rw [htrace] at hstream
  exact ⟨w, hw, (List.cons.inj hstream).2⟩

/-- **The kernel watches what it should.** The entry of a connection in the interest list of its loop asks
for `EPOLLIN`, and for `EPOLLOUT` exactly while output waits. -/
theorem interest_list_exact (file : Nat → List Byte) {w : Server n}
    (hreach : (system file config).Reachable w) (hfew : w.accepted < 2 ^ 31) {conn : Nat}
    (hlt : conn < w.accepted)
    (hup : w.state conn = .kConnected ∨ w.state conn = .kDisconnecting)
    (hunbroken : Unbroken (w.conns conn).trace) (hindex : (w.channel conn).index ≠ .kNew) :
    (w.loops (w.loopOf conn)).poller.epollfd (w.channel conn).fd
      = some ⟨interestOf (w.conns conn).tcp.outputBuffer.content, conn⟩ := by
  obtain ⟨r, hrun, hr, hflow⟩ := flow_of_reachable hreach hfew hlt hup hunbroken
  have hinterest := Running.interested_of_up hrun hflow.state_ne_disconnected
  have hwriting := hflow.writing
  rw [hr.conn_eq] at hinterest hwriting
  have hadded : (w.channel conn).index = .kAdded := by
    have hkept := hinterest.index_ne
    cases heq : (w.channel conn).index with
    | kNew => exact absurd heq hindex
    | kAdded => rfl
    | kDeleted => exact absurd heq hkept
  have hchannel : w.channelOn (w.loopOf conn) conn = w.channel conn := if_pos rfl
  have hentry := ((inv_of_reachable hreach hfew).coherent (w.loopOf conn)).registered conn
  rw [hchannel] at hentry
  rw [hentry hadded]
  exact congrArg (fun events => some (EpollEvent.mk events conn))
    (hinterest.events_eq hwriting)

theorem interest_list_exact_two :
    ∃ w : Server 1, (system (fun _ => []) echoServer).exec new (twoConnections 0 1) = some w ∧
      (w.conns 0).tcp.outputBuffer.content ≠ [] ∧ (w.conns 1).tcp.outputBuffer.content = [] := by
  obtain ⟨w, hw, hfew, hlt, hstates, htraces, hindices, hentries⟩ : ∃ w : Server 1,
      (system (fun _ => []) echoServer).exec new (twoConnections 0 1) = some w ∧ w.accepted < 2 ^ 31 ∧
      1 < w.accepted ∧
      (w.state 0 = .kConnected ∧ w.state 1 = .kConnected) ∧
      ((w.conns 0).trace = [.connectionCallback true, .send [1, 2, 3], .write [1]] ∧
        (w.conns 1).trace = [.connectionCallback true]) ∧
      ((w.channel 0).index = .kAdded ∧ (w.channel 1).index = .kAdded) ∧
      ((w.loops (w.loopOf 0)).poller.epollfd (w.channel 0).fd
          = some ⟨Channel.kReadEvent ||| Channel.kWriteEvent, 0⟩ ∧
        (w.loops (w.loopOf 1)).poller.epollfd (w.channel 1).fd = some ⟨Channel.kReadEvent, 1⟩) :=
    ⟨_, rfl, by decide, by decide, ⟨rfl, rfl⟩, ⟨rfl, rfl⟩, ⟨rfl, rfl⟩, ⟨rfl, rfl⟩⟩
  have hreach := System.reachable_of_exec rfl hw
  have hfirst := interest_list_exact _ hreach hfew (Nat.lt_of_succ_lt hlt) (.inl hstates.1)
    (by rw [htraces.1]; simp [Unbroken]) (by rw [hindices.1]; decide)
  have hsecond := interest_list_exact _ hreach hfew hlt (.inl hstates.2)
    (by rw [htraces.2]; simp [Unbroken]) (by rw [hindices.2]; decide)
  rw [hentries.1] at hfirst
  rw [hentries.2] at hsecond
  refine ⟨w, hw, ?_, ?_⟩
  · intro hempty
    rw [hempty] at hfirst
    exact absurd hfirst (by decide)
  · by_contra hne
    rw [interestOf, if_neg hne] at hsecond
    exact absurd hsecond (by decide)

end Server

end MuduoCore
