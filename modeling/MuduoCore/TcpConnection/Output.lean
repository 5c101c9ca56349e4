import MuduoCore.Lib.Traces
import MuduoCore.TcpConnection.Effects
import MuduoCore.TcpConnection.Runs

/-!
# The output stream of a connection

What `::write` has accepted, followed by what waits in the output buffer, is what the user sent. The
connection waits for `EPOLLOUT` exactly while something waits in the buffer, and the half close comes
once, after the last byte.
-/

namespace MuduoCore

variable {κ : Type*}

/-- Nothing is written, and nothing shut down again, after a half close. -/
def FinLast (trace : List Event) : Prop :=
  trace.Pairwise fun earlier later =>
    earlier = .shutdownWrite → later ≠ .shutdownWrite ∧ later.isWrite = false

theorem FinLast.append_of_notMem {trace more : List Event} (hfin : Event.shutdownWrite ∉ trace)
    (hmore : FinLast more) : FinLast (trace ++ more) :=
  FollowedBy.append_of_notMem hfin hmore

theorem FinLast.append_silent {trace more : List Event} (htrace : FinLast trace)
    (hmore : ∀ event ∈ more, event ≠ .shutdownWrite ∧ event.isWrite = false) :
    FinLast (trace ++ more) :=
  FollowedBy.append htrace hmore

theorem FinLast.count_le {trace : List Event} (h : FinLast trace) :
    trace.count .shutdownWrite ≤ 1 :=
  FollowedBy.count_le h fun hfin => hfin.1 rfl

theorem FinLast.no_write_after {before after : List Event}
    (h : FinLast (before ++ .shutdownWrite :: after)) : ∀ event ∈ after, event.isWrite = false :=
  fun event hmem => (FollowedBy.forall_after h event hmem).2

/-- The joint invariant of the trace, the buffer, the interest in `EPOLLOUT` and `state_`. -/
structure Flow (s : Session κ) : Prop where
  stream : written s.trace ++ s.conn.outputBuffer.content = accepted s.trace
  writing : s.conn.channel.isWriting = true ↔ s.conn.outputBuffer.content ≠ []
  live : s.conn.state = .kConnected ∨ s.conn.state = .kDisconnecting
  fin_iff : .shutdownWrite ∈ s.trace ↔
    s.conn.state = .kDisconnecting ∧ s.conn.outputBuffer.content = []
  fin_last : FinLast s.trace

namespace Flow

variable {s s' : Session κ}

theorem of_silent (h : Flow s) {events : List Event} (hevents : Silent events)
    (htrace : s'.trace = s.trace ++ events) (hstate : s'.conn.state = s.conn.state)
    (hbuffer : s'.conn.outputBuffer = s.conn.outputBuffer)
    (hwriting : s'.conn.channel.isWriting = s.conn.channel.isWriting) : Flow s' := by
  have hfin : .shutdownWrite ∈ s'.trace ↔ .shutdownWrite ∈ s.trace := by
    rw [htrace, List.mem_append, or_iff_left]
    exact fun hmem => (hevents _ hmem).1 rfl
  refine ⟨?_, ?_, ?_, ?_, ?_⟩
  · rw [htrace, written_append, accepted_append, hevents.written_eq, hevents.accepted_eq, hbuffer,
      List.append_nil, List.append_nil]
    exact h.stream
  · rw [hbuffer, hwriting]
    exact h.writing
  · rw [hstate]
    exact h.live
  · rw [hfin, hstate, hbuffer]
    exact h.fin_iff
  · rw [htrace]
    exact h.fin_last.append_silent fun event hmem =>
      ⟨(hevents event hmem).1, (hevents event hmem).2.1⟩

theorem state_ne_disconnected (h : Flow s) : s.conn.state ≠ .kDisconnected := by
  rcases h.live with hstate | hstate <;> rw [hstate] <;> decide

/-- As long as the connection is not closing, no half close was asked for. -/
theorem fin_notMem (h : Flow s) (hstate : s.conn.state = .kConnected) :
    Event.shutdownWrite ∉ s.trace := by
  intro hmem
  have := (h.fin_iff.mp hmem).1
  rw [hstate] at this
  cases this

theorem fin_notMem_of_writes {wrote : List Event} (hwrites : ∀ event ∈ wrote, event.isWrite = true) :
    Event.shutdownWrite ∉ wrote := fun hmem => by cases hwrites _ hmem

theorem accepted_of_writes {wrote : List Event} (hwrites : ∀ event ∈ wrote, event.isWrite = true) :
    accepted wrote = [] := by
  apply List.flatMap_eq_nil_iff.mpr
  intro event hmem
  have := hwrites event hmem
  cases event <;> first | rfl | cases this

theorem finLast_of_notMem {events : List Event} (h : Event.shutdownWrite ∉ events) :
    FinLast events :=
  FollowedBy.of_notMem h

theorem send (h : Flow s) (data : List Byte) (answer : Except Errno Nat)
    (hfault : s.conn.state = .kConnected → ¬s.SendFaults answer) : Flow (s.send data answer) := by
  unfold Session.send
  split
  · rename_i hstate
    obtain ⟨wrote, hout⟩ := Session.sendInLoop_output (s.emit (.send data)) data answer
      h.state_ne_disconnected h.writing (hfault hstate)
    have hfresh : Event.shutdownWrite ∉ s.trace ++ [.send data] ++ wrote := by
      simpa [fin_notMem_of_writes hout.writes] using h.fin_notMem hstate
    refine ⟨?_, hout.writing, ?_, ?_, ?_⟩
    · have hstream := h.stream
      have hbytes := hout.bytes
      simp only [Session.emit_conn] at hbytes
      rw [hout.trace_eq, Session.emit_trace]
      simp only [written_append, accepted_append, accepted_of_writes hout.writes]
      calc written s.trace ++ written [.send data] ++ written wrote
            ++ ((s.emit (.send data)).sendInLoop data answer).conn.outputBuffer.content
          = written s.trace ++ (written wrote
              ++ ((s.emit (.send data)).sendInLoop data answer).conn.outputBuffer.content) := by
            simp [written, Event.writtenBytes]
        _ = accepted s.trace ++ data := by
            rw [hbytes, ← List.append_assoc, hstream]
        _ = accepted s.trace ++ accepted [.send data] ++ [] := by
            simp [accepted, Event.acceptedBytes]
    · rw [hout.state_eq]
      exact Or.inl hstate
    · rw [hout.trace_eq, hout.state_eq, Session.emit_conn, hstate, Session.emit_trace]
      exact iff_of_false hfresh (by simp)
    · rw [hout.trace_eq, Session.emit_trace]
      exact finLast_of_notMem hfresh
  · exact h

theorem handleWrite (h : Flow s) (answer : Except Errno Nat) : Flow (s.handleWrite answer) := by
  obtain ⟨wrote, hdrained⟩ := Session.handleWrite_drained s answer h.writing
  set after := s.handleWrite answer with hafter
  have hfresh := fin_notMem_of_writes hdrained.writes
  have hsilent := accepted_of_writes hdrained.writes
  by_cases hdone : s.conn.outputBuffer.content ≠ [] ∧ after.conn.outputBuffer.content = [] ∧
      s.conn.state = .kDisconnecting
  · have htrace := hdrained.trace_eq
    rw [if_pos hdone] at htrace
    have hbefore : Event.shutdownWrite ∉ s.trace := fun hmem => hdone.1 (h.fin_iff.mp hmem).2
    refine ⟨?_, hdrained.writing, ?_, ?_, ?_⟩
    · rw [htrace]
      simp only [written_append, accepted_append, hsilent, ← h.stream, ← hdrained.bytes]
      simp [written, accepted, Event.writtenBytes, Event.acceptedBytes]
    · rw [hdrained.state_eq]
      exact h.live
    · rw [htrace, hdrained.state_eq]
      simp [hdone]
    · rw [htrace]
      exact FinLast.append_of_notMem (by simp [hbefore, hfresh]) (List.pairwise_singleton _ _)
  · have htrace := hdrained.trace_eq
    rw [if_neg hdone, List.append_nil] at htrace
    refine ⟨?_, hdrained.writing, ?_, ?_, ?_⟩
    · rw [htrace]
      simp only [written_append, accepted_append, hsilent, ← h.stream, ← hdrained.bytes]
      simp
    · rw [hdrained.state_eq]
      exact h.live
    · rw [htrace, hdrained.state_eq, List.mem_append, or_iff_left hfresh, h.fin_iff]
      refine and_congr_right fun hstate => ⟨?_, ?_⟩
      · intro hempty
        have hbytes := hdrained.bytes
        rw [hdrained.idle hempty, hempty] at hbytes
        simpa [written] using hbytes
      · intro hempty
        by_contra hne
        exact hdone ⟨hne, hempty, hstate⟩
    · rw [htrace]
      by_cases hmem : Event.shutdownWrite ∈ s.trace
      · rw [hdrained.idle (h.fin_iff.mp hmem).2, List.append_nil]
        exact h.fin_last
      · exact FinLast.append_of_notMem hmem (finLast_of_notMem hfresh)

theorem shutdown (h : Flow s) : Flow s.shutdown := by
  unfold Session.shutdown Session.shutdownInLoop
  split
  · rename_i hstate
    have hfresh := h.fin_notMem hstate
    split
    · rename_i hwriting
      have hcontent := h.writing.mp hwriting
      refine ⟨h.stream, h.writing, Or.inr rfl, ?_, h.fin_last⟩
      exact iff_of_false hfresh fun hdone => hcontent hdone.2
    · rename_i hwriting
      have hcontent : s.conn.outputBuffer.content = [] := by
        by_contra hne
        exact hwriting (h.writing.mpr hne)
      refine ⟨?_, h.writing, Or.inr rfl, ?_, ?_⟩
      · simpa [written, accepted, Event.writtenBytes, Event.acceptedBytes] using h.stream
      · simpa using hcontent
      · exact FinLast.append_of_notMem hfresh (List.pairwise_singleton _ _)
  · exact h

theorem handleRead (h : Flow s) {answer : Except Errno (List Byte)} (hdata : answer ≠ .ok []) :
    Flow (s.handleRead answer) := by
  obtain ⟨events, hcallbacks, htrace, -, hconn⟩ := s.handleRead_of_data hdata
  exact h.of_silent hcallbacks.silent htrace (by rw [hconn]) (by rw [hconn]) (by rw [hconn])

theorem sendFileInLoop (h : Flow s) (file : Nat → List Byte) (fileDescriptor offset count : Nat)
    (answer : Except Errno Nat) :
    Flow (s.sendFileInLoop file fileDescriptor offset count answer) := by
  obtain ⟨events, hsilent, htrace⟩ :=
    Session.sendFileInLoop_silent file s fileDescriptor offset count answer
  exact h.of_silent hsilent htrace (by simp) (by simp) (by simp)

theorem sendFile (h : Flow s) (file : Nat → List Byte) (fileDescriptor offset count : Nat)
    (answer : Except Errno Nat) : Flow (s.sendFile file fileDescriptor offset count answer) := by
  unfold Session.sendFile
  split
  · refine Flow.sendFileInLoop (s := s.emit _) ?_ file fileDescriptor offset count answer
    exact h.of_silent (silent_singleton (by simp) rfl rfl rfl) rfl rfl rfl rfl
  · exact h

theorem runTask (h : Flow s) (file : Nat → List Byte) (answer : Except Errno Nat) (task : Task) :
    Flow (Running.runTask file s answer task) := by
  cases task with
  | sendFileInLoop fileDescriptor offset count =>
      exact h.sendFileInLoop file fileDescriptor offset count answer
  | writeCompleteCallback => exact h
  | highWaterMarkCallback _ => exact h

end Flow

/-! ### Every run -/

namespace Running

/-- The steps of a connection that stays open and writes without `EPIPE` or `ECONNRESET` in
`sendInLoop`. -/
def KeepsOpen (r : Running κ) : Step → Prop
  | .send _ answer => r.session.conn.state = .kConnected → ¬r.session.SendFaults answer
  | .handleRead answer => answer ≠ .ok []
  | .handleClose | .connectDestroyed => False
  | _ => True

/-- A connection starts with nothing sent and nothing to send. -/
theorem start_of_established {r : Running κ} (h : Established r) :
    Silent r.session.trace ∧ r.session.conn.outputBuffer.content = [] ∧
      r.session.conn.channel.isWriting = false ∧ r.session.conn.state = .kConnected := by
  obtain ⟨self, poller, fd, mark, size, _, _, _, _, _, hsession, -⟩ := h
  obtain ⟨hstate, hbuffer, hwriting, -, events, hcallbacks, htrace⟩ :=
    Session.connectEstablished_spec (fresh self poller fd mark size _ _ _ _ _)
  rw [← hsession] at hstate hbuffer hwriting htrace
  replace htrace : r.session.trace = events := htrace
  refine ⟨?_, ?_, ?_, hstate⟩
  · rw [htrace]
    exact hcallbacks.silent
  · rw [hbuffer]
    exact ValidBuffer.content_new size
  · rw [hwriting]
    exact Channel.new_isWriting fd

theorem flow_of_established {r : Running κ} (h : Established r) : Flow r.session := by
  obtain ⟨hsilent, hempty, hidle, hstate⟩ := start_of_established h
  have hfresh : Event.shutdownWrite ∉ r.session.trace := fun hmem => (hsilent _ hmem).1 rfl
  refine ⟨?_, ?_, Or.inl hstate, ?_, Flow.finLast_of_notMem hfresh⟩
  · rw [hempty, hsilent.written_eq, hsilent.accepted_eq, List.append_nil]
  · simp [hidle, hempty]
  · simp [hfresh, hstate]

theorem flow_step (file : Nat → List Byte) {r r' : Running κ} {step : Step} (h : Flow r.session)
    (hok : KeepsOpen r step) (hstep : Running.step file r step = some r') : Flow r'.session := by
  cases step with
  | send data answer =>
      obtain rfl := Option.some.inj hstep
      exact h.send data answer hok
  | sendFile fileDescriptor offset count answer =>
      obtain rfl := Option.some.inj hstep
      exact h.sendFile file fileDescriptor offset count answer
  | shutdown =>
      obtain rfl := Option.some.inj hstep
      exact h.shutdown
  | handleRead answer =>
      obtain rfl := Option.some.inj hstep
      exact h.handleRead hok
  | handleWrite answer =>
      obtain rfl := Option.some.inj hstep
      exact h.handleWrite answer
  | handleClose => exact hok.elim
  | handleError =>
      obtain rfl := Option.some.inj hstep
      exact h
  | connectDestroyed => exact hok.elim
  | doPendingFunctors =>
      obtain ⟨-, rfl⟩ := Running.step_doPendingFunctors hstep
      exact ⟨h.stream, h.writing, h.live, h.fin_iff, h.fin_last⟩
  | runFunctor answer =>
      obtain ⟨task, rest, -, rfl⟩ := Running.step_runFunctor hstep
      exact h.runTask file answer task

/-- **The output stream stays intact.** In every state of every run in which the connection stays
open: nothing that was accepted is lost, doubled or reordered, the connection waits for `EPOLLOUT`
exactly while bytes wait, and the half close is asked for once, when everything is written, with no
write after it. -/
theorem output_stream_intact (file : Nat → List Byte) {r : Running κ}
    (h : (system file).ReachableUnder KeepsOpen r) :
    let s := r.session
    written s.trace ++ s.conn.outputBuffer.content = accepted s.trace ∧
      (s.conn.channel.isWriting = true ↔ s.conn.outputBuffer.content ≠ []) ∧
      s.trace.count .shutdownWrite ≤ 1 ∧
      (.shutdownWrite ∈ s.trace → s.conn.outputBuffer.content = []) ∧
      (∀ before after, s.trace = before ++ .shutdownWrite :: after →
        ∀ event ∈ after, event.isWrite = false) ∧
      (s.conn.state = .kDisconnecting → s.conn.outputBuffer.content = [] →
        .shutdownWrite ∈ s.trace) := by
  have hflow : Flow r.session :=
    h.invariant (fun _ => flow_of_established) fun _ _ _ hinv hok hstep =>
      flow_step file hinv hok hstep
  refine ⟨hflow.stream, hflow.writing, hflow.fin_last.count_le, ?_, ?_, ?_⟩
  · intro hmem
    exact (hflow.fin_iff.mp hmem).2
  · intro before after htrace
    exact FinLast.no_write_after (htrace ▸ hflow.fin_last)
  · exact fun hstate hempty => hflow.fin_iff.mpr ⟨hstate, hempty⟩

/-- A partial write, a `shutdown` while bytes wait, and the writes that drain them. -/
theorem output_stream_intact_deferred_fin :
    ∃ s : Session Unit, s.conn.state = .kDisconnecting ∧ s.conn.outputBuffer.content = [] ∧
      s.trace = [.connectionCallback true, .send [1, 2, 3], .write [1], .write [2], .write [3],
        .shutdownWrite] ∧
      s.trace.count .shutdownWrite ≤ 1 ∧ Event.shutdownWrite ∈ s.trace := by
  have hrun : (system fun _ => []).RunUnder KeepsOpen sample
      [.send [1, 2, 3] (.ok 1), .shutdown, .handleWrite (.ok 1), .handleWrite (.ok 9)] _ :=
    .cons (fun _ => Session.not_sendFaults_ok _ _) rfl
      (.cons trivial rfl (.cons trivial rfl (.cons trivial rfl (.nil _))))
  have hintact := output_stream_intact (fun _ => []) ⟨sample, _, established_sample, hrun⟩
  exact ⟨_, rfl, rfl, rfl, hintact.2.2.1, hintact.2.2.2.2.2 rfl rfl⟩

end Running

end MuduoCore
