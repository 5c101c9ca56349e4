import MuduoCore.TcpConnection.SendFile
import MuduoCore.TcpConnection.StateOrder

/-!
# Files and shutdown

The rest of a file that the socket did not take is a functor in the queue of the loop, which
`shutdownInLoop` does not look at and `sendFileInLoop` drops in `kDisconnecting`. The accounts are kept
by position: each request asks for positions of its file, and each call of `::sendfile` hands over the
positions from the offset of its functor on.
-/

namespace MuduoCore

variable {κ : Type*} (file : Nat → List Byte)

/-- `count` positions of a file from `offset` on. -/
def positions (fileDescriptor offset count : Nat) : List (Nat × Nat) :=
  (List.range' offset count).map fun position => (fileDescriptor, position)

def Event.sentBytes : Event → List Byte
  | sendfile sent => sent
  | _ => []

def Event.requested : Event → List (Nat × Nat)
  | sendFile fileDescriptor offset count => positions fileDescriptor offset count
  | _ => []

def Task.waiting : Task → List (Nat × Nat)
  | sendFileInLoop fileDescriptor offset count => positions fileDescriptor offset count
  | _ => []

/-- The bytes that `::sendfile` has accepted, in order. -/
def sentBytes (trace : List Event) : List Byte := trace.flatMap Event.sentBytes

/-- The positions that the accepted calls of `sendFile` ask for. -/
def requested (trace : List Event) : List (Nat × Nat) := trace.flatMap Event.requested

/-- The positions that queued functors are still to hand over. -/
def waiting (tasks : List Task) : List (Nat × Nat) := tasks.flatMap Task.waiting

theorem positions_append (fileDescriptor offset m n : Nat) :
    positions fileDescriptor offset m ++ positions fileDescriptor (offset + m) n
      = positions fileDescriptor offset (m + n) := by
  rw [positions, positions, positions, ← List.map_append, List.range'_append_1]

@[simp]
theorem sentBytes_append (t u : List Event) : sentBytes (t ++ u) = sentBytes t ++ sentBytes u :=
  List.flatMap_append

@[simp]
theorem requested_append (t u : List Event) : requested (t ++ u) = requested t ++ requested u :=
  List.flatMap_append

@[simp]
theorem waiting_append (t u : List Task) : waiting (t ++ u) = waiting t ++ waiting u :=
  List.flatMap_append

theorem waiting_requeued (fileDescriptor offset count : Nat) :
    waiting (Session.requeued fileDescriptor offset count)
      = positions fileDescriptor offset count := by
  unfold Session.requeued
  split
  · simp [waiting, Task.waiting]
  · obtain rfl : count = 0 := by omega
    rfl

theorem Task.waiting_of_callback {task : Task} (h : task.sendsFile = false) : task.waiting = [] := by
  cases task <;> first | rfl | cases h

theorem waiting_of_callbacks {tasks : List Task} (h : ∀ task ∈ tasks, task.sendsFile = false) :
    waiting tasks = [] := by
  apply List.flatMap_eq_nil_iff.mpr
  intro task hmem
  exact Task.waiting_of_callback (h task hmem)

/-- The bytes of the files at these positions. -/
def bytesAt (places : List (Nat × Nat)) : List Byte :=
  places.filterMap fun place => (file place.1)[place.2]?

theorem bytesAt_append (t u : List (Nat × Nat)) :
    bytesAt file (t ++ u) = bytesAt file t ++ bytesAt file u :=
  List.filterMap_append

theorem bytesAt_positions (fileDescriptor offset count : Nat) :
    bytesAt file (positions fileDescriptor offset count)
      = slice (file fileDescriptor) offset count := by
  induction count generalizing offset with
  | zero => simp [positions, bytesAt]
  | succ count ih =>
      have hfirst : bytesAt file (positions fileDescriptor offset 1)
          = slice (file fileDescriptor) offset 1 := by
        simp only [positions, bytesAt, slice, List.take_one, List.head?_drop, List.range'_one,
          List.map_cons, List.map_nil, List.filterMap_cons, List.filterMap_nil]
        cases (file fileDescriptor)[offset]? <;> rfl
      rw [Nat.add_comm, ← positions_append, bytesAt_append, hfirst, ih, slice_append_slice]

/-- Events that neither ask for a file nor send one. -/
def NoFileEvents (events : List Event) : Prop :=
  ∀ event ∈ events, event.sentBytes = [] ∧ event.requested = []

theorem NoFileEvents.of_writes {events : List Event} (h : ∀ event ∈ events, event.isWrite = true) :
    NoFileEvents events := by
  intro event hmem
  have hwrite := h event hmem
  cases event <;> first | exact ⟨rfl, rfl⟩ | cases hwrite

theorem NoFileEvents.of_callbacks {events : List Event} (h : Callbacks events) :
    NoFileEvents events := by
  intro event hmem
  have hcallback := h event hmem
  cases event <;> first | exact ⟨rfl, rfl⟩ | cases hcallback

theorem NoFileEvents.append {t u : List Event} (ht : NoFileEvents t) (hu : NoFileEvents u) :
    NoFileEvents (t ++ u) := by
  intro event hmem
  rcases List.mem_append.mp hmem with hmem | hmem
  · exact ht event hmem
  · exact hu event hmem

theorem NoFileEvents.sentBytes_eq {events : List Event} (h : NoFileEvents events) :
    sentBytes events = [] :=
  List.flatMap_eq_nil_iff.mpr fun event hmem => (h event hmem).1

theorem NoFileEvents.requested_eq {events : List Event} (h : NoFileEvents events) :
    requested events = [] :=
  List.flatMap_eq_nil_iff.mpr fun event hmem => (h event hmem).2

namespace Running

/-- The positions that a step from `r` to `r'` hands to `::sendfile`. -/
def handedOver (r : Running κ) (step : Step) (r' : Running κ) : List (Nat × Nat) :=
  let n := (sentBytes r'.session.trace).length - (sentBytes r.session.trace).length
  match step, r.functors with
  | .sendFile fileDescriptor offset _ _, _ => positions fileDescriptor offset n
  | .runFunctor _, .sendFileInLoop fileDescriptor offset _ :: _ => positions fileDescriptor offset n
  | _, _ => []

/-- The runs of a connection with the positions handed over so far. -/
abbrev filing : System (Running κ × List (Nat × Nat)) Step := (system file).recording handedOver

/-- No fatal error of the socket, and no close. -/
def Lasts (_ : Running κ) : Step → Prop
  | .send _ answer | .sendFile _ _ _ answer | .handleWrite answer | .runFunctor answer =>
      ∀ errno, answer = .error errno → ¬IsFatal errno
  | .handleRead answer => answer ≠ .ok []
  | .handleClose | .connectDestroyed => False
  | .shutdown | .doPendingFunctors | .handleError => True

/-- `shutdown` is called when no queued functor has bytes of a file left. -/
def ShutsAfterFiles (r : Running κ) : Step → Prop
  | .shutdown => r.session.conn.state = .kConnected → waiting r.tasks = []
  | _ => True

/-- What was asked for was handed over or waits, and nothing waits once the connection is closing. -/
structure Accounted (r : Running κ) (handed : List (Nat × Nat)) : Prop where
  flow : Flow r.session
  balance : (handed ++ waiting r.tasks).Perm (requested r.session.trace)
  bytes : sentBytes r.session.trace = bytesAt file handed
  closing : r.session.conn.state = .kDisconnecting → waiting r.tasks = []

variable {file} {r : Running κ} {handed : List (Nat × Nat)}

/-- A step that has nothing to do with files. -/
theorem Accounted.of_text (h : Accounted file r handed) {s' : Session κ} (hflow : Flow s')
    (hqueues : QueuesCallbacks r.session s') {events : List Event}
    (htrace : s'.trace = r.session.trace ++ events) (hevents : NoFileEvents events)
    (hclosing : s'.conn.state = .kDisconnecting → waiting r.tasks = []) :
    Accounted file { r with session := s' } handed := by
  obtain ⟨extra, hpending, hcallbacks⟩ := hqueues
  have htasks : waiting (tasks { r with session := s' }) = waiting r.tasks := by
    rw [tasks, hpending, ← List.append_assoc, waiting_append, waiting_of_callbacks hcallbacks,
      List.append_nil]
    rfl
  refine ⟨hflow, ?_, ?_, ?_⟩
  · rw [htasks, htrace, requested_append, hevents.requested_eq, List.append_nil]
    exact h.balance
  · rw [htrace, sentBytes_append, hevents.sentBytes_eq, List.append_nil]
    exact h.bytes
  · rw [htasks]
    exact hclosing

theorem Accounted.send (h : Accounted file r handed) {data : List Byte} {answer : Except Errno Nat}
    (hok : Lasts r (.send data answer)) :
    Accounted file { r with session := r.session.send data answer } handed := by
  have hfault : r.session.conn.state = .kConnected → ¬r.session.SendFaults answer := by
    rintro - ⟨-, errno, hanswer, hfatal⟩
    exact hok errno hanswer hfatal
  by_cases hstate : r.session.conn.state = .kConnected
  · obtain ⟨wrote, hout⟩ := Session.sendInLoop_output (r.session.emit (.send data)) data answer
      h.flow.state_ne_disconnected h.flow.writing (hfault hstate)
    have hsend : r.session.send data answer
        = (r.session.emit (.send data)).sendInLoop data answer := if_pos hstate
    have hevents : NoFileEvents ([.send data] ++ wrote) := by
      refine .append ?_ (.of_writes hout.writes)
      intro event hmem
      obtain rfl := List.mem_singleton.mp hmem
      exact ⟨rfl, rfl⟩
    refine h.of_text (h.flow.send data answer hfault) (r.session.send_queues data answer) ?_ hevents
      ?_
    · rw [hsend, hout.trace_eq, Session.emit_trace, List.append_assoc]
    · rw [hsend, hout.state_eq, Session.emit_conn, hstate]
      exact fun hclosing => absurd hclosing (by decide)
  · rw [show r.session.send data answer = r.session from if_neg hstate]
    exact h

theorem Accounted.handleWrite (h : Accounted file r handed) (answer : Except Errno Nat) :
    Accounted file { r with session := r.session.handleWrite answer } handed := by
  obtain ⟨wrote, hdrained⟩ := Session.handleWrite_drained r.session answer h.flow.writing
  refine h.of_text (h.flow.handleWrite answer) (r.session.handleWrite_queues answer)
    (hdrained.trace_eq.trans (List.append_assoc ..)) ?_ ?_
  · refine .append (.of_writes hdrained.writes) ?_
    intro event hmem
    split at hmem
    · obtain rfl := List.mem_singleton.mp hmem
      exact ⟨rfl, rfl⟩
    · cases hmem
  · rw [hdrained.state_eq]
    exact h.closing

theorem Accounted.shutdown (h : Accounted file r handed) (hok : ShutsAfterFiles r .shutdown) :
    Accounted file { r with session := r.session.shutdown } handed := by
  by_cases hstate : r.session.conn.state = .kConnected
  · have hwaiting := hok hstate
    have hcall : r.session.shutdown = (r.session.setState .kDisconnecting).shutdownInLoop :=
      if_pos hstate
    have hflow := h.flow.shutdown
    rw [hcall] at hflow ⊢
    unfold Session.shutdownInLoop at hflow ⊢
    split at hflow
    · rename_i hwriting
      rw [if_pos hwriting]
      exact h.of_text hflow (.of_eq rfl) (List.append_nil _).symm
        (fun _ hmem => absurd hmem List.not_mem_nil) fun _ => hwaiting
    · rename_i hwriting
      rw [if_neg hwriting]
      refine h.of_text hflow (.of_eq rfl) (Session.emit_trace _ _) ?_ fun _ => hwaiting
      intro event hmem
      obtain rfl := List.mem_singleton.mp hmem
      exact ⟨rfl, rfl⟩
  · rw [show r.session.shutdown = r.session from if_neg hstate]
    exact h

theorem Accounted.of_file {s s' : Session κ} {functors callbacks : List Task}
    {fileDescriptor offset count : Nat} {sent : List Byte}
    (hsplit : Session.FileSplit file s s' fileDescriptor offset count sent callbacks)
    (hflow : Flow s') (hstate : s'.conn.state ≠ .kDisconnecting)
    (hbalance : (handed ++ (positions fileDescriptor offset count
      ++ waiting (functors ++ s.pendingFunctors))).Perm (requested s.trace))
    (hbytes : sentBytes s.trace = bytesAt file handed) :
    Accounted file ⟨s', functors⟩ (handed ++ positions fileDescriptor offset
      ((sentBytes s'.trace).length - (sentBytes s.trace).length)) := by
  obtain ⟨hsent, hrequested⟩ : sentBytes s'.trace = sentBytes s.trace ++ sent ∧
      requested s'.trace = requested s.trace := by
    rcases hsplit.trace_eq with htrace | ⟨hnil, htrace | ⟨errno, htrace⟩⟩
    · rw [htrace, sentBytes_append, requested_append]
      simp [sentBytes, requested, Event.sentBytes, Event.requested]
    · rw [htrace, hnil, List.append_nil]
      exact ⟨rfl, rfl⟩
    · rw [htrace, hnil, sentBytes_append, requested_append]
      simp [sentBytes, requested, Event.sentBytes, Event.requested]
  have hlength : (sentBytes s'.trace).length - (sentBytes s.trace).length = sent.length := by
    rw [hsent, List.length_append]
    omega
  have hwaiting : waiting (tasks ⟨s', functors⟩) = waiting (functors ++ s.pendingFunctors)
      ++ positions fileDescriptor (offset + sent.length) (count - sent.length) := by
    simp only [tasks, hsplit.pending_eq, waiting_append, waiting_of_callbacks hsplit.callback,
      waiting_requeued, List.nil_append, List.append_assoc]
  rw [hlength]
  refine ⟨hflow, ?_, ?_, fun hclosing => absurd hclosing hstate⟩
  · have hrest : positions fileDescriptor offset sent.length
        ++ positions fileDescriptor (offset + sent.length) (count - sent.length)
        = positions fileDescriptor offset count := by
      rw [positions_append, Nat.add_sub_cancel' hsplit.length_le]
    rw [hrequested, hwaiting]
    refine .trans ?_ hbalance
    rw [List.append_assoc, ← hrest, List.append_assoc]
    exact .append_left _ (.append_left _ List.perm_append_comm)
  · rw [hsent, bytesAt_append, bytesAt_positions, hbytes, ← hsplit.bytes]

theorem Accounted.sendFile (h : Accounted file r handed) {fileDescriptor offset count : Nat}
    {answer : Except Errno Nat} (hok : Lasts r (.sendFile fileDescriptor offset count answer)) :
    Accounted file { r with session := r.session.sendFile file fileDescriptor offset count answer }
      (handed ++ positions fileDescriptor offset
        ((sentBytes (r.session.sendFile file fileDescriptor offset count answer).trace).length
          - (sentBytes r.session.trace).length)) := by
  by_cases hstate : r.session.conn.state = .kConnected
  · set s := r.session.emit (.sendFile fileDescriptor offset count) with hs
    have hcall : r.session.sendFile file fileDescriptor offset count answer
        = s.sendFileInLoop file fileDescriptor offset count answer := by
      simp [Session.sendFile, TcpConnection.connected, hstate, hs]
    have hne : s.conn.state ≠ .kDisconnecting := by
      rw [hs, Session.emit_conn, hstate]
      decide
    obtain ⟨sent, callbacks, hsplit⟩ :=
      s.sendFileInLoop_split file fileDescriptor offset count answer hne hok
    have hflow := h.flow.sendFile file fileDescriptor offset count answer
    have hsame : sentBytes s.trace = sentBytes r.session.trace := by
      rw [hs, Session.emit_trace, sentBytes_append]
      exact List.append_nil _
    rw [hcall] at hflow ⊢
    rw [← hsame]
    refine .of_file hsplit hflow ?_ ?_ (hsame.trans h.bytes)
    · rw [Session.sendFileInLoop_conn]
      exact hne
    · have hrequest : requested s.trace
          = requested r.session.trace ++ positions fileDescriptor offset count := by
        rw [hs, Session.emit_trace, requested_append]
        simp [requested, Event.requested]
      have htasks : r.functors ++ s.pendingFunctors = r.tasks := rfl
      rw [hrequest, htasks]
      refine .trans ?_ (h.balance.append_right _)
      rw [List.append_assoc]
      exact .append_left _ List.perm_append_comm
  · have hcall : r.session.sendFile file fileDescriptor offset count answer = r.session := by
      simp [Session.sendFile, TcpConnection.connected, hstate]
    rw [hcall, Nat.sub_self, show positions fileDescriptor offset 0 = [] from rfl, List.append_nil]
    exact h

theorem Accounted.runTask (h : Accounted file r handed) {task : Task} {rest : List Task}
    {answer : Except Errno Nat} (hfunctors : r.functors = task :: rest)
    (hok : Lasts r (.runFunctor answer)) :
    Accounted file ⟨Running.runTask file r.session answer task, rest⟩
      (handed ++ handedOver r (.runFunctor answer)
        ⟨Running.runTask file r.session answer task, rest⟩) := by
  have htasks : waiting r.tasks = task.waiting ++ waiting (rest ++ r.session.pendingFunctors) := by
    rw [tasks, hfunctors]
    rfl
  have hcallback : task.sendsFile = false → Accounted file ⟨r.session, rest⟩ (handed ++ []) := by
    intro hnone
    have hsame : waiting (tasks ⟨r.session, rest⟩) = waiting r.tasks := by
      rw [htasks, Task.waiting_of_callback hnone, List.nil_append]
      rfl
    rw [List.append_nil]
    exact ⟨h.flow, by rw [hsame]; exact h.balance, h.bytes, by rw [hsame]; exact h.closing⟩
  have hbalance := h.balance
  rw [htasks] at hbalance
  cases task with
  | sendFileInLoop fileDescriptor offset count =>
      simp only [handedOver, hfunctors]
      by_cases hstate : r.session.conn.state = .kDisconnecting
      · have hcall : Running.runTask file r.session answer
            (.sendFileInLoop fileDescriptor offset count) = r.session := by
          simp [Running.runTask, Session.sendFileInLoop, hstate]
        obtain ⟨hhead, hrest⟩ := List.append_eq_nil_iff.mp (htasks ▸ h.closing hstate)
        have hempty : waiting (tasks ⟨r.session, rest⟩) = [] := hrest
        rw [hcall, Nat.sub_self, show positions fileDescriptor offset 0 = [] from rfl,
          List.append_nil]
        refine ⟨h.flow, ?_, h.bytes, fun _ => hempty⟩
        rw [hempty]
        rwa [hhead, hrest] at hbalance
      · obtain ⟨sent, callbacks, hsplit⟩ :=
          r.session.sendFileInLoop_split file fileDescriptor offset count answer hstate hok
        have hconn : (Running.runTask file r.session answer
            (.sendFileInLoop fileDescriptor offset count)).conn = r.session.conn :=
          Session.sendFileInLoop_conn file r.session fileDescriptor offset count answer
        refine .of_file hsplit (h.flow.sendFileInLoop file _ _ _ _) ?_ hbalance h.bytes
        rw [hconn]
        exact hstate
  | writeCompleteCallback =>
      simp only [handedOver, hfunctors]
      exact hcallback rfl
  | highWaterMarkCallback length =>
      simp only [handedOver, hfunctors]
      exact hcallback rfl

theorem accounted_step {r' : Running κ} {step : Step} (h : Accounted file r handed)
    (hlasts : Lasts r step) (hok : ShutsAfterFiles r step)
    (hstep : Running.step file r step = some r') :
    Accounted file r' (handed ++ handedOver r step r') := by
  cases step with
  | send data answer =>
      obtain rfl := Option.some.inj hstep
      rw [show handedOver r (.send data answer) _ = [] from rfl, List.append_nil]
      exact h.send hlasts
  | sendFile fileDescriptor offset count answer =>
      obtain rfl := Option.some.inj hstep
      exact h.sendFile hlasts
  | shutdown =>
      obtain rfl := Option.some.inj hstep
      rw [show handedOver r .shutdown _ = [] from rfl, List.append_nil]
      exact h.shutdown hok
  | handleRead answer =>
      obtain rfl := Option.some.inj hstep
      obtain ⟨events, hcallbacks, htrace, hpending, hconn⟩ := r.session.handleRead_of_data hlasts
      rw [show handedOver r (.handleRead answer) _ = [] from rfl, List.append_nil]
      refine h.of_text (h.flow.handleRead hlasts) (.of_eq hpending) htrace (.of_callbacks hcallbacks)
        ?_
      rw [hconn]
      exact h.closing
  | handleWrite answer =>
      obtain rfl := Option.some.inj hstep
      rw [show handedOver r (.handleWrite answer) _ = [] from rfl, List.append_nil]
      exact h.handleWrite answer
  | handleClose => exact hlasts.elim
  | handleError =>
      obtain rfl := Option.some.inj hstep
      rw [show handedOver r .handleError _ = [] from rfl, List.append_nil]
      exact h
  | connectDestroyed => exact hlasts.elim
  | doPendingFunctors =>
      obtain ⟨hempty, rfl⟩ := Running.step_doPendingFunctors hstep
      have htasks := tasks_of_swap hempty
      rw [show handedOver r .doPendingFunctors _ = [] from rfl, List.append_nil]
      exact ⟨⟨h.flow.stream, h.flow.writing, h.flow.live, h.flow.fin_iff, h.flow.fin_last⟩,
        by rw [htasks]; exact h.balance, h.bytes, by rw [htasks]; exact h.closing⟩
  | runFunctor answer =>
      obtain ⟨task, rest, hfunctors, rfl⟩ := Running.step_runFunctor hstep
      exact h.runTask hfunctors hlasts

theorem accounted_of_established (h : Established r) : Accounted file r [] := by
  have hflow := flow_of_established h
  obtain ⟨self, poller, fd, mark, size, _, _, _, _, _, hsession, hfunctors⟩ := h
  obtain ⟨hstate, -, -, hpending, events, hcallbacks, htrace⟩ :=
    Session.connectEstablished_spec (fresh self poller fd mark size _ _ _ _ _)
  rw [← hsession] at hstate hpending htrace
  replace htrace : r.session.trace = events := htrace
  have hevents := NoFileEvents.of_callbacks hcallbacks
  have hnone : waiting r.tasks = [] := by
    rw [tasks, hfunctors, hpending]
    rfl
  refine ⟨hflow, ?_, ?_, fun _ => hnone⟩
  · rw [hnone, htrace, hevents.requested_eq]
    exact .refl _
  · rw [htrace, hevents.sentBytes_eq]
    rfl

variable (file)

/-- **The half close waits for files** in every run in which `shutdown` is called only when no queued
functor has bytes of a file left: no request is given up, and all of them were handed over before the
half close. -/
theorem shutdown_waits_for_files {w : Running κ × List (Nat × Nat)}
    (h : (filing file).ReachableUnder
      (fun v step => Lasts v.1 step ∧ ShutsAfterFiles v.1 step) w) :
    (w.2 ++ waiting w.1.tasks).Perm (requested w.1.session.trace) ∧
      sentBytes w.1.session.trace = bytesAt file w.2 ∧
      (.shutdownWrite ∈ w.1.session.trace → w.2.Perm (requested w.1.session.trace)) := by
  have haccounted : Accounted file w.1 w.2 := by
    refine h.invariant (I := fun w => Accounted file w.1 w.2) ?_ ?_
    · rintro ⟨r, handed⟩ ⟨hinit, hnil⟩
      obtain rfl : handed = [] := hnil
      exact accounted_of_established hinit
    · intro v step w hinv hok hstep
      obtain ⟨hnext, hhanded⟩ := System.recording_step hstep
      rw [hhanded]
      exact accounted_step hinv hok.1 hok.2 hnext
  refine ⟨haccounted.balance, haccounted.bytes, ?_⟩
  intro hfin
  have hbalance := haccounted.balance
  rwa [haccounted.closing (haccounted.flow.fin_iff.mp hfin).1, List.append_nil] at hbalance

/-- A file in two parts, and then the half close. -/
theorem shutdown_waits_for_files_halves :
    ∃ w : Running Unit × List (Nat × Nat),
      .shutdownWrite ∈ w.1.session.trace ∧ w.2.Perm [(3, 0), (3, 1), (3, 2), (3, 3)] := by
  have hfatal := not_isFatal_of_ok
  have hrun : (filing fun _ => [10, 11, 12, 13]).RunUnder
      (fun v step => Lasts v.1 step ∧ ShutsAfterFiles v.1 step) (sample, [])
      [.sendFile 3 0 4 (.ok 2), .doPendingFunctors, .runFunctor (.ok 9), .shutdown] _ :=
    .cons ⟨hfatal 2, trivial⟩ rfl
      (.cons ⟨trivial, trivial⟩ rfl
        (.cons ⟨hfatal 9, trivial⟩ rfl (.single ⟨trivial, fun _ => rfl⟩ rfl)))
  have hinit : (filing fun _ => [10, 11, 12, 13]).init (sample, []) := ⟨established_sample, rfl⟩
  have hfin := (shutdown_waits_for_files _ ⟨_, _, hinit, hrun⟩).2.2
  exact ⟨_, by decide, hfin (by decide)⟩

/-- `shutdown` between two parts of a file. -/
theorem shutdown_cuts_file :
    ∃ w : Running Unit × List (Nat × Nat),
      (filing fun _ => [10, 11, 12, 13]).RunUnder (fun v step => Lasts v.1 step) (sample, [])
        [.sendFile 3 0 4 (.ok 2), .shutdown, .doPendingFunctors, .runFunctor (.ok 9)] w ∧
      requested w.1.session.trace = [(3, 0), (3, 1), (3, 2), (3, 3)] ∧
      .shutdownWrite ∈ w.1.session.trace ∧ w.2 = [(3, 0), (3, 1)] ∧ w.1.tasks = [] := by
  have hfatal := not_isFatal_of_ok
  exact ⟨_, .cons (hfatal 2) rfl (.cons trivial rfl (.cons trivial rfl (.single (hfatal 9) rfl))),
    rfl, by decide, rfl, rfl⟩

/-! ### A shutdown that comes too early -/

theorem runTask_of_kDisconnecting {s : Session κ} (hstate : s.conn.state = .kDisconnecting)
    (answer : Except Errno Nat) (task : Task) : runTask file s answer task = s := by
  cases task with
  | sendFileInLoop fileDescriptor offset count => simp [runTask, Session.sendFileInLoop, hstate]
  | writeCompleteCallback => rfl
  | highWaterMarkCallback _ => rfl

/-- In `kDisconnecting` a batch runs to its end and does nothing. -/
theorem run_batch_of_kDisconnecting {s : Session κ} (hstate : s.conn.state = .kDisconnecting)
    (functors : List Task) (handed : List (Nat × Nat)) :
    ∃ steps, (filing file).RunUnder (fun v step => Lasts v.1 step) (⟨s, functors⟩, handed) steps
      (⟨s, []⟩, handed) := by
  induction functors with
  | nil => exact ⟨[], .nil _⟩
  | cons task rest ih =>
      obtain ⟨steps, hrun⟩ := ih
      have hstep : (system file).step ⟨s, task :: rest⟩ (.runFunctor (.ok 0)) = some ⟨s, rest⟩ :=
        congrArg (fun s => some (Running.mk s rest))
          (runTask_of_kDisconnecting file hstate (.ok 0) task)
      have hnone : handedOver ⟨s, task :: rest⟩ (.runFunctor (.ok 0)) ⟨s, rest⟩ = [] := by
        cases task <;> simp [handedOver, positions]
      have hfiled : (filing file).step (⟨s, task :: rest⟩, handed) (.runFunctor (.ok 0)) = some _ :=
        System.recording_some hstep handed
      rw [hnone, List.append_nil] at hfiled
      refine ⟨.runFunctor (.ok 0) :: steps, .cons ?_ hfiled hrun⟩
      intro errno hanswer
      cases hanswer

/-- After a `shutdown` that finds bytes of a file waiting, the loop runs into a state in which no
functor is left and these bytes have not been handed over. -/
theorem file_lost_of_early_shutdown {r : Running κ} {handed : List (Nat × Nat)}
    (h : Accounted file r handed) (hstate : r.session.conn.state = .kConnected)
    (hwaiting : waiting r.tasks ≠ []) :
    ∃ steps w, (filing file).RunUnder (fun v step => Lasts v.1 step)
        ({ r with session := r.session.shutdown }, handed) steps w ∧
      w.1.tasks = [] ∧ ¬w.2.Perm (requested w.1.session.trace) := by
  have hcall : r.session.shutdown = (r.session.setState .kDisconnecting).shutdownInLoop :=
    if_pos hstate
  have hpending : r.session.shutdown.pendingFunctors = r.session.pendingFunctors := by
    rw [hcall, Session.shutdownInLoop]
    split <;> rfl
  have hclosing : r.session.shutdown.conn.state = .kDisconnecting := by
    rw [hcall, Session.shutdownInLoop_conn]
    rfl
  have hrequested : requested r.session.shutdown.trace = requested r.session.trace := by
    rw [hcall, Session.shutdownInLoop]
    split
    · rfl
    · rw [Session.emit_trace, requested_append]
      exact List.append_nil _
  set s := r.session.shutdown with hs
  obtain ⟨fst, hfst⟩ := run_batch_of_kDisconnecting file hclosing r.functors handed
  have hswap : (filing file).step (⟨s, []⟩, handed) .doPendingFunctors
      = some (⟨{ s with pendingFunctors := [] }, s.pendingFunctors⟩, handed) :=
    congrArg some (Prod.ext rfl (List.append_nil _))
  have hlasts : Lasts ⟨s, []⟩ .doPendingFunctors := trivial
  obtain ⟨snd, hsnd⟩ := run_batch_of_kDisconnecting file
    (show ({ s with pendingFunctors := [] } : Session κ).conn.state = .kDisconnecting from hclosing)
    s.pendingFunctors handed
  refine ⟨_, _, (hfst.snoc hlasts hswap).append hsnd, rfl, ?_⟩
  intro hperm
  have hlength := h.balance.length_eq
  have hlost : handed.length = (requested s.trace).length := hperm.length_eq
  rw [← hrequested, ← hlost, List.length_append] at hlength
  exact hwaiting (List.eq_nil_of_length_eq_zero (by omega))

end Running

end MuduoCore
