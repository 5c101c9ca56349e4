import MuduoCore.TcpConnection.Output

/-!
# Text and files on one socket

Text that the socket did not take waits in the output buffer, the rest of a file as a functor in the
queue of the loop. Nothing but the output buffer holds back a later call, so the order of the calls
is the order on the wire only while no functor has file bytes left.
-/

namespace MuduoCore

variable {κ : Type*} (file : Nat → List Byte)

def Event.wireBytes : Event → List Byte
  | .write accepted => accepted
  | .sendfile sent => sent
  | _ => []

def Event.payload : Event → List Byte
  | .send payload => payload
  | .sendFile fileDescriptor offset count => slice (file fileDescriptor) offset count
  | _ => []

def wire (trace : List Event) : List Byte := trace.flatMap Event.wireBytes

/-- The payloads of the accepted calls of `send` and `sendFile`, in call order. -/
def payloads (trace : List Event) : List Byte := trace.flatMap (Event.payload file)

def Task.bytesLeft : Task → List Byte
  | .sendFileInLoop fileDescriptor offset count => slice (file fileDescriptor) offset count
  | _ => []

def bytesLeft (tasks : List Task) : List Byte := tasks.flatMap (Task.bytesLeft file)

@[simp]
theorem wire_append (t u : List Event) : wire (t ++ u) = wire t ++ wire u := List.flatMap_append

@[simp]
theorem payloads_append (t u : List Event) :
    payloads file (t ++ u) = payloads file t ++ payloads file u :=
  List.flatMap_append

@[simp]
theorem bytesLeft_append (t u : List Task) :
    bytesLeft file (t ++ u) = bytesLeft file t ++ bytesLeft file u :=
  List.flatMap_append

theorem wire_of_writes {wrote : List Event} (hwrites : ∀ event ∈ wrote, event.isWrite = true) :
    wire wrote = written wrote := by
  apply List.flatMap_congr
  intro event hmem
  have := hwrites event hmem
  cases event <;> first | rfl | cases this

theorem payloads_of_writes {wrote : List Event} (hwrites : ∀ event ∈ wrote, event.isWrite = true) :
    payloads file wrote = [] := by
  apply List.flatMap_eq_nil_iff.mpr
  intro event hmem
  have := hwrites event hmem
  cases event <;> first | rfl | cases this

theorem wire_of_callbacks {events : List Event} (h : Callbacks events) : wire events = [] := by
  refine List.flatMap_eq_nil_iff.mpr fun event hmem => ?_
  have hcallback := h event hmem
  cases event <;> first | rfl | cases hcallback

theorem payloads_of_callbacks {events : List Event} (h : Callbacks events) :
    payloads file events = [] := by
  refine List.flatMap_eq_nil_iff.mpr fun event hmem => ?_
  have hcallback := h event hmem
  cases event <;> first | rfl | cases hcallback

/-! ### What the functions leave in the queue of the loop -/

def Task.sendsFile : Task → Bool
  | sendFileInLoop _ _ _ => true
  | _ => false

theorem Task.bytesLeft_of_callback {task : Task} (h : task.sendsFile = false) :
    task.bytesLeft file = [] := by
  cases task <;> first | rfl | cases h

/-- From `s` to `s'` no functor with bytes of a file was queued. -/
def QueuesNoFile (s s' : Session κ) : Prop :=
  ∃ extra, s'.pendingFunctors = s.pendingFunctors ++ extra ∧ bytesLeft file extra = []

/-- From `s` to `s'` only callbacks of the user were queued. -/
def QueuesCallbacks (s s' : Session κ) : Prop :=
  ∃ extra, s'.pendingFunctors = s.pendingFunctors ++ extra ∧
    ∀ task ∈ extra, task.sendsFile = false

namespace QueuesCallbacks

variable {file} {s t u : Session κ}

theorem of_eq (h : t.pendingFunctors = s.pendingFunctors) : QueuesCallbacks s t :=
  ⟨[], by rw [h, List.append_nil], fun _ hmem => absurd hmem List.not_mem_nil⟩

theorem trans (hfst : QueuesCallbacks s t) (hsnd : QueuesCallbacks t u) : QueuesCallbacks s u := by
  obtain ⟨first, hfirst, hfirstCallbacks⟩ := hfst
  obtain ⟨second, hsecond, hsecondCallbacks⟩ := hsnd
  refine ⟨first ++ second, ?_, ?_⟩
  · rw [hsecond, hfirst, List.append_assoc]
  · intro task hmem
    rcases List.mem_append.mp hmem with hmem | hmem
    · exact hfirstCallbacks task hmem
    · exact hsecondCallbacks task hmem

theorem queueWhen (s : Session κ) (cond : Bool) {task : Task} (htask : task.sendsFile = false) :
    QueuesCallbacks s (s.queueWhen cond task) := by
  refine ⟨if cond then [task] else [], s.queueWhen_pending cond task, ?_⟩
  cases cond <;> simp [htask]

theorem noFile (h : QueuesCallbacks s t) : QueuesNoFile file s t := by
  obtain ⟨extra, hpending, hcallbacks⟩ := h
  exact ⟨extra, hpending, List.flatMap_eq_nil_iff.mpr fun task hmem =>
    Task.bytesLeft_of_callback file (hcallbacks task hmem)⟩

end QueuesCallbacks

theorem QueuesNoFile.of_eq {file : Nat → List Byte} {s t : Session κ}
    (h : t.pendingFunctors = s.pendingFunctors) :
    QueuesNoFile file s t :=
  (QueuesCallbacks.of_eq h).noFile

namespace Session

theorem attemptWrite_queues (s : Session κ) (data : List Byte) (answer : Except Errno Nat) :
    QueuesCallbacks s (s.attemptWrite data answer).session := by
  unfold attemptWrite
  split
  · cases answer with
    | ok n => exact QueuesCallbacks.queueWhen (s.emit _) _ rfl
    | error errno => exact .of_eq rfl
  · exact .of_eq rfl

theorem bufferRest_queues (s : Session κ) (rest : List Byte) :
    QueuesCallbacks s (s.bufferRest rest) := by
  unfold bufferRest
  dsimp only
  split
  · exact QueuesCallbacks.queueWhen s _ rfl
  · exact QueuesCallbacks.queueWhen s _ rfl

theorem sendInLoop_queues (s : Session κ) (data : List Byte) (answer : Except Errno Nat) :
    QueuesCallbacks s (s.sendInLoop data answer) := by
  have hattempt := s.attemptWrite_queues data answer
  unfold sendInLoop
  split
  · exact .of_eq rfl
  · dsimp only
    split
    · exact hattempt.trans (bufferRest_queues _ _)
    · exact hattempt

theorem send_queues (s : Session κ) (data : List Byte) (answer : Except Errno Nat) :
    QueuesCallbacks s (s.send data answer) := by
  unfold send
  split
  · exact (s.emit (.send data)).sendInLoop_queues data answer
  · exact .of_eq rfl

theorem finishWrite_queues (s : Session κ) : QueuesCallbacks s s.finishWrite := by
  have hcallback : QueuesCallbacks s
      (s.disableWriting.queueWhen s.disableWriting.conn.writeCompleteCallback
        .writeCompleteCallback) :=
    QueuesCallbacks.queueWhen s.disableWriting _ rfl
  unfold finishWrite shutdownInLoop
  dsimp only
  split
  · split
    · exact hcallback
    · exact hcallback
  · exact hcallback

theorem handleWrite_queues (s : Session κ) (answer : Except Errno Nat) :
    QueuesCallbacks s (s.handleWrite answer) := by
  rcases s.handleWrite_cases answer with
    ⟨-, heq⟩ | ⟨-, ⟨errno, heq⟩ | heq | ⟨n, ⟨-, heq⟩ | ⟨-, heq⟩⟩⟩ <;> rw [heq]
  · exact .of_eq rfl
  · exact .of_eq rfl
  · exact .of_eq rfl
  · exact finishWrite_queues (s.wroteOut n)
  · exact .of_eq rfl

/-- What `sendFileInLoop` does with the file: it hands over `sent`, which is all it can when the
socket is taken, and queues itself for the rest. -/
structure FileSent (s s' : Session κ) (payload sent : List Byte) (queued : List Task) : Prop where
  wire_eq : wire s'.trace = wire s.trace ++ sent
  payloads_eq : payloads file s'.trace = payloads file s.trace
  pending_eq : s'.pendingFunctors = s.pendingFunctors ++ queued
  split_eq : sent ++ bytesLeft file queued = payload
  alone : queued.Pairwise fun a b => a.bytesLeft file = [] ∨ b.bytesLeft file = []
  behind : sent = [] ∨ s.conn.outputBuffer.content = []

/-- The functor that `sendFileInLoop` queues for `count` bytes from `offset` on; none for no bytes. -/
def requeued (fileDescriptor offset count : Nat) : List Task :=
  if 0 < count then [.sendFileInLoop fileDescriptor offset count] else []

theorem bytesLeft_requeued (fileDescriptor offset count : Nat) :
    bytesLeft file (requeued fileDescriptor offset count)
      = slice (file fileDescriptor) offset count := by
  unfold requeued
  split
  · simp [bytesLeft, Task.bytesLeft]
  · obtain rfl : count = 0 := by omega
    simp [bytesLeft]

theorem pairwise_requeued (R : Task → Task → Prop) (fileDescriptor offset count : Nat) :
    (requeued fileDescriptor offset count).Pairwise R := by
  unfold requeued
  split
  · exact List.pairwise_singleton _ _
  · exact List.Pairwise.nil

/-- What `sendFileInLoop` makes of a request that it does not give up: `sent` went to the socket, and
the rest waits as a functor behind the callbacks of the user. -/
structure FileSplit (s s' : Session κ) (fileDescriptor offset count : Nat) (sent : List Byte)
    (callbacks : List Task) : Prop where
  pending_eq : s'.pendingFunctors = s.pendingFunctors ++
    (callbacks ++ requeued fileDescriptor (offset + sent.length) (count - sent.length))
  callback : ∀ task ∈ callbacks, task.sendsFile = false
  trace_eq : s'.trace = s.trace ++ [.sendfile sent] ∨
    sent = [] ∧ (s'.trace = s.trace ∨ ∃ errno, s'.trace = s.trace ++ [.sendfileError errno])
  length_le : sent.length ≤ count
  bytes : sent = slice (file fileDescriptor) offset sent.length
  behind : sent = [] ∨ s.conn.outputBuffer.content = []

theorem sendFileInLoop_split (s : Session κ) (fileDescriptor offset count : Nat)
    (answer : Except Errno Nat) (hstate : s.conn.state ≠ .kDisconnecting)
    (hfatal : ∀ errno, answer = .error errno → ¬IsFatal errno) :
    ∃ sent callbacks, FileSplit file s (s.sendFileInLoop file fileDescriptor offset count answer)
      fileDescriptor offset count sent callbacks := by
  by_cases hdirect : s.mayWriteDirectly = true
  · cases answer with
    | ok n =>
        set payload := slice (file fileDescriptor) offset count with hpayload
        set sent := slice (file fileDescriptor) offset (min n count) with hsent
        have hfront : sent = payload.take (min n count) :=
          (slice_take _ _ (Nat.min_le_right n count)).symm
        have hlength : sent.length ≤ min n count := by
          rw [hfront]
          exact List.length_take_le _ _
        refine ⟨sent, if count - sent.length == 0 && s.conn.writeCompleteCallback then
          [.writeCompleteCallback] else [], ?_, ?_, .inl ?_, ?_, ?_,
          .inr ((s.mayWriteDirectly_iff).mp hdirect).2⟩
        · simp [sendFileInLoop, hstate, hdirect, hsent, requeued]
        · intro task hmem
          split at hmem
          · obtain rfl := List.mem_singleton.mp hmem
            rfl
          · cases hmem
        · simp [sendFileInLoop, hstate, hdirect, hsent]
        · exact hlength.trans (Nat.min_le_right n count)
        · rw [← slice_take _ _ hlength, ← hsent, List.take_length]
    | error errno =>
        have hfault : ¬(errno = EPIPE ∨ errno = ECONNRESET) := hfatal errno rfl
        refine ⟨[], [], ?_, ?_, .inr ⟨rfl, .inr ⟨errno, ?_⟩⟩, Nat.zero_le _, ?_, .inl rfl⟩
        · simp [sendFileInLoop, hstate, hdirect, hfault, requeued]
        · exact fun _ hmem => absurd hmem List.not_mem_nil
        · simp [sendFileInLoop, hstate, hdirect]
        · exact (slice_zero _ _).symm
  · refine ⟨[], [], ?_, ?_, .inr ⟨rfl, .inl ?_⟩, Nat.zero_le _, ?_, .inl rfl⟩
    · simp [sendFileInLoop, hstate, hdirect, requeued]
    · exact fun _ hmem => absurd hmem List.not_mem_nil
    · simp [sendFileInLoop, hstate, hdirect]
    · exact (slice_zero _ _).symm

theorem FileSplit.fileSent {s s' : Session κ} {fileDescriptor offset count : Nat} {sent : List Byte}
    {callbacks : List Task} (h : FileSplit file s s' fileDescriptor offset count sent callbacks) :
    FileSent file s s' (slice (file fileDescriptor) offset count) sent
      (callbacks ++ requeued fileDescriptor (offset + sent.length) (count - sent.length)) := by
  have hnoFile : ∀ task ∈ callbacks, task.bytesLeft file = [] :=
    fun task hmem => Task.bytesLeft_of_callback file (h.callback task hmem)
  refine ⟨?_, ?_, h.pending_eq, ?_, ?_, h.behind⟩
  · rcases h.trace_eq with htrace | ⟨hnil, htrace | ⟨errno, htrace⟩⟩
    · rw [htrace, wire_append]
      simp [wire, Event.wireBytes]
    · rw [htrace, hnil, List.append_nil]
    · rw [htrace, hnil, wire_append]
      rfl
  · rcases h.trace_eq with htrace | ⟨-, htrace | ⟨errno, htrace⟩⟩
    · rw [htrace, payloads_append]
      simp [payloads, Event.payload]
    · rw [htrace]
    · rw [htrace, payloads_append]
      simp [payloads, Event.payload]
  · have hnil : bytesLeft file callbacks = [] := List.flatMap_eq_nil_iff.mpr hnoFile
    rw [bytesLeft_append, bytesLeft_requeued, hnil, List.nil_append]
    calc sent ++ slice (file fileDescriptor) (offset + sent.length) (count - sent.length)
        = slice (file fileDescriptor) offset sent.length
            ++ slice (file fileDescriptor) (offset + sent.length) (count - sent.length) := by
          rw [← h.bytes]
      _ = slice (file fileDescriptor) offset count := by
          rw [slice_append_slice, Nat.add_sub_cancel' h.length_le]
  · refine List.pairwise_append.mpr ⟨?_, pairwise_requeued _ _ _ _, ?_⟩
    · exact List.pairwise_of_forall_mem_list fun task hmem _ _ => Or.inl (hnoFile task hmem)
    · intro task hmem _ _
      exact Or.inl (hnoFile task hmem)

theorem sendFileInLoop_sent (s : Session κ) (fileDescriptor offset count : Nat)
    (answer : Except Errno Nat) (hstate : s.conn.state ≠ .kDisconnecting)
    (hfatal : ∀ errno, answer = .error errno → ¬IsFatal errno) :
    ∃ sent queued, FileSent file s (s.sendFileInLoop file fileDescriptor offset count answer)
      (slice (file fileDescriptor) offset count) sent queued := by
  obtain ⟨sent, callbacks, hsplit⟩ :=
    s.sendFileInLoop_split file fileDescriptor offset count answer hstate hfatal
  exact ⟨sent, _, hsplit.fileSent⟩

end Session

/-! ### Calls in sequence -/

namespace Running

/-- What waits in the queue of the loop, and what is left of the batch. -/
def tasks (r : Running κ) : List Task := r.functors ++ r.session.pendingFunctors

theorem tasks_of_swap {r : Running κ} (hempty : r.functors = []) :
    tasks { session := { r.session with pendingFunctors := [] }
            functors := r.session.pendingFunctors } = r.tasks := by
  simp [tasks, hempty]

/-- Steps of a connection that stays connected, on a socket without fatal errors. -/
def Undisturbed (_ : Running κ) : Step → Prop
  | .send _ answer | .sendFile _ _ _ answer | .handleWrite answer | .runFunctor answer =>
      ∀ errno, answer = .error errno → ¬IsFatal errno
  | .handleRead answer => answer ≠ .ok []
  | .doPendingFunctors | .handleError => True
  | .shutdown | .handleClose | .connectDestroyed => False

/-- Something is sent only when no queued functor has file bytes left. -/
def WaitsForFile (r : Running κ) : Step → Prop
  | .send data _ => data = [] ∨ bytesLeft file r.tasks = []
  | .sendFile fileDescriptor offset count _ =>
      slice (file fileDescriptor) offset count = [] ∨ bytesLeft file r.tasks = []
  | _ => True

/-- Wire, output buffer and queue hold the payloads in call order, and at most one functor has file
bytes left. -/
structure InSequence (r : Running κ) : Prop where
  flow : Flow r.session
  connected : r.session.conn.state = .kConnected
  stream : wire r.session.trace ++ r.session.conn.outputBuffer.content ++ bytesLeft file r.tasks
    = payloads file r.session.trace
  alone : r.tasks.Pairwise fun a b => a.bytesLeft file = [] ∨ b.bytesLeft file = []

theorem keepsOpen_of_undisturbed {r : Running κ} {step : Step} (h : Undisturbed r step) :
    KeepsOpen r step := by
  cases step with
  | send data answer =>
      rintro - ⟨-, errno, hanswer, hfatal⟩
      exact h errno hanswer hfatal
  | handleRead answer => exact h
  | shutdown => exact h.elim
  | handleClose => exact h.elim
  | connectDestroyed => exact h.elim
  | _ => trivial

theorem alone_append_of_nil {queue extra : List Task}
    (halone : queue.Pairwise fun a b => a.bytesLeft file = [] ∨ b.bytesLeft file = [])
    (hextra : extra.Pairwise fun a b => a.bytesLeft file = [] ∨ b.bytesLeft file = [])
    (hnil : bytesLeft file queue = [] ∨ bytesLeft file extra = []) :
    (queue ++ extra).Pairwise fun a b => a.bytesLeft file = [] ∨ b.bytesLeft file = [] := by
  refine List.pairwise_append.mpr ⟨halone, hextra, ?_⟩
  intro a ha b hb
  rcases hnil with hnil | hnil
  · exact Or.inl (List.flatMap_eq_nil_iff.mp hnil a ha)
  · exact Or.inr (List.flatMap_eq_nil_iff.mp hnil b hb)

theorem alone_of_nil {extra : List Task} (hnil : bytesLeft file extra = []) :
    extra.Pairwise fun a b => a.bytesLeft file = [] ∨ b.bytesLeft file = [] :=
  List.pairwise_of_forall_mem_list fun a ha _ _ => Or.inl (List.flatMap_eq_nil_iff.mp hnil a ha)

variable {file}

theorem InSequence.of_text {r : Running κ} {s' : Session κ} (h : InSequence file r)
    (hflow : Flow s') (hstate : s'.conn.state = r.session.conn.state)
    (hqueues : QueuesNoFile file r.session s')
    (hstream : wire s'.trace ++ s'.conn.outputBuffer.content ++ bytesLeft file r.tasks
      = payloads file s'.trace) : InSequence file { r with session := s' } := by
  obtain ⟨extra, hpending, hbytes⟩ := hqueues
  have htasks : tasks { r with session := s' } = r.tasks ++ extra := by
    rw [tasks, tasks, hpending, List.append_assoc]
  refine ⟨hflow, hstate.trans h.connected, ?_, ?_⟩
  · rw [htasks, bytesLeft_append, hbytes, List.append_nil]
    exact hstream
  · rw [htasks]
    exact alone_append_of_nil file h.alone (alone_of_nil file hbytes) (Or.inr hbytes)

theorem InSequence.send {r : Running κ} (h : InSequence file r) {data : List Byte}
    {answer : Except Errno Nat} (hok : Undisturbed r (.send data answer))
    (hwaits : data = [] ∨ bytesLeft file r.tasks = []) :
    InSequence file { r with session := r.session.send data answer } := by
  have hfault := keepsOpen_of_undisturbed hok h.connected
  obtain ⟨wrote, hout⟩ := Session.sendInLoop_output (r.session.emit (.send data)) data answer
    h.flow.state_ne_disconnected h.flow.writing hfault
  have hsend : r.session.send data answer
      = (r.session.emit (.send data)).sendInLoop data answer := if_pos h.connected
  refine h.of_text (h.flow.send data answer fun _ => hfault) ?_
    (Session.send_queues _ data answer).noFile ?_
  · rw [hsend, hout.state_eq]
    rfl
  · have hstream := h.stream
    have hbytes := hout.bytes
    rw [Session.emit_conn] at hbytes
    have hswap : data ++ bytesLeft file r.tasks = bytesLeft file r.tasks ++ data := by
      rcases hwaits with hnil | hnil <;> simp [hnil]
    rw [hsend, hout.trace_eq, Session.emit_trace]
    simp only [wire_append, payloads_append, wire_of_writes hout.writes,
      payloads_of_writes file hout.writes]
    calc wire r.session.trace ++ wire [.send data] ++ written wrote
            ++ ((r.session.emit (.send data)).sendInLoop data answer).conn.outputBuffer.content
            ++ bytesLeft file r.tasks
        = wire r.session.trace ++ (written wrote
            ++ ((r.session.emit (.send data)).sendInLoop data answer).conn.outputBuffer.content)
            ++ bytesLeft file r.tasks := by
          simp [wire, Event.wireBytes]
      _ = wire r.session.trace ++ r.session.conn.outputBuffer.content
            ++ (bytesLeft file r.tasks ++ data) := by
          rw [hbytes, ← hswap]
          simp only [List.append_assoc]
      _ = payloads file r.session.trace ++ payloads file [.send data] ++ [] := by
          rw [← List.append_assoc, hstream]
          simp [payloads, Event.payload]

theorem InSequence.handleWrite {r : Running κ} (h : InSequence file r)
    (answer : Except Errno Nat) :
    InSequence file { r with session := r.session.handleWrite answer } := by
  obtain ⟨wrote, hdrained⟩ := Session.handleWrite_drained r.session answer h.flow.writing
  have htrace := hdrained.trace_eq
  rw [if_neg fun hdone => by rw [h.connected] at hdone; exact absurd hdone.2.2 (by decide),
    List.append_nil] at htrace
  refine h.of_text (h.flow.handleWrite answer) hdrained.state_eq
    (Session.handleWrite_queues _ answer).noFile ?_
  rw [htrace, wire_append, payloads_append, payloads_of_writes file hdrained.writes,
    wire_of_writes hdrained.writes, List.append_assoc (wire _), hdrained.bytes, h.stream,
    List.append_nil]

/-- `sendFileInLoop` beside other functors, when its file or theirs has no bytes left. -/
theorem InSequence.of_file {s s' : Session κ} {functors : List Task} {payload sent : List Byte}
    {queued : List Task} (hsent : Session.FileSent file s s' payload sent queued) (hflow : Flow s')
    (hstate : s'.conn.state = .kConnected) (hbuffer : s'.conn.outputBuffer = s.conn.outputBuffer)
    (halone : (functors ++ s.pendingFunctors).Pairwise
      fun a b => a.bytesLeft file = [] ∨ b.bytesLeft file = [])
    (hwaits : payload = [] ∨ bytesLeft file (functors ++ s.pendingFunctors) = [])
    (hstream : wire s.trace ++ s.conn.outputBuffer.content
      ++ bytesLeft file (functors ++ s.pendingFunctors) ++ payload = payloads file s.trace) :
    InSequence file { session := s', functors := functors } := by
  set others := functors ++ s.pendingFunctors with hothers
  have htasks : tasks { session := s', functors := functors } = others ++ queued := by
    rw [tasks, hsent.pending_eq, hothers, List.append_assoc]
  have hparts : payload = [] → sent = [] ∧ bytesLeft file queued = [] := by
    intro hnil
    rw [hnil] at hsent
    exact List.append_eq_nil_iff.mp hsent.split_eq
  have hbuffered : sent ++ s.conn.outputBuffer.content = s.conn.outputBuffer.content ++ sent := by
    rcases hsent.behind with hnil | hnil <;> simp [hnil]
  have hahead : sent ++ bytesLeft file others = bytesLeft file others ++ sent := by
    rcases hwaits with hnil | hnil
    · simp [(hparts hnil).1]
    · simp [hnil]
  refine ⟨hflow, hstate, ?_, ?_⟩
  · rw [htasks, bytesLeft_append, hsent.wire_eq, hsent.payloads_eq, hbuffer, ← hstream,
      ← hsent.split_eq]
    calc wire s.trace ++ sent ++ s.conn.outputBuffer.content
            ++ (bytesLeft file others ++ bytesLeft file queued)
        = wire s.trace ++ s.conn.outputBuffer.content ++ (sent ++ bytesLeft file others)
            ++ bytesLeft file queued := by
          rw [List.append_assoc (wire _), hbuffered]
          simp only [List.append_assoc]
      _ = wire s.trace ++ s.conn.outputBuffer.content ++ bytesLeft file others
            ++ (sent ++ bytesLeft file queued) := by
          rw [hahead]
          simp only [List.append_assoc]
  · rw [htasks]
    apply alone_append_of_nil file halone hsent.alone
    exact hwaits.symm.imp_right fun hnil => (hparts hnil).2

theorem InSequence.sendFile {r : Running κ} (h : InSequence file r)
    {fileDescriptor offset count : Nat} {answer : Except Errno Nat}
    (hok : Undisturbed r (.sendFile fileDescriptor offset count answer))
    (hwaits : slice (file fileDescriptor) offset count = [] ∨ bytesLeft file r.tasks = []) :
    InSequence file
      { r with session := r.session.sendFile file fileDescriptor offset count answer } := by
  set s := r.session.emit (.sendFile fileDescriptor offset count) with hs
  have hcall : r.session.sendFile file fileDescriptor offset count answer
      = s.sendFileInLoop file fileDescriptor offset count answer := by
    simp [Session.sendFile, TcpConnection.connected, h.connected, hs]
  obtain ⟨sent, queued, hsent⟩ := Session.sendFileInLoop_sent file s fileDescriptor offset count
    answer (by rw [hs, Session.emit_conn, h.connected]; decide) hok
  have hflow := h.flow.sendFile file fileDescriptor offset count answer
  rw [hcall] at hflow ⊢
  refine InSequence.of_file hsent hflow ?_ ?_ h.alone hwaits ?_
  · rw [Session.sendFileInLoop_conn]
    exact h.connected
  · rw [Session.sendFileInLoop_conn]
  · have hstream := h.stream
    rw [hs, Session.emit_trace, wire_append, payloads_append, ← hstream]
    simp [wire, payloads, Event.wireBytes, Event.payload, tasks]

theorem InSequence.runTask {r : Running κ} (h : InSequence file r) {task : Task} {rest : List Task}
    {answer : Except Errno Nat} (hfunctors : r.functors = task :: rest)
    (hok : Undisturbed r (.runFunctor answer)) :
    InSequence file { session := Running.runTask file r.session answer task, functors := rest } := by
  have htasks : r.tasks = task :: (rest ++ r.session.pendingFunctors) := by
    rw [tasks, hfunctors, List.cons_append]
  have hstream := h.stream
  have halone := h.alone
  rw [htasks] at hstream halone
  obtain ⟨hhead, hothers⟩ := List.pairwise_cons.mp halone
  have hbytes : bytesLeft file (task :: (rest ++ r.session.pendingFunctors))
      = task.bytesLeft file ++ bytesLeft file (rest ++ r.session.pendingFunctors) := rfl
  rw [hbytes] at hstream
  cases task with
  | sendFileInLoop fileDescriptor offset count =>
      have hwaits : slice (file fileDescriptor) offset count = [] ∨
          bytesLeft file (rest ++ r.session.pendingFunctors) = [] := by
        by_cases hnil : slice (file fileDescriptor) offset count = []
        · exact Or.inl hnil
        · right
          apply List.flatMap_eq_nil_iff.mpr
          intro other hmem
          exact (hhead other hmem).resolve_left hnil
      obtain ⟨sent, queued, hsent⟩ := Session.sendFileInLoop_sent file r.session fileDescriptor
        offset count answer (by rw [h.connected]; decide) hok
      have hconn : (Running.runTask file r.session answer
          (.sendFileInLoop fileDescriptor offset count)).conn = r.session.conn :=
        Session.sendFileInLoop_conn file r.session fileDescriptor offset count answer
      refine InSequence.of_file hsent (h.flow.sendFileInLoop file _ _ _ _) ?_ ?_ hothers hwaits ?_
      · rw [hconn]
        exact h.connected
      · rw [hconn]
      · rw [← hstream]
        rcases hwaits with hnil | hnil <;> simp [hnil, Task.bytesLeft]
  | writeCompleteCallback => exact ⟨h.flow, h.connected, hstream, hothers⟩
  | highWaterMarkCallback length => exact ⟨h.flow, h.connected, hstream, hothers⟩

theorem inSequence_of_established {r : Running κ} (h : Established r) : InSequence file r := by
  have hflow := flow_of_established h
  obtain ⟨self, poller, fd, mark, size, _, _, _, _, _, hsession, hfunctors⟩ := h
  obtain ⟨hstate, hbuffer, -, hpending, events, hcallbacks, htrace⟩ :=
    Session.connectEstablished_spec (fresh self poller fd mark size _ _ _ _ _)
  rw [← hsession] at hstate hbuffer hpending htrace
  have htasks : r.tasks = [] := by
    rw [tasks, hfunctors, hpending]
    rfl
  have hcontent : r.session.conn.outputBuffer.content = [] := by
    rw [hbuffer]
    exact ValidBuffer.content_new size
  replace htrace : r.session.trace = events := htrace
  refine ⟨hflow, hstate, ?_, ?_⟩
  · rw [htasks, hcontent, htrace, wire_of_callbacks hcallbacks, payloads_of_callbacks file hcallbacks]
    rfl
  · rw [htasks]
    exact List.Pairwise.nil

theorem inSequence_step {r r' : Running κ} {step : Step} (h : InSequence file r)
    (hok : Undisturbed r step) (hwaits : WaitsForFile file r step)
    (hstep : Running.step file r step = some r') : InSequence file r' := by
  cases step with
  | send data answer =>
      obtain rfl := Option.some.inj hstep
      exact h.send hok hwaits
  | sendFile fileDescriptor offset count answer =>
      obtain rfl := Option.some.inj hstep
      exact h.sendFile hok hwaits
  | shutdown => exact hok.elim
  | handleRead answer =>
      obtain rfl := Option.some.inj hstep
      have hflow := h.flow.handleRead hok
      obtain ⟨events, hcallbacks, htrace, hpending, hconn⟩ := r.session.handleRead_of_data hok
      apply h.of_text hflow (by rw [hconn]) (.of_eq hpending)
      rw [htrace, hconn, wire_append, payloads_append, wire_of_callbacks hcallbacks,
        payloads_of_callbacks file hcallbacks, List.append_nil, List.append_nil]
      exact h.stream
  | handleWrite answer =>
      obtain rfl := Option.some.inj hstep
      exact h.handleWrite answer
  | handleClose => exact hok.elim
  | handleError =>
      obtain rfl := Option.some.inj hstep
      exact h
  | connectDestroyed => exact hok.elim
  | doPendingFunctors =>
      obtain ⟨hempty, rfl⟩ := Running.step_doPendingFunctors hstep
      have htasks := tasks_of_swap hempty
      exact ⟨⟨h.flow.stream, h.flow.writing, h.flow.live, h.flow.fin_iff, h.flow.fin_last⟩,
        h.connected, by rw [htasks]; exact h.stream, by rw [htasks]; exact h.alone⟩
  | runFunctor answer =>
      obtain ⟨task, rest, hfunctors, rfl⟩ := Running.step_runFunctor hstep
      exact h.runTask hfunctors hok

variable (file)

/-- **Calls in sequence stay in sequence.** When text and files are sent only while no queued functor
has file bytes left, what was handed to the socket is a prefix of the payloads in call order. -/
theorem wire_prefix_of_waits {r : Running κ}
    (h : (system file).ReachableUnder
      (fun r step => Undisturbed r step ∧ WaitsForFile file r step) r) :
    wire r.session.trace <+: payloads file r.session.trace := by
  have hseq : InSequence file r :=
    h.invariant (fun _ => inSequence_of_established) fun _ _ _ hinv hok hstep =>
      inSequence_step hinv hok.1 hok.2 hstep
  refine ⟨r.session.conn.outputBuffer.content ++ bytesLeft file r.tasks, ?_⟩
  rw [← List.append_assoc]
  exact hseq.stream

/-- A file in two parts, and then text that the socket takes in two parts. -/
theorem wire_prefix_of_waits_halves :
    ∃ r : Running Unit, wire r.session.trace = [10, 11, 12, 13, 1] ∧
      wire r.session.trace <+: payloads (fun _ => [10, 11, 12, 13]) r.session.trace := by
  have hfatal := not_isFatal_of_ok
  have hrun : (system fun _ => [10, 11, 12, 13]).RunUnder
      (fun r step => Undisturbed r step ∧ WaitsForFile (fun _ => [10, 11, 12, 13]) r step) sample
      [.sendFile 3 0 4 (.ok 2), .doPendingFunctors, .runFunctor (.ok 9), .send [1, 2] (.ok 1)] _ :=
    .cons ⟨hfatal 2, Or.inr rfl⟩ rfl
      (.cons ⟨trivial, trivial⟩ rfl
        (.cons ⟨hfatal 9, trivial⟩ rfl (.single ⟨hfatal 1, Or.inr rfl⟩ rfl)))
  exact ⟨_, rfl, wire_prefix_of_waits _ ⟨sample, _, established_sample, hrun⟩⟩

/-- Text that is sent while the rest of a file waits in the queue of the loop. -/
theorem send_overtakes_file :
    ∃ r : Running Unit,
      (system fun _ => [10, 11, 12, 13]).RunUnder Undisturbed sample
        [.sendFile 3 0 4 (.ok 2), .send [1] (.ok 1), .doPendingFunctors, .runFunctor (.ok 2)] r ∧
      payloads (fun _ => [10, 11, 12, 13]) r.session.trace = [10, 11, 12, 13, 1] ∧
      wire r.session.trace = [10, 11, 1, 12, 13] ∧
      ¬wire r.session.trace <+: payloads (fun _ => [10, 11, 12, 13]) r.session.trace := by
  have hfatal := not_isFatal_of_ok
  refine ⟨_, .cons (hfatal 2) rfl (.cons (hfatal 1) rfl (.cons trivial rfl
    (.single (hfatal 2) rfl))), rfl, rfl, ?_⟩
  intro hfront
  have hsame := hfront.eq_of_length rfl
  exact absurd hsame (by decide)

end Running

end MuduoCore
