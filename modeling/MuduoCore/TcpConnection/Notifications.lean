import MuduoCore.TcpConnection.Close
import MuduoCore.TcpConnection.Updates

/-!
# Back-pressure notifications

`sendInLoop` and `handleWrite` queue the write-complete and the high-water callback in three branches,
partly before the append that they describe. What they queue is read here off the step as a whole:
from the calls of `::write` it made and from the lengths of the output buffer before and after it.
-/

namespace MuduoCore

variable {κ : Type*}

/-- A call of `::write` that did not fail. -/
def Event.isSuccessfulWrite : Event → Bool
  | .write _ => true
  | _ => false

namespace Session

/-- As long as the connection is not closed, it waits for `EPOLLOUT` exactly while bytes wait. -/
def WaitsForRoom (s : Session κ) : Prop :=
  s.conn.state ≠ .kDisconnected →
    (s.conn.channel.isWriting = true ↔ s.conn.outputBuffer.content ≠ [])

/-- The write-complete callback that a step with these events owes: a successful `::write`, and no
byte left. -/
def completion (events : List Event) (after : Session κ) : List Task :=
  if events.any Event.isSuccessfulWrite = true ∧ after.conn.outputBuffer.content = [] then
    [.writeCompleteCallback]
  else []

/-- The high-water callback that a step owes: the buffer was below the mark and no longer is. -/
def crossing (before after : Session κ) : List Task :=
  if before.conn.outputBuffer.readableBytes < before.conn.highWaterMark ∧
      before.conn.highWaterMark ≤ after.conn.outputBuffer.readableBytes then
    [.highWaterMarkCallback after.conn.outputBuffer.readableBytes]
  else []

/-- The step queued what it owes, once, and nothing else. -/
structure Notifies (before after : Session κ) (events : List Event) : Prop where
  trace_eq : after.trace = before.trace ++ events
  pending_eq : after.pendingFunctors
    = before.pendingFunctors ++ completion events after ++ crossing before after

variable {s s' : Session κ}

/-! ### The branches of `sendInLoop` -/

/-- What `sendInLoop` does on a connection that is not closed. -/
inductive SendCase (s : Session κ) (data : List Byte) : Except Errno Nat → Session κ → Prop where
  | wroteAll {n : Nat} (hdirect : s.mayWriteDirectly = true) (hall : data.length ≤ n) :
      SendCase s data (.ok n)
        ((s.emit (.write data)).queueWhen s.conn.writeCompleteCallback .writeCompleteCallback)
  | wrotePart {n : Nat} (hdirect : s.mayWriteDirectly = true) (hpart : n < data.length) :
      SendCase s data (.ok n) ((s.emit (.write (data.take n))).bufferRest (data.drop n))
  | failed {errno : Errno} (hdirect : s.mayWriteDirectly = true)
      (hnone : IsFatal errno ∨ data = []) :
      SendCase s data (.error errno) (s.emit (.writeError errno))
  | failedBuffered {errno : Errno} (hdirect : s.mayWriteDirectly = true) (hfatal : ¬IsFatal errno)
      (hdata : data ≠ []) :
      SendCase s data (.error errno) ((s.emit (.writeError errno)).bufferRest data)
  | nothing {answer : Except Errno Nat} (hdirect : s.mayWriteDirectly = false) (hdata : data = []) :
      SendCase s data answer s
  | buffered {answer : Except Errno Nat} (hdirect : s.mayWriteDirectly = false)
      (hdata : data ≠ []) : SendCase s data answer (s.bufferRest data)

theorem sendInLoop_case (hstate : s.conn.state ≠ .kDisconnected) (data : List Byte)
    (answer : Except Errno Nat) : SendCase s data answer (s.sendInLoop data answer) := by
  by_cases hdirect : s.mayWriteDirectly = true
  · cases answer with
    | ok n =>
        by_cases hall : data.length ≤ n
        · have heq : s.sendInLoop data (.ok n) = (s.emit (.write data)).queueWhen
              s.conn.writeCompleteCallback .writeCompleteCallback := by
            simp [sendInLoop, hstate, attemptWrite, hdirect, directWrite, Nat.min_eq_right hall]
          rw [heq]
          exact .wroteAll hdirect hall
        · have hpart : n < data.length := Nat.lt_of_not_le hall
          have hleft : 0 < data.length - n := Nat.sub_pos_of_lt hpart
          have heq : s.sendInLoop data (.ok n)
              = (s.emit (.write (data.take n))).bufferRest (data.drop n) := by
            simp [sendInLoop, hstate, attemptWrite, hdirect, directWrite, queueWhen,
              Nat.min_eq_left hpart.le, hleft, hleft.ne']
          rw [heq]
          exact .wrotePart hdirect hpart
    | error errno =>
        by_cases hfatal : IsFatal errno
        · rw [s.sendInLoop_of_faults data hstate ⟨hdirect, errno, rfl, hfatal⟩]
          exact .failed hdirect (.inl hfatal)
        · have hfault : (s.attemptWrite data (.error errno)).faultError = false := by
            have hnot := mt (attemptWrite_faultError s data (.error errno)).mp
            rw [Bool.not_eq_true] at hnot
            apply hnot
            rintro ⟨-, other, hother, hbad⟩
            cases hother
            exact hfatal hbad
          by_cases hdata : data = []
          · have heq : s.sendInLoop data (.error errno) = s.emit (.writeError errno) := by
              simp [sendInLoop, hstate, hfault]
              simp [attemptWrite, hdirect, directWrite, hdata]
            rw [heq]
            exact .failed hdirect (.inr hdata)
          · have hlength : 0 < data.length := List.length_pos_iff.mpr hdata
            have heq : s.sendInLoop data (.error errno)
                = (s.emit (.writeError errno)).bufferRest data := by
              simp [sendInLoop, hstate, hfault]
              simp [attemptWrite, hdirect, directWrite, hlength]
            rw [heq]
            exact .failedBuffered hdirect hfatal hdata
  · rw [Bool.not_eq_true] at hdirect
    by_cases hdata : data = []
    · have heq : s.sendInLoop data answer = s := by
        simp [sendInLoop, hstate, attemptWrite, hdirect, hdata]
      rw [heq]
      exact .nothing hdirect hdata
    · have hlength : 0 < data.length := List.length_pos_iff.mpr hdata
      have heq : s.sendInLoop data answer = s.bufferRest data := by
        simp [sendInLoop, hstate, attemptWrite, hdirect, hlength]
      rw [heq]
      exact .buffered hdirect hdata

/-! ### What waits in the buffer -/

theorem WaitsForRoom.of_conn_eq (h : WaitsForRoom s) (hconn : s'.conn = s.conn) :
    WaitsForRoom s' := by
  unfold WaitsForRoom
  rwa [hconn]

theorem waitsForRoom_bufferRest (s : Session κ) {rest : List Byte} (hrest : rest ≠ []) :
    WaitsForRoom (s.bufferRest rest) := by
  obtain ⟨-, -, hcontent, hwriting⟩ := s.bufferRest_spec rest
  intro _
  rw [hcontent]
  exact iff_of_true hwriting (by simp [hrest])

theorem WaitsForRoom.sendInLoop (h : WaitsForRoom s) (data : List Byte) (answer : Except Errno Nat) :
    WaitsForRoom (s.sendInLoop data answer) := by
  by_cases hstate : s.conn.state = .kDisconnected
  · have hsame : s.sendInLoop data answer = s := by simp [Session.sendInLoop, hstate]
    rwa [hsame]
  · have hcase := sendInLoop_case hstate data answer
    generalize s.sendInLoop data answer = after at hcase ⊢
    cases hcase with
    | wroteAll _ _ => exact h.of_conn_eq (by simp)
    | wrotePart _ hpart =>
        apply waitsForRoom_bufferRest
        rw [Ne, List.drop_eq_nil_iff]
        omega
    | failed _ _ => exact h.of_conn_eq rfl
    | failedBuffered _ _ hdata => exact waitsForRoom_bufferRest _ hdata
    | nothing _ _ => exact h
    | buffered _ hdata => exact waitsForRoom_bufferRest _ hdata

theorem WaitsForRoom.handleWrite (h : WaitsForRoom s) (answer : Except Errno Nat) :
    WaitsForRoom (s.handleWrite answer) := by
  intro hopen
  have hstate : s.conn.state ≠ .kDisconnected := by
    intro hclosed
    apply hopen
    rw [(Updates.handleWrite s answer).staysUp.state_eq_of_ne (by rw [hclosed]; decide), hclosed]
  obtain ⟨wrote, hdrained⟩ := s.handleWrite_drained answer (h hstate)
  exact hdrained.writing

theorem waitsForRoom_of_closed (hstate : s.conn.state = .kDisconnected) : WaitsForRoom s :=
  fun hopen => absurd hstate hopen

/-! ### What one step queues -/

/-- The members that the two functions read and never write. -/
structure SameSettings (s s' : Session κ) : Prop where
  writeComplete_eq : s'.conn.writeCompleteCallback = s.conn.writeCompleteCallback
  highWater_eq : s'.conn.highWaterMarkCallback = s.conn.highWaterMarkCallback
  mark_eq : s'.conn.highWaterMark = s.conn.highWaterMark
  state_eq : s'.conn.state = s.conn.state

theorem SameSettings.of_conn_eq (hconn : s'.conn = s.conn) : SameSettings s s' := by
  constructor <;> rw [hconn]

theorem bufferRest_settings (s : Session κ) (rest : List Byte) : SameSettings s (s.bufferRest rest) := by
  unfold bufferRest
  dsimp only
  split <;> exact ⟨by simp [enableWriting], by simp [enableWriting], by simp [enableWriting],
    by simp [enableWriting]⟩

/-- What `bufferRest` queues is the crossing, described before the append. -/
theorem bufferRest_pending (s : Session κ) (rest : List Byte)
    (hcallback : s.conn.highWaterMarkCallback = true) :
    (s.bufferRest rest).pendingFunctors = s.pendingFunctors ++ crossing s (s.bufferRest rest) := by
  have hlength : (s.bufferRest rest).conn.outputBuffer.readableBytes
      = s.conn.outputBuffer.readableBytes + rest.length := by
    rw [ValidBuffer.readableBytes_eq, ValidBuffer.readableBytes_eq, (s.bufferRest_spec rest).2.2.1,
      List.length_append]
  have hqueued : (s.bufferRest rest).pendingFunctors = s.pendingFunctors ++
      if s.conn.highWaterMark ≤ s.conn.outputBuffer.readableBytes + rest.length ∧
          s.conn.outputBuffer.readableBytes < s.conn.highWaterMark then
        [.highWaterMarkCallback (s.conn.outputBuffer.readableBytes + rest.length)]
      else [] := by
    unfold bufferRest
    dsimp only
    split <;> simp [enableWriting, hcallback]
  rw [hqueued, crossing, hlength]
  congr 1
  exact if_congr and_comm rfl rfl

theorem crossing_of_length_le {after : Session κ}
    (hle : after.conn.outputBuffer.readableBytes ≤ s.conn.outputBuffer.readableBytes) :
    crossing s after = [] := by
  apply if_neg
  omega

theorem crossing_of_conn_eq (hconn : s'.conn = s.conn) : crossing s s' = [] :=
  crossing_of_length_le (by rw [hconn])

theorem completion_of_content_ne (events : List Event) {after : Session κ}
    (hleft : after.conn.outputBuffer.content ≠ []) : completion events after = [] :=
  if_neg fun hdone => hleft hdone.2

theorem completion_of_no_write {events : List Event} (after : Session κ)
    (hnone : events.any Event.isSuccessfulWrite = false) : completion events after = [] := by
  apply if_neg
  rw [hnone]
  simp

/-- A step that leaves the connection alone and owes no completion queues nothing. -/
theorem notifies_of_conn_eq {events : List Event} (hconn : s'.conn = s.conn)
    (htrace : s'.trace = s.trace ++ events) (hpending : s'.pendingFunctors = s.pendingFunctors)
    (hnone : completion events s' = []) : SameSettings s s' ∧ ∃ events, Notifies s s' events := by
  refine ⟨.of_conn_eq hconn, events, htrace, ?_⟩
  rw [hpending, hnone, crossing_of_conn_eq hconn, List.append_nil, List.append_nil]

/-- A step whose rest went to the buffer: something waits, so only the mark can have been crossed. -/
theorem notifies_bufferRest (s : Session κ) (events : List Event) {before : Session κ}
    {rest : List Byte} (hrest : rest ≠ []) (htrace : s.trace = before.trace ++ events)
    (hpending : s.pendingFunctors = before.pendingFunctors) (hconn : s.conn = before.conn)
    (hcallback : s.conn.highWaterMarkCallback = true) :
    Notifies before (s.bufferRest rest) events := by
  have hcontent := (s.bufferRest_spec rest).2.2.1
  refine ⟨?_, ?_⟩
  · rw [(s.bufferRest_spec rest).2.1, htrace]
  · have hleft : (s.bufferRest rest).conn.outputBuffer.content ≠ [] := by
      rw [hcontent]
      simp [hrest]
    have hcrossing : crossing before (s.bufferRest rest) = crossing s (s.bufferRest rest) := by
      unfold crossing
      rw [hconn]
    rw [completion_of_content_ne events hleft, List.append_nil, hcrossing,
      s.bufferRest_pending rest hcallback, hpending]

theorem sendInLoop_notifies (hstate : s.conn.state ≠ .kDisconnected)
    (hcomplete : s.conn.writeCompleteCallback = true)
    (hhigh : s.conn.highWaterMarkCallback = true) (data : List Byte) (answer : Except Errno Nat) :
    SameSettings s (s.sendInLoop data answer) ∧
      ∃ events, Notifies s (s.sendInLoop data answer) events := by
  have hcase := sendInLoop_case hstate data answer
  generalize s.sendInLoop data answer = after at hcase ⊢
  have hrest : ∀ (t : Session κ) (rest : List Byte), t.conn = s.conn →
      SameSettings s (t.bufferRest rest) := by
    intro t rest hconn
    obtain ⟨hcomplete', hhigh', hmark', hstate'⟩ := bufferRest_settings t rest
    rw [hconn] at hcomplete' hhigh' hmark' hstate'
    exact ⟨hcomplete', hhigh', hmark', hstate'⟩
  cases hcase with
  | wroteAll hdirect _ =>
      have hempty := ((s.mayWriteDirectly_iff).mp hdirect).2
      rw [hcomplete]
      set after := (s.emit (.write data)).queueWhen true .writeCompleteCallback with hafter
      have hconn : after.conn = s.conn := by simp [hafter]
      have hdone : completion [.write data] after = [.writeCompleteCallback] := by
        apply if_pos
        rw [hconn]
        exact ⟨rfl, hempty⟩
      refine ⟨.of_conn_eq hconn, [.write data], rfl, ?_⟩
      rw [crossing_of_conn_eq hconn, List.append_nil, hdone]
      rfl
  | @wrotePart n _ hpart =>
      have hdrop : data.drop n ≠ [] := by
        rw [Ne, List.drop_eq_nil_iff]
        omega
      exact ⟨hrest _ _ rfl, _, notifies_bufferRest _ [.write (data.take n)] hdrop rfl rfl rfl hhigh⟩
  | failed _ _ => exact notifies_of_conn_eq rfl rfl rfl (completion_of_no_write _ rfl)
  | @failedBuffered errno _ _ hdata =>
      exact ⟨hrest _ _ rfl, _, notifies_bufferRest _ [.writeError errno] hdata rfl rfl rfl hhigh⟩
  | nothing _ _ =>
      exact notifies_of_conn_eq rfl (List.append_nil _).symm rfl (completion_of_no_write _ rfl)
  | buffered _ hdata =>
      exact ⟨hrest _ _ rfl, _,
        notifies_bufferRest s [] hdata (List.append_nil _).symm rfl rfl hhigh⟩

theorem finishWrite_settings (s : Session κ) : SameSettings s s.finishWrite := by
  unfold finishWrite
  dsimp only
  split <;> exact ⟨by simp [disableWriting], by simp [disableWriting], by simp [disableWriting],
    by simp [disableWriting]⟩

theorem finishWrite_pending (s : Session κ) (hcomplete : s.conn.writeCompleteCallback = true) :
    s.finishWrite.pendingFunctors = s.pendingFunctors ++ [.writeCompleteCallback] := by
  unfold finishWrite shutdownInLoop
  dsimp only
  split
  · split <;> simp [disableWriting, hcomplete]
  · simp [disableWriting, hcomplete]

/-- `handleWrite` only shortens the buffer; it drains it with a successful `::write`. -/
theorem handleWrite_notifies (hcomplete : s.conn.writeCompleteCallback = true)
    (hwaits : s.conn.channel.isWriting = true ↔ s.conn.outputBuffer.content ≠ [])
    (answer : Except Errno Nat) :
    SameSettings s (s.handleWrite answer) ∧ ∃ events, Notifies s (s.handleWrite answer) events := by
  have hshorter : ∀ (t : Session κ) (n : Nat),
      t.conn.outputBuffer.content = s.conn.outputBuffer.content.drop n → crossing s t = [] := by
    intro t n hcontent
    apply crossing_of_length_le
    rw [ValidBuffer.readableBytes_eq, ValidBuffer.readableBytes_eq, hcontent, List.length_drop]
    exact Nat.sub_le _ _
  rcases s.handleWrite_cases answer with ⟨hidle, heq⟩ | ⟨hchannel, ⟨errno, heq⟩ | heq | ⟨n, hn⟩⟩
  · rw [heq]
    exact notifies_of_conn_eq rfl (List.append_nil _).symm rfl (completion_of_no_write _ rfl)
  · rw [heq]
    exact notifies_of_conn_eq rfl rfl rfl (completion_of_no_write _ rfl)
  · have hleft : (s.emit (.write [])).conn.outputBuffer.content ≠ [] := hwaits.mp hchannel
    rw [heq]
    exact notifies_of_conn_eq rfl rfl rfl (completion_of_content_ne _ hleft)
  · have hcontent := s.wroteOut_content n
    have hsame : SameSettings s (s.wroteOut n) := ⟨rfl, rfl, rfl, rfl⟩
    have hwrote : (s.wroteOut n).trace
        = s.trace ++ [.write (s.conn.outputBuffer.content.take n)] := rfl
    rcases hn with ⟨hempty, heq⟩ | ⟨hleft, heq⟩
    · obtain ⟨-, hbuffer, -, htrace⟩ := (s.wroteOut n).finishWrite_spec
      have hfinish := (s.wroteOut n).finishWrite_settings
      set events := [Event.write (s.conn.outputBuffer.content.take n)] ++
        if (s.wroteOut n).conn.state = .kDisconnecting then [.shutdownWrite] else [] with hevents
      rw [heq]
      refine ⟨⟨hfinish.writeComplete_eq, hfinish.highWater_eq, hfinish.mark_eq, hfinish.state_eq⟩,
        events, ?_, ?_⟩
      · rw [htrace, hwrote, hevents, List.append_assoc]
      · have hdone : completion events (s.wroteOut n).finishWrite = [.writeCompleteCallback] := by
          apply if_pos
          rw [hbuffer]
          exact ⟨rfl, hempty⟩
        rw [hdone, hshorter _ n (by rw [hbuffer, hcontent]), List.append_nil]
        exact (s.wroteOut n).finishWrite_pending hcomplete
    · rw [heq]
      refine ⟨hsame, _, hwrote, ?_⟩
      rw [completion_of_content_ne _ hleft, hshorter _ n hcontent]
      simp [wroteOut]

end Session

namespace Running

open Session

theorem waitsForRoom_step (file : Nat → List Byte) {r r' : Running κ} {step : Step}
    (h : WaitsForRoom r.session) (hstep : Running.step file r step = some r') :
    WaitsForRoom r'.session := by
  cases step with
  | send data answer =>
      obtain rfl := Option.some.inj hstep
      simp only [Session.send]
      split
      · exact WaitsForRoom.sendInLoop (s := r.session.emit (.send data)) (h.of_conn_eq rfl) data answer
      · exact h
  | sendFile fileDescriptor offset count answer =>
      obtain rfl := Option.some.inj hstep
      simp only [Session.sendFile]
      split
      · exact h.of_conn_eq (by simp)
      · exact h
  | shutdown =>
      obtain rfl := Option.some.inj hstep
      simp only [Session.shutdown]
      split
      · rename_i hstate
        intro _
        rw [shutdownInLoop_conn]
        exact h (by rw [hstate]; decide)
      · exact h
  | handleRead answer =>
      obtain rfl := Option.some.inj hstep
      by_cases hdata : answer = .ok []
      · rw [hdata]
        exact waitsForRoom_of_closed (handleRead_eof_closed r.session).state_eq
      · obtain ⟨events, -, -, -, hconn⟩ := r.session.handleRead_of_data hdata
        unfold WaitsForRoom
        rw [hconn]
        exact h
  | handleWrite answer =>
      obtain rfl := Option.some.inj hstep
      exact h.handleWrite answer
  | handleClose =>
      obtain rfl := Option.some.inj hstep
      exact waitsForRoom_of_closed (handleClose_closed r.session).state_eq
  | handleError =>
      obtain rfl := Option.some.inj hstep
      exact h
  | connectDestroyed =>
      obtain rfl := Option.some.inj hstep
      by_cases hstate : r.session.conn.state = .kConnected
      · exact waitsForRoom_of_closed (connectDestroyed_closed r.session hstate).state_eq
      · unfold WaitsForRoom
        rw [connectDestroyed_of_ne r.session hstate]
        exact h
  | doPendingFunctors =>
      obtain ⟨-, rfl⟩ := step_doPendingFunctors hstep
      exact h.of_conn_eq rfl
  | runFunctor answer =>
      obtain ⟨task, rest, -, rfl⟩ := step_runFunctor hstep
      cases task with
      | sendFileInLoop fileDescriptor offset count => exact h.of_conn_eq (by simp [runTask])
      | writeCompleteCallback => exact h
      | highWaterMarkCallback _ => exact h

theorem waitsForRoom_of_reachable {file : Nat → List Byte} {r : Running κ}
    (h : (system file).Reachable r) : WaitsForRoom r.session := by
  refine h.invariant (fun r hr _ => ?_) fun _ _ _ hinv _ hstep => waitsForRoom_step file hinv hstep
  obtain ⟨self, poller, fd, mark, size, _, _, _, _, _, hsession, -⟩ := hr
  obtain ⟨-, hbuffer, hwriting, -⟩ :=
    Session.connectEstablished_spec (fresh self poller fd mark size _ _ _ _ _)
  rw [hsession, hbuffer, hwriting]
  simp [fresh, TcpConnection.new]

end Running

/-! ### Every run -/

inductive OutputStep where
  | sendInLoop (data : List Byte) (answer : Except Errno Nat)
  | handleWrite (answer : Except Errno Nat)

def OutputStep.apply (s : Session κ) : OutputStep → Session κ
  | sendInLoop data answer => s.sendInLoop data answer
  | handleWrite answer => s.handleWrite answer

namespace Session

/-- A connection with both callbacks set, at any point of its life before it is closed, and any steps
of the two functions from there on. -/
def outputSteps : System (Session κ) OutputStep where
  init s := ∃ (file : Nat → List Byte) (r : Running κ), (Running.system file).Reachable r ∧
    r.session = s ∧ s.conn.state ≠ .kDisconnected ∧
    s.conn.writeCompleteCallback = true ∧ s.conn.highWaterMarkCallback = true
  step s step := some (step.apply s)

/-- The functors that a step or a run has queued. -/
def queuedSince (before after : Session κ) : List Task :=
  after.pendingFunctors.drop before.pendingFunctors.length

/-- The step queued the high-water callback. -/
def FiresHighWater (before after : Session κ) : Prop :=
  ∃ length, .highWaterMarkCallback length ∈ queuedSince before after

structure Attentive (s : Session κ) : Prop where
  isOpen : s.conn.state ≠ .kDisconnected
  writeComplete : s.conn.writeCompleteCallback = true
  highWater : s.conn.highWaterMarkCallback = true
  waits : WaitsForRoom s

variable {s t : Session κ}

theorem Notifies.queuedSince_eq {events : List Event} (h : Notifies s t events) :
    queuedSince s t = completion events t ++ crossing s t := by
  rw [queuedSince, h.pending_eq, List.append_assoc, List.drop_left]

theorem Attentive.apply_notifies (h : Attentive s) (step : OutputStep) :
    SameSettings s (step.apply s) ∧ ∃ events, Notifies s (step.apply s) events := by
  cases step with
  | sendInLoop data answer => exact sendInLoop_notifies h.isOpen h.writeComplete h.highWater data answer
  | handleWrite answer => exact handleWrite_notifies h.writeComplete (h.waits h.isOpen) answer

theorem Attentive.apply (h : Attentive s) (step : OutputStep) : Attentive (step.apply s) := by
  have hsame := (h.apply_notifies step).1
  refine ⟨?_, ?_, ?_, ?_⟩
  · rw [hsame.state_eq]
    exact h.isOpen
  · rw [hsame.writeComplete_eq, h.writeComplete]
  · rw [hsame.highWater_eq, h.highWater]
  · cases step with
    | sendInLoop data answer => exact h.waits.sendInLoop data answer
    | handleWrite answer => exact h.waits.handleWrite answer

theorem attentive_of_reachable (h : outputSteps.Reachable s) : Attentive s := by
  refine h.invariant ?_ ?_
  · rintro s ⟨file, r, hreach, rfl, hopen, hcomplete, hhigh⟩
    exact ⟨hopen, hcomplete, hhigh, Running.waitsForRoom_of_reachable hreach⟩
  · intro s step t hs _ hstep
    obtain rfl : step.apply s = t := Option.some.inj hstep
    exact hs.apply step

theorem Attentive.run_mark (h : Attentive s) {steps : List OutputStep}
    (hrun : outputSteps.Run s steps t) :
    Attentive t ∧ t.conn.highWaterMark = s.conn.highWaterMark := by
  refine hrun.invariant (I := fun t => Attentive t ∧ t.conn.highWaterMark = s.conn.highWaterMark)
    ⟨h, rfl⟩ ?_
  intro t step u ht _ hstep
  obtain rfl : step.apply t = u := Option.some.inj hstep
  exact ⟨ht.1.apply step, (ht.1.apply_notifies step).1.mark_eq.trans ht.2⟩

theorem firesHighWater_iff (h : Attentive s) (step : OutputStep) :
    FiresHighWater s (step.apply s) ↔
      s.conn.outputBuffer.readableBytes < s.conn.highWaterMark ∧
        s.conn.highWaterMark ≤ (step.apply s).conn.outputBuffer.readableBytes := by
  obtain ⟨events, hnotifies⟩ := (h.apply_notifies step).2
  unfold FiresHighWater
  rw [hnotifies.queuedSince_eq]
  unfold completion crossing
  constructor
  · rintro ⟨length, hmem⟩
    by_contra hnot
    rw [if_neg hnot, List.append_nil] at hmem
    split at hmem <;> simp at hmem
  · intro hcrossed
    refine ⟨(step.apply s).conn.outputBuffer.readableBytes, ?_⟩
    rw [if_pos hcrossed]
    simp

/-! ### Completion after a send -/

/-- A send whose bytes will all reach the kernel: it does not lose them to a fault, and it is not an
empty one whose `::write` fails. -/
def SendCounts (s : Session κ) (data : List Byte) (answer : Except Errno Nat) : Prop :=
  ¬s.SendFaults answer ∧
    (data = [] → s.mayWriteDirectly = true → ∀ errno, answer ≠ .error errno)

/-- Since `start` the write-complete callback has been queued, or bytes still wait. -/
structure Owed (start t : Session κ) : Prop where
  grows : start.pendingFunctors <+: t.pendingFunctors
  owed : .writeCompleteCallback ∈ queuedSince start t ∨ t.conn.outputBuffer.content ≠ []

theorem bufferRest_content_ne (s : Session κ) {rest : List Byte} (hrest : rest ≠ []) :
    (s.bufferRest rest).conn.outputBuffer.content ≠ [] := by
  rw [(s.bufferRest_spec rest).2.2.1]
  simp [hrest]

theorem WaitsForRoom.content_ne_of_not_direct (h : WaitsForRoom s)
    (hopen : s.conn.state ≠ .kDisconnected) (hdirect : s.mayWriteDirectly = false) :
    s.conn.outputBuffer.content ≠ [] := by
  intro hempty
  have hidle : s.conn.channel.isWriting = false := by
    rw [← Bool.not_eq_true, h hopen]
    exact fun hne => hne hempty
  rw [(s.mayWriteDirectly_iff).mpr ⟨hidle, hempty⟩] at hdirect
  cases hdirect

theorem sendInLoop_owes (h : Attentive s) {data : List Byte} {answer : Except Errno Nat}
    (hcounts : SendCounts s data answer) :
    .writeCompleteCallback ∈ queuedSince s (s.sendInLoop data answer) ∨
      (s.sendInLoop data answer).conn.outputBuffer.content ≠ [] := by
  have hcase := sendInLoop_case h.isOpen data answer
  generalize s.sendInLoop data answer = after at hcase ⊢
  cases hcase with
  | wroteAll _ _ =>
      left
      simp [queuedSince, h.writeComplete]
  | wrotePart _ hpart =>
      right
      apply bufferRest_content_ne
      rw [Ne, List.drop_eq_nil_iff]
      omega
  | @failed errno hdirect hnone =>
      rcases hnone with hfatal | hdata
      · exact absurd ⟨hdirect, errno, rfl, hfatal⟩ hcounts.1
      · exact absurd rfl (hcounts.2 hdata hdirect errno)
  | failedBuffered _ _ hdata => exact .inr (bufferRest_content_ne _ hdata)
  | nothing hdirect _ => exact .inr (h.waits.content_ne_of_not_direct h.isOpen hdirect)
  | buffered _ hdata => exact .inr (bufferRest_content_ne _ hdata)

/-- The step that drains the buffer is a `handleWrite`, and it queues the callback. -/
theorem drain_completes (h : Attentive s) (step : OutputStep)
    (hwaiting : s.conn.outputBuffer.content ≠ [])
    (hdrained : (step.apply s).conn.outputBuffer.content = []) :
    .writeCompleteCallback ∈ queuedSince s (step.apply s) := by
  cases step with
  | sendInLoop data answer =>
      have hdirect : s.mayWriteDirectly = false := by
        rw [← Bool.not_eq_true]
        exact fun hdirect => hwaiting ((s.mayWriteDirectly_iff).mp hdirect).2
      have hcounts : SendCounts s data answer := by
        refine ⟨fun hfault => ?_, fun _ htrue => ?_⟩
        · exact absurd hfault.1 (by rw [hdirect]; decide)
        · exact absurd htrue (by rw [hdirect]; decide)
      exact (sendInLoop_owes h hcounts).resolve_right fun hne => hne hdrained
  | handleWrite answer =>
      simp only [OutputStep.apply] at hdrained ⊢
      rcases s.handleWrite_cases answer with
        ⟨-, heq⟩ | ⟨-, ⟨errno, heq⟩ | heq | ⟨n, ⟨-, heq⟩ | ⟨hleft, heq⟩⟩⟩ <;> rw [heq] at hdrained
      · exact absurd hdrained hwaiting
      · exact absurd hdrained hwaiting
      · exact absurd hdrained hwaiting
      · have hpending := (s.wroteOut n).finishWrite_pending h.writeComplete
        have hsame : (s.wroteOut n).pendingFunctors = s.pendingFunctors := rfl
        rw [heq, queuedSince, hpending, hsame, List.drop_left]
        exact List.mem_singleton_self _
      · exact absurd hdrained hleft

theorem Owed.apply {start : Session κ} (h : Owed start s) (hs : Attentive s) (step : OutputStep) :
    Owed start (step.apply s) := by
  obtain ⟨events, hnotifies⟩ := (hs.apply_notifies step).2
  obtain ⟨past, hpast⟩ := h.grows
  have hsince : queuedSince start s = past := by rw [queuedSince, ← hpast, List.drop_left]
  have hsplit : queuedSince start (step.apply s) = past ++ queuedSince s (step.apply s) := by
    rw [hnotifies.queuedSince_eq, queuedSince, hnotifies.pending_eq, ← hpast]
    simp
  refine ⟨?_, ?_⟩
  · rw [hnotifies.pending_eq, List.append_assoc]
    exact h.grows.trans (List.prefix_append _ _)
  · rw [hsplit, List.mem_append, ← hsince]
    rcases h.owed with hqueued | hwaiting
    · exact .inl (.inl hqueued)
    · by_cases hdrained : (step.apply s).conn.outputBuffer.content = []
      · exact .inl (.inr (drain_completes hs step hwaiting hdrained))
      · exact .inr hdrained

/-- **The notifications are exact.** Every step queues the write-complete callback once when a
successful `::write` left nothing unsent, the high-water callback with the new length when the buffer
came up to the mark, and nothing else. So once the buffer is empty after a send that counts, a
write-complete callback was queued at the send or later, and between two high-water callbacks the
buffer was below the mark. -/
theorem notifications_exact (h : outputSteps.Reachable s) :
    (∀ step : OutputStep, ∃ events, Notifies s (step.apply s) events) ∧
    (∀ data answer, SendCounts s data answer → ∀ steps t,
      outputSteps.Run (s.sendInLoop data answer) steps t → t.conn.outputBuffer.content = [] →
        .writeCompleteCallback ∈ queuedSince s t) ∧
    (∀ first later : OutputStep, ∀ steps t, FiresHighWater s (first.apply s) →
      outputSteps.Run (first.apply s) steps t → FiresHighWater t (later.apply t) →
        t.conn.outputBuffer.readableBytes < s.conn.highWaterMark) := by
  have hs := attentive_of_reachable h
  refine ⟨fun step => (hs.apply_notifies step).2, ?_, ?_⟩
  · intro data answer hcounts steps t hrun hempty
    obtain ⟨events, hnotifies⟩ := (hs.apply_notifies (.sendInLoop data answer)).2
    have hsent : Attentive (s.sendInLoop data answer) := hs.apply (.sendInLoop data answer)
    have howed : Owed s (s.sendInLoop data answer) := by
      refine ⟨?_, sendInLoop_owes hs hcounts⟩
      have hpending := hnotifies.pending_eq
      rw [List.append_assoc] at hpending
      exact ⟨_, hpending.symm⟩
    have hfinal : Attentive t ∧ Owed s t := by
      refine hrun.invariant (I := fun t => Attentive t ∧ Owed s t) ⟨hsent, howed⟩ ?_
      intro t step u ht _ hstep
      obtain rfl : step.apply t = u := Option.some.inj hstep
      exact ⟨ht.1.apply step, ht.2.apply ht.1 step⟩
    exact hfinal.2.owed.resolve_right fun hne => hne hempty
  · intro first later steps t _ hrun hfires
    obtain ⟨ht, hmark⟩ := (hs.apply first).run_mark hrun
    have hbelow := ((firesHighWater_iff ht later).mp hfires).1
    rwa [hmark, (hs.apply_notifies first).1.mark_eq] at hbelow

theorem reachable_sample : outputSteps.Reachable Running.sample.session :=
  ⟨_, [], ⟨fun _ => [], _, ⟨_, [], Running.established_sample, .nil _⟩, rfl, by decide, rfl, rfl⟩,
    .nil _⟩

/-- A partial write, an append that crosses the mark, and the write that drains it all. -/
theorem notifications_exact_drain :
    ∃ t : Session Unit, t.pendingFunctors = [.highWaterMarkCallback 65, .writeCompleteCallback] ∧
      .writeCompleteCallback ∈ queuedSince Running.sample.session t := by
  have hexact := notifications_exact reachable_sample
  have hrun : outputSteps.Run (Running.sample.session.sendInLoop [1, 2, 3] (.ok 1))
      [.sendInLoop (List.replicate 63 0) (.ok 0), .handleWrite (.ok 65)] _ :=
    System.run_of_exec rfl
  have hcounts : SendCounts Running.sample.session [1, 2, 3] (.ok 1) :=
    ⟨not_sendFaults_ok _ _, fun hempty => absurd hempty (by decide)⟩
  exact ⟨_, by decide, hexact.2.1 [1, 2, 3] (.ok 1) hcounts _ _ hrun (by decide)⟩

/-- An empty send whose `::write` fails with `EAGAIN`: no fault, nothing unsent, and no callback. -/
theorem empty_send_unnotified :
    outputSteps.Reachable Running.sample.session ∧
    ¬Running.sample.session.SendFaults (.error EAGAIN) ∧
    (Running.sample.session.sendInLoop [] (.error EAGAIN)).conn.outputBuffer.content = [] ∧
    queuedSince Running.sample.session (Running.sample.session.sendInLoop [] (.error EAGAIN)) = [] := by
  refine ⟨reachable_sample, ?_, by decide, by decide⟩
  rintro ⟨-, errno, hanswer, hfatal⟩
  obtain rfl : EAGAIN = errno := Except.error.inj hanswer
  revert hfatal
  decide

end Session

end MuduoCore
