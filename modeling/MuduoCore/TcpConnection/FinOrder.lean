import Mathlib.Data.List.Perm.Basic
import Mathlib.Data.List.Range
import MuduoCore.TcpConnection.Output
import MuduoCore.TcpConnection.Threads
import MuduoCore.TcpConnection.Updates

/-!
# The order of sends and the half close

Functors are executed in the order of their pushes, so a `shutdownInLoop` in the queue comes after the
sends that had returned. Two ways to `shutdownWrite` do not pass through the queue: `shutdown` on the
thread of the loop, and `handleWrite` when the output buffer runs empty.
-/

namespace MuduoCore

/-- The payload that the functor is still to send. -/
def SharedFunctor.send? : SharedFunctor → Option (Nat × List Byte)
  | sendInLoop ticket data => some (ticket, data)
  | _ => none

/-- A send with bytes that was one of the first `owed` calls. -/
def SharedFunctor.owes (owed : Nat) : SharedFunctor → Bool
  | sendInLoop ticket data => ticket < owed && !data.isEmpty
  | _ => false

/-- Whether the functor belongs to the close path. -/
def SharedFunctor.closes : SharedFunctor → Bool
  | connectDestroyed | removeConnectionInLoop => true
  | _ => false

def sends (functors : List SharedFunctor) : List (Nat × List Byte) :=
  functors.filterMap SharedFunctor.send?

theorem sends_append (l r : List SharedFunctor) : sends (l ++ r) = sends l ++ sends r :=
  List.filterMap_append

theorem sends_eq_nil {functors : List SharedFunctor} (h : ∀ functor ∈ functors, functor.send? = none) :
    sends functors = [] :=
  List.filterMap_eq_nil_iff.mpr h

theorem SharedFunctor.owes_of_send? {functor : SharedFunctor} (h : functor.send? = none) (owed : Nat) :
    functor.owes owed = false := by
  cases functor with
  | sendInLoop ticket data => cases h
  | _ => rfl

/-! ### The calls and the queue -/

/-- Every call that has returned was executed or waits, once, and no send waits behind a
`shutdownInLoop` that has to follow it. -/
structure Ticketed (waiting : List SharedFunctor) (executed : List (Nat × List Byte))
    (returned : List (List Byte)) (owed : Nat) : Prop where
  tickets : ((executed ++ sends waiting).map Prod.fst).Perm (List.range returned.length)
  payloads : ∀ call ∈ executed ++ sends waiting, returned[call.1]? = some call.2
  fifo : FollowedBy .shutdownInLoop (fun functor => functor.owes owed = false) waiting
  bounded : owed ≤ returned.length
  noClose : ∀ functor ∈ waiting, functor.closes = false

namespace Ticketed

variable {waiting rest : List SharedFunctor} {executed : List (Nat × List Byte)}
  {returned : List (List Byte)} {owed : Nat} {functor : SharedFunctor} {data : List Byte}

theorem append (h : Ticketed waiting executed returned owed) {functors : List SharedFunctor}
    (hnew : ∀ functor ∈ functors, functor.send? = none ∧ functor.closes = false) :
    Ticketed (waiting ++ functors) executed returned owed := by
  have hsends : sends (waiting ++ functors) = sends waiting := by
    rw [sends_append, sends_eq_nil fun functor hmem => (hnew functor hmem).1, List.append_nil]
  refine ⟨?_, ?_, h.fifo.append ?_, h.bounded, ?_⟩
  · rw [hsends]
    exact h.tickets
  · rw [hsends]
    exact h.payloads
  · exact fun functor hmem => SharedFunctor.owes_of_send? (hnew functor hmem).1 owed
  · intro functor hmem
    obtain hold | hlast := List.mem_append.mp hmem
    · exact h.noClose functor hold
    · exact (hnew functor hlast).2

/-- The bookkeeping of a new call, wherever it is put. -/
theorem newCall (h : Ticketed waiting executed returned owed) {calls : List (Nat × List Byte)}
    (hcalls : calls.Perm (executed ++ sends waiting ++ [(returned.length, data)])) :
    (calls.map Prod.fst).Perm (List.range (returned ++ [data]).length) ∧
      ∀ call ∈ calls, (returned ++ [data])[call.1]? = some call.2 := by
  constructor
  · have hmap := hcalls.map Prod.fst
    rw [List.map_append] at hmap
    rw [List.length_append, List.length_singleton, List.range_succ]
    exact hmap.trans (h.tickets.append_right _)
  · intro call hmem
    obtain hold | hnew := List.mem_append.mp (hcalls.mem_iff.mp hmem)
    · have hpayload := h.payloads call hold
      rw [List.getElem?_append_left (List.getElem?_eq_some_iff.mp hpayload).1]
      exact hpayload
    · rw [List.mem_singleton.mp hnew]
      simp

/-- A send that is pushed goes behind all others, and no `shutdown` has to follow it yet. -/
theorem pushSend (h : Ticketed waiting executed returned owed) (data : List Byte) :
    Ticketed (waiting ++ [.sendInLoop returned.length data]) executed (returned ++ [data]) owed := by
  have hcalls : (executed ++ sends (waiting ++ [.sendInLoop returned.length data])).Perm
      (executed ++ sends waiting ++ [(returned.length, data)]) := by
    rw [sends_append, ← List.append_assoc]
    exact .refl _
  obtain ⟨htickets, hpayloads⟩ := h.newCall hcalls
  refine ⟨htickets, hpayloads, h.fifo.append ?_, ?_, ?_⟩
  · intro functor hmem
    have hbounded := h.bounded
    rw [List.mem_singleton.mp hmem, SharedFunctor.owes, decide_eq_false (by omega), Bool.false_and]
  · rw [List.length_append]
    exact h.bounded.trans (Nat.le_add_right _ _)
  · intro functor hmem
    obtain hold | hnew := List.mem_append.mp hmem
    · exact h.noClose functor hold
    · rw [List.mem_singleton.mp hnew]
      rfl

/-- A send on the thread of the loop is executed at once. -/
theorem directSend (h : Ticketed waiting executed returned owed) (data : List Byte) :
    Ticketed waiting (executed ++ [(returned.length, data)]) (returned ++ [data]) owed := by
  have hcalls : (executed ++ [(returned.length, data)] ++ sends waiting).Perm
      (executed ++ sends waiting ++ [(returned.length, data)]) := by
    rw [List.append_assoc, List.append_assoc]
    exact List.perm_append_comm.append_left executed
  obtain ⟨htickets, hpayloads⟩ := h.newCall hcalls
  refine ⟨htickets, hpayloads, h.fifo, ?_, h.noClose⟩
  rw [List.length_append]
  exact h.bounded.trans (Nat.le_add_right _ _)

/-- An accepted `shutdown` has to follow all calls that have returned. -/
theorem shutdown (h : Ticketed waiting executed returned owed) (hnone : .shutdownInLoop ∉ waiting) :
    Ticketed waiting executed returned returned.length :=
  ⟨h.tickets, h.payloads, .of_notMem hnone, le_rfl, h.noClose⟩

theorem executeSend {ticket : Nat}
    (h : Ticketed (.sendInLoop ticket data :: rest) executed returned owed) :
    Ticketed rest (executed ++ [(ticket, data)]) returned owed := by
  have hsends : executed ++ sends (.sendInLoop ticket data :: rest)
      = executed ++ [(ticket, data)] ++ sends rest := by
    rw [List.append_assoc]
    rfl
  refine ⟨?_, ?_, (List.pairwise_cons.mp h.fifo).2, h.bounded,
    fun functor hmem => h.noClose functor (List.mem_cons_of_mem _ hmem)⟩
  · rw [← hsends]
    exact h.tickets
  · rw [← hsends]
    exact h.payloads

theorem pop (h : Ticketed (functor :: rest) executed returned owed) (hsend : functor.send? = none) :
    Ticketed rest executed returned owed := by
  have hsends : sends (functor :: rest) = sends rest := by
    rw [sends, List.filterMap_cons, hsend]
    rfl
  refine ⟨?_, ?_, (List.pairwise_cons.mp h.fifo).2, h.bounded,
    fun functor hmem => h.noClose functor (List.mem_cons_of_mem _ hmem)⟩
  · rw [← hsends]
    exact h.tickets
  · rw [← hsends]
    exact h.payloads

theorem nodup (h : Ticketed waiting executed returned owed) : (executed.map Prod.fst).Nodup := by
  have hall : ((executed ++ sends waiting).map Prod.fst).Nodup :=
    h.tickets.nodup_iff.mpr List.nodup_range
  rw [List.map_append] at hall
  exact (List.nodup_append.mp hall).1

/-- A call whose functor waits has not been executed. -/
theorem not_executed_of_waits (h : Ticketed waiting executed returned owed) {ticket : Nat}
    (hwaits : .sendInLoop ticket data ∈ waiting) : (ticket, data) ∉ executed := by
  have hall : ((executed ++ sends waiting).map Prod.fst).Nodup :=
    h.tickets.nodup_iff.mpr List.nodup_range
  rw [List.map_append, List.nodup_append] at hall
  intro hmem
  have hsend : (ticket, data) ∈ sends waiting := List.mem_filterMap.mpr ⟨_, hwaits, rfl⟩
  exact hall.2.2 _ (List.mem_map_of_mem hmem) _ (List.mem_map_of_mem hsend) rfl

/-- A call that `shutdown` has to follow was executed, or its functor waits. -/
theorem executed_of_owed (h : Ticketed waiting executed returned owed) {ticket : Nat}
    (howed : ticket < owed) (hdata : returned[ticket]? = some data) (hbytes : data ≠ [])
    (hwaits : ∀ functor ∈ waiting, functor.owes owed = false) : (ticket, data) ∈ executed := by
  have hticket : ticket ∈ (executed ++ sends waiting).map Prod.fst := by
    rw [h.tickets.mem_iff, List.mem_range]
    exact howed.trans_le h.bounded
  obtain ⟨⟨t, payload⟩, hmem, rfl⟩ := List.mem_map.mp hticket
  obtain rfl : payload = data := by
    have hpayload := h.payloads _ hmem
    rw [hdata] at hpayload
    exact (Option.some.inj hpayload).symm
  apply (List.mem_append.mp hmem).resolve_right
  intro hsend
  obtain ⟨functor, hfunctor, hsome⟩ := List.mem_filterMap.mp hsend
  have hnone := hwaits functor hfunctor
  cases functor with
  | sendInLoop u bytes =>
      cases hsome
      simp [SharedFunctor.owes, howed, hbytes] at hnone
  | _ => cases hsome

end Ticketed

/-! ### The bytes -/

section Streams

variable {κ : Type*} {s s' : Session κ} {executed : List (Nat × List Byte)}

def payloadBytes (calls : List (Nat × List Byte)) : List Byte := calls.flatMap Prod.snd

/-- What `::write` has accepted, followed by the output buffer, are the payloads of the executed
calls. -/
structure Streams (s : Session κ) (executed : List (Nat × List Byte)) : Prop where
  stream : written s.trace ++ s.conn.outputBuffer.content = payloadBytes executed
  writing : s.conn.channel.isWriting = true ↔ s.conn.outputBuffer.content ≠ []
  live : s.conn.state = .kConnected ∨ s.conn.state = .kDisconnecting

/-- `handleWrite` runs the output buffer empty when the kernel takes all of it. -/
theorem Session.handleWrite_empties {answer : Except Errno Nat}
    (hsome : s.conn.outputBuffer.content ≠ [])
    (hempty : (s.handleWrite answer).conn.outputBuffer.content = []) :
    ∃ n, answer = .ok n ∧ s.conn.outputBuffer.content.length ≤ n := by
  unfold Session.handleWrite at hempty
  split at hempty
  · cases answer with
    | error errno => exact absurd hempty hsome
    | ok accepted =>
        refine ⟨accepted, rfl, ?_⟩
        by_contra hless
        have hmin : min accepted s.conn.outputBuffer.readableBytes = accepted := by
          rw [ValidBuffer.readableBytes_eq]
          omega
        have hrest : (s.wroteOut accepted).conn.outputBuffer.content ≠ [] := by
          rw [Session.wroteOut_content, Ne, List.drop_eq_nil_iff]
          exact hless
        dsimp only at hempty
        rw [hmin] at hempty
        split at hempty
        · split at hempty
          · rename_i hzero
            rw [ValidBuffer.readableBytes_eq] at hzero
            exact hrest (List.eq_nil_of_length_eq_zero hzero)
          · exact hrest hempty
        · exact hsome hempty
  · exact absurd hempty hsome

theorem Session.handleWrite_of_le {n : Nat} (hwriting : s.conn.channel.isWriting = true)
    (hsome : s.conn.outputBuffer.content ≠ []) (hle : s.conn.outputBuffer.content.length ≤ n) :
    (s.handleWrite (.ok n)).conn.outputBuffer.content = [] := by
  have hpos := List.length_pos_iff.mpr hsome
  have hreadable := ValidBuffer.readableBytes_eq s.conn.outputBuffer
  have hmin : min n s.conn.outputBuffer.readableBytes = s.conn.outputBuffer.readableBytes := by omega
  have hrest : (s.wroteOut s.conn.outputBuffer.readableBytes).conn.outputBuffer.content = [] := by
    rw [Session.wroteOut_content, List.drop_eq_nil_iff, hreadable]
  have hfinish : s.handleWrite (.ok n)
      = (s.wroteOut s.conn.outputBuffer.readableBytes).finishWrite := by
    simp only [Session.handleWrite, hwriting, if_true, hmin]
    rw [if_pos (by omega), if_pos]
    · rfl
    · rw [ValidBuffer.readableBytes_eq]
      exact congrArg List.length hrest
  rw [hfinish, (Session.finishWrite_spec _).2.1]
  exact hrest

namespace Streams

theorem of_silent (h : Streams s executed) {events : List Event} (hevents : Silent events)
    (htrace : s'.trace = s.trace ++ events) (hstate : s'.conn.state = s.conn.state)
    (hbuffer : s'.conn.outputBuffer = s.conn.outputBuffer)
    (hwriting : s'.conn.channel.isWriting = s.conn.channel.isWriting) : Streams s' executed := by
  refine ⟨?_, ?_, ?_⟩
  · rw [htrace, written_append, hevents.written_eq, List.append_nil, hbuffer]
    exact h.stream
  · rw [hbuffer, hwriting]
    exact h.writing
  · rw [hstate]
    exact h.live

theorem sendInLoop (h : Streams s executed) (ticket : Nat) (data : List Byte)
    {answer : Except Errno Nat} (hfault : ¬s.SendFaults answer) :
    Streams (s.sendInLoop data answer) (executed ++ [(ticket, data)]) := by
  have hstate : s.conn.state ≠ .kDisconnected := by
    obtain hstate | hstate := h.live <;> rw [hstate] <;> decide
  obtain ⟨wrote, hout⟩ := Session.sendInLoop_output s data answer hstate h.writing hfault
  refine ⟨?_, hout.writing, ?_⟩
  · rw [hout.trace_eq, written_append]
    calc written s.trace ++ written wrote ++ (s.sendInLoop data answer).conn.outputBuffer.content
        = written s.trace ++ s.conn.outputBuffer.content ++ data := by
          rw [List.append_assoc, hout.bytes, ← List.append_assoc]
      _ = payloadBytes (executed ++ [(ticket, data)]) := by
          rw [h.stream]
          simp [payloadBytes]
  · rw [hout.state_eq]
    exact h.live

theorem shutdownInLoop (h : Streams s executed) : Streams s.shutdownInLoop executed := by
  have hconn := s.shutdownInLoop_conn
  have hwritten : written s.shutdownInLoop.trace = written s.trace := by
    rw [s.shutdownInLoop_trace, written_append]
    split <;> simp [written, Event.writtenBytes]
  refine ⟨?_, ?_, ?_⟩
  · rw [hwritten, hconn]
    exact h.stream
  · rw [hconn]
    exact h.writing
  · rw [hconn]
    exact h.live

theorem handleWrite (h : Streams s executed) (answer : Except Errno Nat) :
    Streams (s.handleWrite answer) executed := by
  obtain ⟨wrote, hdrained⟩ := Session.handleWrite_drained s answer h.writing
  refine ⟨?_, hdrained.writing, ?_⟩
  · have hlast : ∀ cond : Prop, ∀ _ : Decidable cond,
        written (if cond then [Event.shutdownWrite] else []) = [] := by
      intro cond _
      split <;> rfl
    rw [hdrained.trace_eq, written_append, written_append, hlast, List.append_nil,
      List.append_assoc, hdrained.bytes]
    exact h.stream
  · rw [hdrained.state_eq]
    exact h.live

theorem setState (h : Streams s executed) : Streams (s.setState .kDisconnecting) executed :=
  ⟨h.stream, h.writing, .inr rfl⟩

end Streams

end Streams

namespace SharedConnection

variable {θ κ : Type*}

/-- No close, and no fatal error of the socket. -/
def Lasts (_ : SharedConnection θ κ) : SharedAction θ → Prop
  | .handleRead answer => answer ≠ .ok []
  | .handleClose => False
  | .runInLoop _ answer | .runFunctor answer | .handleWrite answer =>
      ∀ errno, answer = .error errno → ¬IsFatal errno
  | _ => True

/-- The functor of a call of `send` waits that returned before `shutdown` was called. -/
def OwedWaits (w : SharedConnection θ κ) : Prop :=
  ∃ functor ∈ w.io.waiting, functor.owes w.owed = true

/-- Where the loop comes to `shutdownWrite` without a functor, in its own call of `shutdown` or at the
end of the output buffer, no functor of an earlier send waits. -/
def FinWaits (w : SharedConnection θ κ) : SharedAction θ → Prop
  | .runInLoop none _ =>
      w.calls none = .setState → w.session.conn.channel.isWriting = false → ¬w.OwedWaits
  | .handleWrite (.ok n) =>
      w.session.conn.state = .kDisconnecting → w.session.conn.outputBuffer.content ≠ [] →
        w.session.conn.outputBuffer.content.length ≤ n → ¬w.OwedWaits
  | _ => True

/-- The bytes that `::write` has accepted in `trace` are those of distinct calls of `send`, among them
every call with bytes that returned before `shutdown` was called. -/
def FollowsSends (w : SharedConnection θ κ) (trace : List Event) : Prop :=
  ∃ calls, calls <+: w.executed ∧ (calls.map Prod.fst).Nodup ∧ written trace = payloadBytes calls ∧
    ∀ ticket data, ticket < w.owed → w.returned[ticket]? = some data → data ≠ [] →
      (ticket, data) ∈ calls

/-- Every half close follows the earlier sends. -/
def FinFollows (w : SharedConnection θ κ) : Prop :=
  ∀ before after, w.session.trace = before ++ .shutdownWrite :: after → w.FollowsSends before

/-- The queues, and the calls of `shutdown` on their way there. -/
structure Lined (w : SharedConnection θ κ) : Prop where
  ticketed : Ticketed w.io.waiting w.executed w.returned w.owed
  connected : w.session.conn.state = .kConnected →
    .shutdownInLoop ∉ w.io.waiting ∧ ∀ thread, w.calls thread ≠ .setState
  closing : w.closing = false
  main : w.main.waiting = []

structure InOrder (w : SharedConnection θ κ) : Prop where
  streams : Streams w.session w.executed
  lined : w.Lined

/-- What a step adds to the trace: no half close, or one at its end, with nothing left to send that it
has to follow. -/
def FinAtEnd (w w' : SharedConnection θ κ) : Prop :=
  ∃ wrote, .shutdownWrite ∉ wrote ∧ (w'.session.trace = w.session.trace ++ wrote ∨
    w'.session.trace = w.session.trace ++ wrote ++ [.shutdownWrite] ∧
      w'.session.conn.state ≠ .kConnected ∧ w'.session.conn.outputBuffer.content = [] ∧
      ¬w'.OwedWaits)

/-- The records grow, and once `shutdown` has been accepted it is settled what it has to follow. -/
structure Grows (w w' : SharedConnection θ κ) : Prop where
  connected : w'.session.conn.state = .kConnected → w.session.conn.state = .kConnected
  executed : w.executed <+: w'.executed
  returned : w.returned <+: w'.returned
  owed : w.session.conn.state ≠ .kConnected → w'.owed = w.owed

/-- An ordered run: every half close in its trace follows the sends, and none came while the state was
`kConnected`. -/
structure Settled (w : SharedConnection θ κ) : Prop where
  inOrder : w.InOrder
  fresh : w.session.conn.state = .kConnected → .shutdownWrite ∉ w.session.trace
  follows : w.FinFollows

variable {v w w' : SharedConnection θ κ} {s : Session κ}

theorem FinAtEnd.of_trace (htrace : w'.session.trace = w.session.trace) : FinAtEnd w w' :=
  ⟨[], List.not_mem_nil, .inl (htrace.trans (List.append_nil _).symm)⟩

/-! ### Member functions on the thread of the loop -/

theorem tasks_idle (tasks : List Task) :
    ∀ functor ∈ tasks.map SharedFunctor.task, functor.send? = none ∧ functor.closes = false := by
  intro functor hmem
  obtain ⟨task, -, rfl⟩ := List.mem_map.mp hmem
  exact ⟨rfl, rfl⟩

theorem Lined.collect (h : w.Lined) (hstate : s.conn.state = w.session.conn.state) :
    (w.collect s).Lined := by
  refine ⟨?_, ?_, h.closing, h.main⟩
  · simp only [SharedConnection.collect, BatchQueue.waiting_push]
    exact h.ticketed.append (tasks_idle _)
  · intro hconnected
    obtain ⟨hnone, hcalls⟩ := h.connected (hstate.symm.trans hconnected)
    refine ⟨?_, hcalls⟩
    simp only [SharedConnection.collect, BatchQueue.waiting_push]
    simp [hnone]

theorem InOrder.collect (hlined : w.Lined) (hstreams : Streams s w.executed)
    (hstate : s.conn.state = w.session.conn.state) : (w.collect s).InOrder :=
  ⟨⟨hstreams.stream, hstreams.writing, hstreams.live⟩, hlined.collect hstate⟩

theorem not_owedWaits_collect (h : ¬w.OwedWaits) : ¬(w.collect s).OwedWaits := by
  rintro ⟨functor, hmem, howes⟩
  simp only [SharedConnection.collect, BatchQueue.waiting_push] at hmem
  obtain hold | hnew := List.mem_append.mp hmem
  · exact h ⟨functor, hold, howes⟩
  · rw [SharedFunctor.owes_of_send? (tasks_idle _ functor hnew).1] at howes
    cases howes

/-- `shutdownInLoop`, called by a functor or directly. -/
theorem InOrder.shutdownInLoop (h : w.InOrder) (hstate : w.session.conn.state ≠ .kConnected)
    (hwaits : w.session.conn.channel.isWriting = false → ¬w.OwedWaits) :
    (w.collect w.session.shutdownInLoop).InOrder ∧
      FinAtEnd w (w.collect w.session.shutdownInLoop) := by
  have hconn := w.session.shutdownInLoop_conn
  refine ⟨.collect h.lined h.streams.shutdownInLoop (by rw [hconn]), [], List.not_mem_nil, ?_⟩
  have htrace := w.session.shutdownInLoop_trace
  cases hwriting : w.session.conn.channel.isWriting with
  | true =>
      rw [hwriting, if_pos rfl] at htrace
      exact .inl htrace
  | false =>
      rw [hwriting, if_neg (by decide)] at htrace
      have hempty : w.session.conn.outputBuffer.content = [] := by
        by_contra hne
        rw [h.streams.writing.mpr hne] at hwriting
        cases hwriting
      refine .inr ⟨?_, ?_, ?_, not_owedWaits_collect (hwaits hwriting)⟩
      · rw [List.append_nil]
        exact htrace
      · change w.session.shutdownInLoop.conn.state ≠ .kConnected
        rw [hconn]
        exact hstate
      · change w.session.shutdownInLoop.conn.outputBuffer.content = []
        rw [hconn]
        exact hempty

theorem InOrder.sendInLoop (hstreams : Streams w.session w.executed) {ticket : Nat} {data : List Byte}
    {answer : Except Errno Nat} (hfatal : ∀ errno, answer = .error errno → ¬IsFatal errno)
    (hlined : ({ w with executed := w.executed ++ [(ticket, data)] } : SharedConnection θ κ).Lined)
    (file : Nat → List Byte) :
    (w.call file answer (.sendInLoop ticket data)).InOrder ∧
      FinAtEnd w (w.call file answer (.sendInLoop ticket data)) := by
  have hfault : ¬w.session.SendFaults answer := by
    rintro ⟨-, errno, hanswer, hfatal'⟩
    exact hfatal errno hanswer hfatal'
  have hstate : w.session.conn.state ≠ .kDisconnected := by
    obtain hstate | hstate := hstreams.live <;> rw [hstate] <;> decide
  obtain ⟨wrote, hout⟩ :=
    Session.sendInLoop_output w.session data answer hstate hstreams.writing hfault
  refine ⟨.collect hlined (hstreams.sendInLoop ticket data hfault) hout.state_eq, wrote, ?_,
    .inl hout.trace_eq⟩
  intro hmem
  cases hout.writes _ hmem

/-- A member function that leaves the output alone. -/
theorem InOrder.silent (h : w.InOrder) {events : List Event} (hsilent : Silent events)
    (htrace : s.trace = w.session.trace ++ events) (hstate : s.conn.state = w.session.conn.state)
    (hbuffer : s.conn.outputBuffer = w.session.conn.outputBuffer)
    (hwriting : s.conn.channel.isWriting = w.session.conn.channel.isWriting) :
    (w.collect s).InOrder ∧ FinAtEnd w (w.collect s) := by
  have hstreams := h.streams.of_silent hsilent htrace hstate hbuffer hwriting
  refine ⟨.collect h.lined hstreams hstate, events, ?_, .inl htrace⟩
  exact fun hmem => (hsilent _ hmem).1 rfl

theorem InOrder.runTask (h : w.InOrder) (file : Nat → List Byte) (answer : Except Errno Nat)
    (task : Task) :
    (w.call file answer (.task task)).InOrder ∧ FinAtEnd w (w.call file answer (.task task)) := by
  cases task with
  | sendFileInLoop fileDescriptor offset count =>
      obtain ⟨events, hsilent, htrace⟩ :=
        Session.sendFileInLoop_silent file w.session fileDescriptor offset count answer
      exact h.silent hsilent htrace (by simp [Running.runTask]) (by simp [Running.runTask])
        (by simp [Running.runTask])
  | writeCompleteCallback => exact h.silent silent_nil (List.append_nil _).symm rfl rfl rfl
  | highWaterMarkCallback _ => exact h.silent silent_nil (List.append_nil _).symm rfl rfl rfl

/-- No handler of a connection that stays up comes to `closeCallback_`. -/
theorem InOrder.handled (h : (w.collect s).InOrder ∧ FinAtEnd w (w.collect s))
    (hstays : StaysUp w.session s) : (w.handled s).InOrder ∧ FinAtEnd w (w.handled s) := by
  obtain ⟨more, htrace, -, hclose⟩ := hstays.trace_eq
  have hopen : decide (.closeCallback ∈ s.trace.drop w.session.trace.length) = false := by
    rw [htrace, List.drop_left]
    exact decide_eq_false hclose
  exact ⟨⟨h.1.streams, h.1.lined.ticketed, h.1.lined.connected, hopen, h.1.lined.main⟩, h.2⟩

theorem InOrder.handleWrite (h : w.InOrder) {answer : Except Errno Nat}
    (hwaits : ∀ n, answer = .ok n → w.session.conn.state = .kDisconnecting →
      w.session.conn.outputBuffer.content ≠ [] → w.session.conn.outputBuffer.content.length ≤ n →
      ¬w.OwedWaits) :
    (w.handled (w.session.handleWrite answer)).InOrder ∧
      FinAtEnd w (w.handled (w.session.handleWrite answer)) := by
  obtain ⟨wrote, hdrained⟩ := Session.handleWrite_drained w.session answer h.streams.writing
  refine InOrder.handled ⟨.collect h.lined (h.streams.handleWrite answer) hdrained.state_eq, wrote,
    ?_, ?_⟩ (Updates.handleWrite _ answer).staysUp
  · intro hmem
    cases hdrained.writes _ hmem
  · have htrace := hdrained.trace_eq
    split at htrace
    · rename_i hdone
      obtain ⟨n, rfl, hlength⟩ := Session.handleWrite_empties hdone.1 hdone.2.1
      refine .inr ⟨htrace, ?_, hdone.2.1, not_owedWaits_collect ?_⟩
      · change (w.session.handleWrite _).conn.state ≠ .kConnected
        rw [hdrained.state_eq, hdone.2.2]
        decide
      · exact hwaits n rfl hdone.2.2 hdone.1 hlength
    · rw [List.append_nil] at htrace
      exact .inl htrace

/-! ### The steps -/

/-- A step outside the connection that leaves what waits as it is. -/
theorem InOrder.of_same (h : w.InOrder) (hsession : w'.session = w.session)
    (hwaiting : w'.io.waiting = w.io.waiting) (hmain : w'.main.waiting = w.main.waiting)
    (hclosing : w'.closing = w.closing) (hreturned : w'.returned = w.returned)
    (howed : w'.owed = w.owed) (hexecuted : w'.executed = w.executed)
    (hcalls : ∀ thread, w'.calls thread = .setState → w.calls thread = .setState) :
    w'.InOrder ∧ FinAtEnd w w' := by
  refine ⟨⟨?_, ?_, ?_, hclosing.trans h.lined.closing, hmain.trans h.lined.main⟩,
    .of_trace (by rw [hsession])⟩
  · rw [hsession, hexecuted]
    exact h.streams
  · rw [hwaiting, hexecuted, hreturned, howed]
    exact h.lined.ticketed
  · rw [hsession, hwaiting]
    intro hconnected
    obtain ⟨hnone, hcall⟩ := h.lined.connected hconnected
    exact ⟨hnone, fun thread hset => hcall thread (hcalls thread hset)⟩

/-- A functor that is taken out of the queue. -/
theorem Lined.next (h : w.Lined) {functor : SharedFunctor} {rest : List SharedFunctor}
    (htodo : w.io.todo = functor :: rest) (hsend : functor.send? = none) :
    ({ w with io := w.io.next } : SharedConnection θ κ).Lined := by
  have hwaiting := BatchQueue.waiting_next htodo
  have hticketed := h.ticketed
  rw [hwaiting] at hticketed
  refine ⟨hticketed.pop hsend, ?_, h.closing, h.main⟩
  intro hconnected
  obtain ⟨hnone, hcalls⟩ := h.connected hconnected
  rw [hwaiting] at hnone
  exact ⟨fun hmem => hnone (List.mem_cons_of_mem _ hmem), hcalls⟩

theorem InOrder.runFunctor (h : w.InOrder) {functor : SharedFunctor} {rest : List SharedFunctor}
    (htodo : w.io.todo = functor :: rest) (file : Nat → List Byte) {answer : Except Errno Nat}
    (hfatal : ∀ errno, answer = .error errno → ¬IsFatal errno) :
    (({ w with io := w.io.next } : SharedConnection θ κ).call file answer functor).InOrder ∧
      FinAtEnd w
        (({ w with io := w.io.next } : SharedConnection θ κ).call file answer functor) := by
  have hwaiting := BatchQueue.waiting_next htodo
  have hticketed := h.lined.ticketed
  rw [hwaiting] at hticketed
  have hclose := hticketed.noClose functor List.mem_cons_self
  cases functor with
  | sendInLoop ticket data =>
      refine InOrder.sendInLoop (w := { w with io := w.io.next }) h.streams hfatal
        ⟨hticketed.executeSend, ?_, h.lined.closing, h.lined.main⟩ file
      intro hconnected
      obtain ⟨hnone, hcalls⟩ := h.lined.connected hconnected
      rw [hwaiting] at hnone
      exact ⟨fun hmem => hnone (List.mem_cons_of_mem _ hmem), hcalls⟩
  | shutdownInLoop =>
      have hnext : ({ w with io := w.io.next } : SharedConnection θ κ).InOrder :=
        ⟨h.streams, h.lined.next htodo rfl⟩
      apply hnext.shutdownInLoop
      · intro hconnected
        apply (h.lined.connected hconnected).1
        rw [hwaiting]
        exact List.mem_cons_self
      · rintro - ⟨functor, hmem, howes⟩
        -- the sends that have to come first stood before it in the queue
        have hbehind := (List.pairwise_cons.mp hticketed.fifo).1 functor hmem rfl
        rw [hbehind] at howes
        cases howes
  | task task =>
      have hnext : ({ w with io := w.io.next } : SharedConnection θ κ).InOrder :=
        ⟨h.streams, h.lined.next htodo rfl⟩
      exact hnext.runTask file answer task
  | connectDestroyed => cases hclose
  | removeConnectionInLoop => cases hclose

/-- `send`, which pushes its functor or calls it. -/
theorem InOrder.callSend (h : w.InOrder) (file : Nat → List Byte) (thread : Option θ)
    {answer : Except Errno Nat} (hfatal : ∀ errno, answer = .error errno → ¬IsFatal errno)
    (data : List Byte) :
    (({ w with returned := w.returned ++ [data] } : SharedConnection θ κ).runInLoop file thread answer
        (.sendInLoop w.returned.length data)).InOrder ∧
      FinAtEnd w (({ w with returned := w.returned ++ [data] } : SharedConnection θ κ).runInLoop file
        thread answer (.sendInLoop w.returned.length data)) := by
  cases thread with
  | none =>
      exact InOrder.sendInLoop (w := { w with returned := w.returned ++ [data] }) h.streams hfatal
        ⟨h.lined.ticketed.directSend data, h.lined.connected, h.lined.closing, h.lined.main⟩ file
  | some thread =>
      refine ⟨⟨h.streams, ?_, ?_, h.lined.closing, h.lined.main⟩, .of_trace rfl⟩
      · simp only [SharedConnection.runInLoop, BatchQueue.waiting_push]
        exact h.lined.ticketed.pushSend data
      · intro hconnected
        obtain ⟨hnone, hcalls⟩ := h.lined.connected hconnected
        simp only [SharedConnection.runInLoop, BatchQueue.waiting_push]
        exact ⟨by simp [hnone], hcalls⟩

/-- `runInLoop` with a functor of `sendFile` or `shutdown`, pushed by another thread. -/
theorem InOrder.push (h : w.InOrder) {functor : SharedFunctor}
    (hnew : functor.send? = none ∧ functor.closes = false)
    (hshutdown : functor = .shutdownInLoop → w.session.conn.state ≠ .kConnected) :
    ({ w with io := w.io.push [functor] } : SharedConnection θ κ).InOrder ∧
      FinAtEnd w { w with io := w.io.push [functor] } := by
  refine ⟨⟨h.streams, ?_, ?_, h.lined.closing, h.lined.main⟩, .of_trace rfl⟩
  · rw [BatchQueue.waiting_push]
    apply h.lined.ticketed.append
    intro other hmem
    rw [List.mem_singleton.mp hmem]
    exact hnew
  · intro hconnected
    obtain ⟨hnone, hcalls⟩ := h.lined.connected hconnected
    refine ⟨?_, hcalls⟩
    rw [BatchQueue.waiting_push, List.mem_append, List.mem_singleton]
    rintro (hold | heq)
    · exact hnone hold
    · exact hshutdown heq.symm hconnected

/-! ### What grows -/

namespace Grows

theorem of_same (hstate : w'.session.conn.state = w.session.conn.state)
    (hexecuted : w'.executed = w.executed) (hreturned : w'.returned = w.returned)
    (howed : w'.owed = w.owed) : Grows w w' := by
  refine ⟨hstate.symm.trans, ?_, ?_, fun _ => howed⟩
  · rw [hexecuted]
  · rw [hreturned]

theorem trans (h : Grows w v) (h' : Grows v w') : Grows w w' := by
  refine ⟨fun hconnected => h.connected (h'.connected hconnected), h.executed.trans h'.executed,
    h.returned.trans h'.returned, fun hstate => ?_⟩
  calc w'.owed = v.owed := h'.owed fun hconnected => hstate (h.connected hconnected)
    _ = w.owed := h.owed hstate

/-- Member functions other than those that establish or end the connection. -/
theorem collect (h : Updates w.session s) : Grows w (w.collect s) := by
  refine ⟨?_, List.prefix_rfl, List.prefix_rfl, fun _ => rfl⟩
  intro hconnected
  by_contra hne
  exact h.staysUp.state_ne (by decide) hne hconnected

theorem handled (h : Updates w.session s) : Grows w (w.handled s) :=
  (Grows.collect h).trans (.of_same rfl rfl rfl rfl)

theorem call (file : Nat → List Byte) (answer : Except Errno Nat) {functor : SharedFunctor}
    (hclose : functor.closes = false) : Grows w (w.call file answer functor) := by
  cases functor with
  | sendInLoop ticket data =>
      have hsent : Grows w (w.collect (w.session.sendInLoop data answer)) :=
        collect (Updates.sendInLoop _ data answer)
      exact ⟨hsent.connected, List.prefix_append _ _, hsent.returned, hsent.owed⟩
  | shutdownInLoop => exact collect (Updates.shutdownInLoop _)
  | task task => exact collect (Updates.runTask _ file answer task)
  | connectDestroyed => cases hclose
  | removeConnectionInLoop => cases hclose

theorem runInLoop (file : Nat → List Byte) (thread : Option θ) (answer : Except Errno Nat)
    {functor : SharedFunctor} (hclose : functor.closes = false) :
    Grows w (w.runInLoop file thread answer functor) := by
  cases thread with
  | none => exact call file answer hclose
  | some thread => exact of_same rfl rfl rfl rfl

end Grows

/-! ### Half closes and earlier sends -/

theorem Initial.inOrder (h : w.Initial) : w.InOrder := by
  obtain ⟨hsilent, hempty, hidle, hstate⟩ := Running.start_of_established h.established
  have hwaiting : w.io.waiting = [] := by
    rw [h.io_eq]
    rfl
  refine ⟨⟨?_, ?_, .inl hstate⟩, ⟨⟨?_, ?_, ?_, ?_, ?_⟩, ?_, h.closing, ?_⟩⟩
  · rw [h.executed_eq]
    exact List.append_eq_nil_iff.mpr ⟨hsilent.written_eq, hempty⟩
  · rw [hidle, hempty]
    simp
  · rw [h.executed_eq, hwaiting, h.returned_eq]
    exact .refl _
  · rw [h.executed_eq, hwaiting]
    intro call hmem
    cases hmem
  · rw [hwaiting]
    exact List.Pairwise.nil
  · rw [h.owed_eq]
    exact Nat.zero_le _
  · rw [hwaiting]
    intro functor hmem
    cases hmem
  · rw [hwaiting]
    refine fun _ => ⟨List.not_mem_nil, fun thread => ?_⟩
    rw [h.calls_eq thread]
    decide
  · rw [h.main_eq]
    rfl

theorem Initial.settled (h : w.Initial) : w.Settled := by
  obtain ⟨hsilent, -⟩ := Running.start_of_established h.established
  have hnone : .shutdownWrite ∉ w.session.trace := fun hmem => (hsilent _ hmem).1 rfl
  refine ⟨h.inOrder, fun _ => hnone, ?_⟩
  intro before after htrace
  rw [htrace] at hnone
  exact absurd (List.mem_append_right _ List.mem_cons_self) hnone

/-- A half close that follows the sends keeps doing so. -/
theorem FollowsSends.mono {trace : List Event} (h : w.FollowsSends trace) (hgrows : Grows w w')
    (hstate : w.session.conn.state ≠ .kConnected) (hbounded : w.owed ≤ w.returned.length) :
    w'.FollowsSends trace := by
  obtain ⟨calls, hprefix, hdistinct, hwritten, howed⟩ := h
  refine ⟨calls, hprefix.trans hgrows.executed, hdistinct, hwritten, ?_⟩
  intro ticket data hticket hdata hbytes
  rw [hgrows.owed hstate] at hticket
  have hlength : ticket < w.returned.length := hticket.trans_le hbounded
  apply howed ticket data hticket _ hbytes
  obtain ⟨more, hmore⟩ := hgrows.returned
  rw [← hdata, ← hmore, List.getElem?_append_left hlength]

/-- A half close with nothing left to send. -/
theorem InOrder.followsSends (h : w.InOrder) {trace : List Event}
    (htrace : w.session.trace = trace ++ [.shutdownWrite])
    (hempty : w.session.conn.outputBuffer.content = []) (hidle : ¬w.OwedWaits) :
    w.FollowsSends trace := by
  refine ⟨w.executed, List.prefix_rfl, h.lined.ticketed.nodup, ?_, ?_⟩
  · calc written trace = written w.session.trace ++ w.session.conn.outputBuffer.content := by
          rw [hempty, htrace, written_append]
          simp [written, Event.writtenBytes]
      _ = payloadBytes w.executed := h.streams.stream
  · intro ticket data howed hdata hbytes
    apply h.lined.ticketed.executed_of_owed howed hdata hbytes
    intro functor hmem
    by_contra howes
    exact hidle ⟨functor, hmem, by simpa using howes⟩

/-- A half close while the functor of an earlier send waits does not follow that send. -/
theorem not_followsSends (h : w.InOrder) (hwaits : w.OwedWaits) (hexecuted : w'.executed = w.executed)
    (hreturned : w'.returned = w.returned) (howed : w'.owed = w.owed) (trace : List Event) :
    ¬w'.FollowsSends trace := by
  obtain ⟨functor, hmem, howes⟩ := hwaits
  rintro ⟨calls, hprefix, -, -, hcalls⟩
  cases functor with
  | sendInLoop ticket data =>
      simp only [SharedFunctor.owes, Bool.and_eq_true, decide_eq_true_eq, Bool.not_eq_true',
        List.isEmpty_eq_false_iff] at howes
      have hsend : (ticket, data) ∈ sends w.io.waiting := List.mem_filterMap.mpr ⟨_, hmem, rfl⟩
      have hpayload := h.lined.ticketed.payloads (ticket, data) (List.mem_append_right _ hsend)
      rw [howed, hreturned] at hcalls
      rw [hexecuted] at hprefix
      apply h.lined.ticketed.not_executed_of_waits hmem
      exact hprefix.subset (hcalls ticket data howes.1 hpayload howes.2)
  | _ => cases howes

variable [DecidableEq θ]

theorem setCall_eq_setState {thread t : Option θ} {point : CallPoint} (hpoint : point ≠ .setState)
    (h : (w.setCall thread point).calls t = .setState) : w.calls t = .setState := by
  change Function.update w.calls thread point t = .setState at h
  by_cases heq : t = thread
  · rw [heq, Function.update_self] at h
    exact absurd h hpoint
  · rwa [Function.update_of_ne heq] at h

theorem InOrder.setCall (h : w.InOrder) (thread : Option θ) {point : CallPoint}
    (hpoint : point ≠ .setState) :
    (w.setCall thread point).InOrder ∧ FinAtEnd w (w.setCall thread point) :=
  h.of_same rfl rfl rfl rfl rfl rfl rfl fun _ => setCall_eq_setState hpoint

/-- The accepted calls of `shutdown` come before the first store, and so before every functor of
one. -/
theorem InOrder.shutdown (h : w.InOrder) (thread : Option θ)
    (hstate : w.session.conn.state = .kConnected) :
    ({ w.setCall thread .shutdown with owed := w.returned.length } :
      SharedConnection θ κ).InOrder := by
  obtain ⟨hnone, hcalls⟩ := h.lined.connected hstate
  refine ⟨h.streams, h.lined.ticketed.shutdown hnone, fun _ => ⟨hnone, ?_⟩, h.lined.closing,
    h.lined.main⟩
  exact fun t hset => hcalls t (setCall_eq_setState (by decide) hset)

theorem InOrder.setState (h : w.InOrder) (thread : Option θ) :
    ({ w.setCall thread .setState with session := w.session.setState .kDisconnecting } :
      SharedConnection θ κ).InOrder := by
  refine ⟨h.streams.setState, h.lined.ticketed, ?_, h.lined.closing, h.lined.main⟩
  intro hconnected
  cases hconnected

theorem move_inOrder {file : Nat → List Byte} {action : SharedAction θ} (h : w.InOrder)
    (hlasts : w.Lasts action) (hwaits : w.FinWaits action) (hmove : w.move file action = some w') :
    w'.InOrder ∧ FinAtEnd w w' := by
  cases action with
  | send thread data =>
      obtain ⟨-, rfl⟩ := guarded_eq_some.mp hmove
      split
      · exact h.setCall thread (by simp)
      · exact ⟨h, .of_trace rfl⟩
  | sendFile thread fileDescriptor offset count =>
      obtain ⟨-, rfl⟩ := guarded_eq_some.mp hmove
      split
      · exact h.setCall thread (by simp)
      · exact ⟨h, .of_trace rfl⟩
  | shutdown thread =>
      obtain ⟨-, rfl⟩ := guarded_eq_some.mp hmove
      split
      · rename_i hstate
        exact ⟨h.shutdown thread hstate, .of_trace rfl⟩
      · exact ⟨h, .of_trace rfl⟩
  | setState thread =>
      obtain ⟨-, rfl⟩ := guarded_eq_some.mp hmove
      exact ⟨h.setState thread, .of_trace rfl⟩
  | runInLoop thread answer =>
      have hidle : (w.setCall thread .idle).InOrder := (h.setCall thread (by decide)).1
      obtain ⟨data, -, rfl⟩ | ⟨fileDescriptor, offset, count, -, rfl⟩ | ⟨hcall, rfl⟩ :=
        move_runInLoop hmove
      · exact hidle.callSend file thread hlasts data
      · cases thread with
        | none => exact hidle.runTask file answer _
        | some thread => exact hidle.push ⟨rfl, rfl⟩ (by simp)
      · cases thread with
        | none =>
            apply hidle.shutdownInLoop
            · exact fun hconnected => (h.lined.connected hconnected).2 _ hcall
            · exact fun hwriting => hwaits hcall hwriting
        | some thread =>
            apply hidle.push ⟨rfl, rfl⟩
            exact fun _ hconnected => (h.lined.connected hconnected).2 _ hcall
  | hold thread =>
      obtain ⟨-, rfl⟩ := guarded_eq_some.mp hmove
      exact h.of_same rfl rfl rfl rfl rfl rfl rfl fun _ => id
  | drop thread =>
      obtain ⟨-, rfl⟩ := guarded_eq_some.mp hmove
      exact h.of_same rfl rfl rfl rfl rfl rfl rfl fun _ => id
  | handleRead answer =>
      obtain ⟨-, rfl⟩ := guarded_eq_some.mp hmove
      obtain ⟨events, hcallbacks, htrace, -, hconn⟩ := w.session.handleRead_of_data hlasts
      have hsilent := h.silent hcallbacks.silent htrace (by rw [hconn]) (by rw [hconn]) (by rw [hconn])
      exact InOrder.handled hsilent (Updates.handleRead _ hlasts).staysUp
  | handleWrite answer =>
      obtain ⟨-, rfl⟩ := guarded_eq_some.mp hmove
      apply h.handleWrite
      rintro n rfl
      exact hwaits
  | handleClose => exact hlasts.elim
  | handleError =>
      obtain ⟨-, rfl⟩ := guarded_eq_some.mp hmove
      have hsilent := h.silent (s := w.session) silent_nil (List.append_nil _).symm rfl rfl rfl
      exact InOrder.handled hsilent (Updates.refl _).staysUp
  | closeCallback =>
      obtain ⟨⟨-, hclosing⟩, -⟩ := guarded_eq_some.mp hmove
      exact absurd (h.lined.closing.symm.trans hclosing) (by decide)
  | doPendingFunctors =>
      obtain ⟨⟨-, hrunning⟩, rfl⟩ := guarded_eq_some.mp hmove
      exact h.of_same rfl (BatchQueue.waiting_start hrunning) rfl rfl rfl rfl rfl fun _ => id
  | runFunctor answer =>
      obtain ⟨functor, rest, htodo, rfl⟩ := move_runFunctor hmove
      split
      · exact h.runFunctor htodo file hlasts
      · exact h.of_same rfl rfl rfl rfl rfl rfl rfl fun _ => id
  | release =>
      obtain ⟨⟨-, -, htodo⟩, rfl⟩ := guarded_eq_some.mp hmove
      exact h.of_same rfl (BatchQueue.waiting_finish htodo) rfl rfl rfl rfl rfl fun _ => id
  | mainDoPendingFunctors =>
      obtain ⟨hrunning, rfl⟩ := guarded_eq_some.mp hmove
      exact h.of_same rfl rfl (BatchQueue.waiting_start hrunning) rfl rfl rfl rfl fun _ => id
  | mainRunFunctor =>
      obtain ⟨functor, rest, htodo, -⟩ := move_mainRunFunctor hmove
      have hmain := h.lined.main
      rw [BatchQueue.waiting_next htodo] at hmain
      cases hmain
  | mainRelease =>
      obtain ⟨⟨-, htodo⟩, rfl⟩ := guarded_eq_some.mp hmove
      exact h.of_same rfl rfl (BatchQueue.waiting_finish htodo) rfl rfl rfl rfl fun _ => id

theorem move_grows {file : Nat → List Byte} {action : SharedAction θ} (h : w.InOrder)
    (hlasts : w.Lasts action) (hmove : w.move file action = some w') : Grows w w' := by
  cases action with
  | send thread data =>
      obtain ⟨-, rfl⟩ := guarded_eq_some.mp hmove
      split <;> exact .of_same rfl rfl rfl rfl
  | sendFile thread fileDescriptor offset count =>
      obtain ⟨-, rfl⟩ := guarded_eq_some.mp hmove
      split <;> exact .of_same rfl rfl rfl rfl
  | shutdown thread =>
      obtain ⟨-, rfl⟩ := guarded_eq_some.mp hmove
      split
      · rename_i hstate
        exact ⟨fun _ => hstate, List.prefix_rfl, List.prefix_rfl, fun hne => absurd hstate hne⟩
      · exact .of_same rfl rfl rfl rfl
  | setState thread =>
      obtain ⟨-, rfl⟩ := guarded_eq_some.mp hmove
      refine ⟨?_, List.prefix_rfl, List.prefix_rfl, fun _ => rfl⟩
      intro hconnected
      cases hconnected
  | runInLoop thread answer =>
      obtain ⟨data, -, rfl⟩ | ⟨fileDescriptor, offset, count, -, rfl⟩ | ⟨-, rfl⟩ :=
        move_runInLoop hmove
      · have hreturned : Grows w { w.setCall thread .idle with returned := w.returned ++ [data] } :=
          ⟨id, List.prefix_rfl, List.prefix_append _ _, fun _ => rfl⟩
        exact hreturned.trans (.runInLoop file thread answer rfl)
      · have hidle : Grows w (w.setCall thread .idle) := .of_same rfl rfl rfl rfl
        exact hidle.trans (.runInLoop file thread answer rfl)
      · have hidle : Grows w (w.setCall thread .idle) := .of_same rfl rfl rfl rfl
        exact hidle.trans (.runInLoop file thread answer rfl)
  | handleRead answer =>
      obtain ⟨-, rfl⟩ := guarded_eq_some.mp hmove
      exact .handled (Updates.handleRead _ hlasts)
  | handleWrite answer =>
      obtain ⟨-, rfl⟩ := guarded_eq_some.mp hmove
      exact .handled (Updates.handleWrite _ answer)
  | handleClose => exact hlasts.elim
  | handleError =>
      obtain ⟨-, rfl⟩ := guarded_eq_some.mp hmove
      exact .handled (Updates.refl _)
  | closeCallback =>
      obtain ⟨⟨-, hclosing⟩, -⟩ := guarded_eq_some.mp hmove
      exact absurd (h.lined.closing.symm.trans hclosing) (by decide)
  | runFunctor answer =>
      obtain ⟨functor, rest, htodo, rfl⟩ := move_runFunctor hmove
      split
      · have hnext : Grows w { w with io := w.io.next } := .of_same rfl rfl rfl rfl
        apply hnext.trans
        apply Grows.call
        apply h.lined.ticketed.noClose
        rw [BatchQueue.waiting_next htodo]
        exact List.mem_cons_self
      · exact .of_same rfl rfl rfl rfl
  | mainRunFunctor =>
      obtain ⟨functor, rest, -, rfl⟩ := move_mainRunFunctor hmove
      exact .of_same rfl rfl rfl rfl
  | hold thread | drop thread | doPendingFunctors | release | mainDoPendingFunctors | mainRelease =>
      obtain ⟨-, rfl⟩ := guarded_eq_some.mp hmove
      exact .of_same rfl rfl rfl rfl

theorem step_grows {file : Nat → List Byte} {action : SharedAction θ} (h : w.InOrder)
    (hlasts : w.Lasts action) (hstep : w.step file action = some w') : Grows w w' := by
  obtain ⟨v, hmove, rfl⟩ := step_eq_some hstep
  exact (move_grows h hlasts hmove).trans (.of_same rfl rfl rfl rfl)

theorem step_inOrder {file : Nat → List Byte} {action : SharedAction θ} (h : w.InOrder)
    (hlasts : w.Lasts action) (hwaits : w.FinWaits action) (hstep : w.step file action = some w') :
    w'.InOrder ∧ FinAtEnd w w' := by
  obtain ⟨v, hmove, rfl⟩ := step_eq_some hstep
  obtain ⟨hv, hfin⟩ := move_inOrder h hlasts hwaits hmove
  have hreap : v.reap.InOrder ∧ FinAtEnd v v.reap :=
    hv.of_same rfl rfl rfl rfl rfl rfl rfl fun _ => id
  exact ⟨hreap.1, hfin⟩

/-! ### Runs -/

theorem step_settled {file : Nat → List Byte} {action : SharedAction θ} (h : w.Settled)
    (hlasts : w.Lasts action) (hwaits : w.FinWaits action) (hstep : w.step file action = some w') :
    w'.Settled := by
  have hgrows := step_grows h.inOrder hlasts hstep
  obtain ⟨h', wrote, hnone, hfin⟩ := step_inOrder h.inOrder hlasts hwaits hstep
  have hfresh : w'.session.conn.state = .kConnected → .shutdownWrite ∉ w.session.trace ++ wrote := by
    intro hconnected hmem
    obtain hpast | hnew := List.mem_append.mp hmem
    · exact h.fresh (hgrows.connected hconnected) hpast
    · exact hnone hnew
  -- an old half close came after `shutdown` was accepted, so what it has to follow is settled
  have hold : ∀ before after, w.session.trace ++ wrote = before ++ .shutdownWrite :: after →
      w'.FollowsSends before := by
    intro before after htrace
    obtain ⟨rest, hrest⟩ | ⟨events, -, hwrote⟩ := exists_before_append htrace
    · apply (h.follows before rest hrest).mono hgrows
      · intro hconnected
        apply h.fresh hconnected
        rw [hrest]
        exact List.mem_append_right _ List.mem_cons_self
      · exact h.inOrder.lined.ticketed.bounded
    · rw [hwrote] at hnone
      exact absurd (List.mem_append_right _ List.mem_cons_self) hnone
  obtain hsame | ⟨hlast, hstate, hempty, hidle⟩ := hfin
  · refine ⟨h', ?_, ?_⟩
    · rw [hsame]
      exact hfresh
    · intro before after htrace
      rw [hsame] at htrace
      exact hold before after htrace
  · refine ⟨h', fun hconnected => absurd hconnected hstate, ?_⟩
    intro before after htrace
    rw [hlast] at htrace
    obtain ⟨rest, hrest⟩ | ⟨events, rfl, hevents⟩ := exists_before_append htrace
    · exact hold before rest hrest
    · obtain ⟨rfl, -⟩ : events = [] ∧ after = [] := by
        rw [eq_comm, List.append_eq_singleton_iff] at hevents
        simpa using hevents
      rw [List.append_nil]
      exact h'.followsSends hlast hempty hidle

theorem finWaits_of_finFollows {file : Nat → List Byte} {action : SharedAction θ} (h : w.InOrder)
    (hstep : w.step file action = some w') (hfollows : w'.FinFollows) : w.FinWaits action := by
  obtain ⟨v, hmove, rfl⟩ := step_eq_some hstep
  cases action with
  | runInLoop thread answer =>
      cases thread with
      | some thread => trivial
      | none =>
          intro hcall hwriting hwaits
          simp only [move, hcall] at hmove
          obtain rfl := Option.some.inj hmove
          have htrace := w.session.shutdownInLoop_trace
          rw [hwriting, if_neg (by decide)] at htrace
          exact not_followsSends h hwaits rfl rfl rfl _ (hfollows _ [] htrace)
  | handleWrite answer =>
      cases answer with
      | error errno => trivial
      | ok n =>
          intro hstate hsome hlength hwaits
          obtain ⟨-, rfl⟩ := guarded_eq_some.mp hmove
          have hwriting := h.streams.writing.mpr hsome
          obtain ⟨wrote, hdrained⟩ :=
            Session.handleWrite_drained w.session (.ok n) h.streams.writing
          have htrace := hdrained.trace_eq
          rw [if_pos ⟨hsome, Session.handleWrite_of_le hwriting hsome hlength, hstate⟩] at htrace
          exact not_followsSends h hwaits rfl rfl rfl _ (hfollows _ [] htrace)
  | _ => trivial

/-- **The half close follows every earlier send** in every run without a close or a fatal error in
which no functor of such a send waits where the loop comes to `shutdownWrite` without a functor:
`::write` has accepted all bytes of all calls of `send` that returned before `shutdown` was called. The
first step against the condition is a half close that overtakes one of them. -/
theorem fin_follows_sends (file : Nat → List Byte)
    (hreach : (system file).ReachableUnder (fun v action => v.Lasts action ∧ v.FinWaits action) w) :
    w.FinFollows ∧ ∀ action w', w.Lasts action → w.step file action = some w' →
      (w.FinWaits action ↔ w'.FinFollows) := by
  have hinv : w.Settled := by
    apply hreach.invariant (I := Settled)
    · exact fun _ hinit => hinit.settled
    · exact fun _ _ _ h hok hnext => step_settled h hok.1 hok.2 hnext
  refine ⟨hinv.follows, fun action w' hlasts hstep => ⟨fun hwaits => ?_, fun hfollows => ?_⟩⟩
  · exact (step_settled hinv hlasts hwaits hstep).follows
  · exact finWaits_of_finFollows hinv.inOrder hstep hfollows

/-- A send and a `shutdown` of one thread, whose functors are executed in turn. -/
theorem fin_follows_sends_queued :
    ∃ w : SharedConnection Unit Unit,
      .shutdownWrite ∈ w.session.trace ∧ w.returned = [[7]] ∧ w.owed = 1 ∧ w.FinFollows := by
  have hfatal := not_isFatal_of_ok
  have hrun : (system fun _ => []).RunUnder
      (fun (v : SharedConnection Unit Unit) action => v.Lasts action ∧ v.FinWaits action)
      (established Running.sample.session true)
      [.hold (some ()), .send (some ()) [7], .runInLoop (some ()) (.ok 0), .shutdown (some ()),
        .setState (some ()), .runInLoop (some ()) (.ok 0), .doPendingFunctors, .runFunctor (.ok 1),
        .runFunctor (.ok 0)] _ :=
    .cons ⟨trivial, trivial⟩ rfl (.cons ⟨trivial, trivial⟩ rfl
      (.cons ⟨hfatal 0, trivial⟩ rfl (.cons ⟨trivial, trivial⟩ rfl
        (.cons ⟨trivial, trivial⟩ rfl (.cons ⟨hfatal 0, trivial⟩ rfl
          (.cons ⟨trivial, trivial⟩ rfl (.cons ⟨hfatal 1, trivial⟩ rfl
            (.single ⟨hfatal 0, trivial⟩ rfl))))))))
  have hinit := initial_established (θ := Unit) Running.established_sample true
  exact ⟨_, by decide, rfl, rfl, (fin_follows_sends _ ⟨_, _, hinit, hrun⟩).1⟩

/-- Two ways to overtake a send that has returned. The loop shuts down itself while the functor of the
send waits; or `handleWrite` sends the rest of an earlier payload and finds `kDisconnecting`, with the
functors of a later send and of `shutdown` in the queue. -/
theorem fin_overtakes_sends :
    (established Running.sample.session true : SharedConnection Unit Unit).Initial ∧
    (∃ w : SharedConnection Unit Unit,
      (system fun _ => []).RunUnder Lasts (established Running.sample.session true)
        [.hold (some ()), .hold none, .send (some ()) [7], .runInLoop (some ()) (.ok 0),
          .shutdown none, .setState none, .runInLoop none (.ok 0)] w ∧
      .shutdownWrite ∈ w.session.trace ∧ w.returned = [[7]] ∧ w.owed = 1 ∧
      written w.session.trace = []) ∧
    ∃ w : SharedConnection Unit Unit,
      (system fun _ => []).RunUnder Lasts (established Running.sample.session true)
        [.hold (some ()), .send (some ()) [7, 8], .runInLoop (some ()) (.ok 0), .doPendingFunctors,
          .runFunctor (.ok 1), .release, .send (some ()) [9], .runInLoop (some ()) (.ok 0),
          .shutdown (some ()), .setState (some ()), .runInLoop (some ()) (.ok 0),
          .handleWrite (.ok 1)] w ∧
      .shutdownWrite ∈ w.session.trace ∧ w.returned = [[7, 8], [9]] ∧ w.owed = 2 ∧
      written w.session.trace = [7, 8] := by
  have hfatal := not_isFatal_of_ok
  refine ⟨initial_established Running.established_sample true, ?_, ?_⟩
  · exact ⟨_, .cons trivial rfl (.cons trivial rfl (.cons trivial rfl (.cons (hfatal 0) rfl
      (.cons trivial rfl (.cons trivial rfl (.single (hfatal 0) rfl)))))), by decide, rfl, rfl, rfl⟩
  · exact ⟨_, .cons trivial rfl (.cons trivial rfl (.cons (hfatal 0) rfl (.cons trivial rfl
      (.cons (hfatal 1) rfl (.cons trivial rfl (.cons trivial rfl (.cons (hfatal 0) rfl
        (.cons trivial rfl (.cons trivial rfl (.cons (hfatal 0) rfl
          (.single (hfatal 1) rfl))))))))))), by decide, rfl, rfl, rfl⟩

end SharedConnection

end MuduoCore
