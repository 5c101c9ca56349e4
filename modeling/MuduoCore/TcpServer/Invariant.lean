import MuduoCore.TcpConnection.Registration
import MuduoCore.TcpServer.Basic
import Mathlib.Algebra.Group.Nat.Defs

/-!
# What holds between a server, its loops and its connections

A connection is in `connections_` from its construction until its removal, and the removal queues
`connectDestroyed`, which holds the connection until it has taken the channel out of the poller. It
runs on the loop of the connection, after the dispatch phase, so no event of that loop comes late.
-/

namespace MuduoCore

variable {n : ℕ}

def Frame.event : Frame → Option Nat
  | handleClose conn | handleError conn | handleRead conn | handleWrite conn => some conn
  | removeConnection _ | userCode => none

namespace ServerLoop

def queue (l : ServerLoop) : List ServerFunctor := l.pendingFunctors ++ l.todo

/-- The loop has yet to handle an event of the connection. -/
def HasEvent (l : ServerLoop) (conn : Nat) : Prop :=
  (∃ revents, .connection conn revents ∈ l.activeChannels) ∨
    ∃ frame ∈ l.stack, frame.event = some conn

/-- The removal of the connection is under way in the loop. -/
def Removing (l : ServerLoop) (conn : Nat) : Prop :=
  .removeConnection conn ∈ l.stack ∨ .removeConnectionInLoop conn ∈ l.queue ∨
    .connectDestroyed conn ∈ l.queue

/-- Events are handled in the dispatch phase, and functors are called after it. -/
structure InPhase (l : ServerLoop) : Prop where
  dispatching : l.phase ≠ .dispatching → ∀ conn, ¬l.HasEvent conn
  calling : l.phase ≠ .calling → l.todo = []
  batch : ∀ functor ∈ l.todo, functor ∈ l.functors

/-- The loop `l'` has no more left to do than the loop `l` had. -/
structure Shrinks (l' l : ServerLoop) : Prop where
  poller_eq : l'.poller = l.poller
  event : ∀ conn, l'.HasEvent conn → l.HasEvent conn
  removeConnection : ∀ conn, .removeConnection conn ∈ l'.stack → .removeConnection conn ∈ l.stack
  queue : l'.queue.Sublist l.queue

theorem Shrinks.removing {l l' : ServerLoop} (h : l'.Shrinks l) {conn : Nat}
    (hremoving : l'.Removing conn) : l.Removing conn := by
  rcases hremoving with hframe | hqueued | hqueued
  · exact .inl (h.removeConnection conn hframe)
  · exact .inr (.inl (h.queue.subset hqueued))
  · exact .inr (.inr (h.queue.subset hqueued))

/-! ### The queue of a loop -/

theorem queue_push (l : ServerLoop) (functor : ServerFunctor) :
    (l.push functor).queue = l.pendingFunctors ++ functor :: l.todo := by
  simp [queue, push]

theorem mem_queue_push (l : ServerLoop) (functor other : ServerFunctor) :
    other ∈ (l.push functor).queue ↔ other ∈ l.queue ∨ other = functor := by
  rw [queue_push, queue, List.mem_append, List.mem_cons, List.mem_append]
  tauto

theorem count_queue_push (l : ServerLoop) (functor other : ServerFunctor) :
    (l.push functor).queue.count other
      = l.queue.count other + if functor = other then 1 else 0 := by
  rw [queue_push, queue, List.count_append, List.count_cons, List.count_append]
  simp only [beq_iff_eq]
  omega

theorem InPhase.push {l : ServerLoop} (h : l.InPhase) (functor : ServerFunctor) :
    (l.push functor).InPhase :=
  ⟨h.dispatching, h.calling, h.batch⟩

/-! ### The loop after a member function -/

theorem mem_callbackFrames {conn : Nat} {trace : List Event} {frame : Frame}
    (hmem : frame ∈ callbackFrames conn trace) :
    frame = .userCode ∨ frame = .removeConnection conn ∧ .closeCallback ∈ trace := by
  obtain ⟨event, hevent, hframe⟩ := List.mem_filterMap.mp hmem
  cases event with
  | connectionCallback _ => exact .inl (Option.some.inj hframe).symm
  | messageCallback => exact .inl (Option.some.inj hframe).symm
  | closeCallback => exact .inr ⟨(Option.some.inj hframe).symm, hevent⟩
  | _ => cases hframe

theorem after_queue (l : ServerLoop) (conn : Nat) (s : Session Nat) :
    (l.after conn s).queue
      = l.pendingFunctors ++ s.pendingFunctors.map (.task conn) ++ l.todo := rfl

theorem mem_queue_after {l : ServerLoop} {conn : Nat} {s : Session Nat} {functor : ServerFunctor}
    (htask : ∀ task, functor ≠ .task conn task) :
    functor ∈ (l.after conn s).queue ↔ functor ∈ l.queue := by
  have hnot : functor ∉ s.pendingFunctors.map (ServerFunctor.task conn) := by
    intro hmem
    obtain ⟨task, -, heq⟩ := List.mem_map.mp hmem
    exact htask task heq.symm
  rw [after_queue, queue, List.mem_append, List.mem_append, List.mem_append, or_iff_left hnot]

theorem count_queue_after (l : ServerLoop) (conn other : Nat) (s : Session Nat) :
    (l.after conn s).queue.count (.connectEstablished other)
      = l.queue.count (.connectEstablished other) := by
  have hzero : (s.pendingFunctors.map (ServerFunctor.task conn)).count (.connectEstablished other)
      = 0 := by
    rw [List.count_eq_zero]
    intro hmem
    obtain ⟨task, -, heq⟩ := List.mem_map.mp hmem
    cases heq
  rw [after_queue, queue, List.count_append, List.count_append, List.count_append, hzero,
    Nat.add_zero]

/-- Events are handled by their own frames, never by a callback. -/
theorem hasEvent_after (l : ServerLoop) (conn other : Nat) (s : Session Nat) :
    (l.after conn s).HasEvent other ↔ l.HasEvent other := by
  refine or_congr Iff.rfl ⟨?_, ?_⟩
  · rintro ⟨frame, hmem, hevent⟩
    rcases List.mem_append.mp hmem with hcallback | hold
    · rcases mem_callbackFrames hcallback with rfl | ⟨rfl, -⟩ <;> cases hevent
    · exact ⟨frame, hold, hevent⟩
  · rintro ⟨frame, hmem, hevent⟩
    exact ⟨frame, List.mem_append_right _ hmem, hevent⟩

theorem removing_after {l : ServerLoop} {conn other : Nat} {s : Session Nat}
    (h : (l.after conn s).Removing other) :
    l.Removing other ∨ other = conn ∧ .closeCallback ∈ s.trace := by
  rcases h with hframe | hqueued | hqueued
  · rcases List.mem_append.mp hframe with hcallback | hold
    · rcases mem_callbackFrames hcallback with heq | ⟨heq, hclose⟩
      · cases heq
      · cases heq
        exact .inr ⟨rfl, hclose⟩
    · exact .inl (.inl hold)
  · rw [mem_queue_after (by simp)] at hqueued
    exact .inl (.inr (.inl hqueued))
  · rw [mem_queue_after (by simp)] at hqueued
    exact .inl (.inr (.inr hqueued))

theorem InPhase.after {l : ServerLoop} (h : l.InPhase) (conn : Nat) (s : Session Nat) :
    (l.after conn s).InPhase := by
  refine ⟨?_, h.calling, h.batch⟩
  intro hphase other hevent
  exact h.dispatching hphase other ((hasEvent_after l conn other s).mp hevent)

/-! ### Who holds what is to be called -/

theorem InPhase.mem_functors {l : ServerLoop} (h : l.InPhase) {functor : ServerFunctor}
    (hqueued : functor ∈ l.queue) : functor ∈ l.pendingFunctors ++ l.functors := by
  rcases List.mem_append.mp hqueued with hpending | htodo
  · exact List.mem_append_left _ hpending
  · exact List.mem_append_right _ (h.batch functor htodo)

theorem holds_of_mem {l : ServerLoop} {functor : ServerFunctor} {conn : Nat}
    (hmem : functor ∈ l.pendingFunctors ++ l.functors) (hholds : functor.holds = some conn) :
    l.holds conn = true := by
  have hany : (l.pendingFunctors ++ l.functors).any
      (fun functor => functor.holds == some conn) = true :=
    List.any_eq_true.mpr ⟨functor, hmem, by rw [hholds, beq_self_eq_true]⟩
  rw [ServerLoop.holds, hany, Bool.true_or, Bool.true_or]

theorem InPhase.holds_of_removing {l : ServerLoop} (h : l.InPhase) {conn : Nat}
    (hremoving : l.Removing conn) : l.holds conn = true := by
  rcases hremoving with hframe | hqueued | hqueued
  · have hany : l.stack.any (fun frame => frame.holds == some conn) = true :=
      List.any_eq_true.mpr ⟨_, hframe, beq_self_eq_true _⟩
    rw [ServerLoop.holds, hany, Bool.or_true]
  · exact holds_of_mem (h.mem_functors hqueued) rfl
  · exact holds_of_mem (h.mem_functors hqueued) rfl

end ServerLoop

namespace Server

abbrev loopOf (w : Server n) (conn : Nat) : Fin (n + 1) := (w.conns conn).loop

abbrev channel (w : Server n) (conn : Nat) : Channel := (w.conns conn).tcp.channel

abbrev state (w : Server n) (conn : Nat) : StateE := (w.conns conn).tcp.state

/-- The channels as the poller of `loop` may know them. -/
def channelOn (w : Server n) (loop : Fin (n + 1)) (conn : Nat) : Channel :=
  if w.loopOf conn = loop then w.channel conn else Channel.new 0

/-- The connection is registered, or waits for its `connectEstablished`. -/
def Live (w : Server n) (conn : Nat) : Prop :=
  (w.channel conn).index ≠ .kNew ∨ w.state conn = .kConnecting

def Mapped (w : Server n) (conn : Nat) : Prop :=
  w.connections (w.conns conn).name = some conn

/-- What a loop has left to do for a connection fits the connection. -/
structure Tracks (w : Server n) (loop : Fin (n + 1)) (l : ServerLoop) (conn : Nat) : Prop where
  event : l.HasEvent conn → w.loopOf conn = loop ∧ (w.channel conn).index ≠ .kNew
  removing : l.Removing conn → w.alive conn = true ∧ w.state conn ≠ .kConnecting
  destroying : .connectDestroyed conn ∈ l.queue → w.loopOf conn = loop
  establishing : .connectEstablished conn ∈ l.queue →
    w.loopOf conn = loop ∧ w.state conn = .kConnecting
  once : l.queue.count (.connectEstablished conn) ≤ 1

/-- The connection is in `connections_`, or its `connectDestroyed` is still to be called. -/
def Kept (w : Server n) (conn : Nat) : Prop :=
  w.Mapped conn ∨ .connectDestroyed conn ∈ (w.loops (w.loopOf conn)).queue

structure Inv (config : ServerConfig) (w : Server n) : Prop where
  coherent : ∀ loop, (w.loops loop).poller.Coherent (w.channelOn loop)
  phase : ∀ loop, (w.loops loop).InPhase
  tracks : ∀ loop conn, w.Tracks loop (w.loops loop) conn
  live : ∀ conn, w.Live conn → w.alive conn = true ∧ w.Kept conn
  connecting : ∀ conn, w.state conn = .kConnecting → (w.channel conn).index = .kNew
  connected : ∀ conn, w.state conn = .kConnected → (w.channel conn).index ≠ .kNew
  distinct : ∀ c d, w.alive c = true → w.alive d = true →
    (w.channel c).fd = (w.channel d).fd → c = d
  created : ∀ conn, w.alive conn = true → conn < w.accepted
  named : ∀ conn < w.accepted, (w.conns conn).name = config.connName (BitVec.ofNat 32 (conn + 1))
  counter : w.nextConnId = BitVec.ofNat 32 (w.accepted + 1)
  few : w.accepted < 2 ^ 31

/-! ### Names -/

theorem not_minus_mem_toDigits (m : Nat) : '-' ∉ Nat.toDigits 10 m := by
  intro hmem
  have hdigit : Char.isDigit '-' := Nat.isDigit_of_mem_toDigits (by decide) (by decide) hmem
  exact absurd hdigit (by decide)

theorem toDigits_injective : Function.Injective (Nat.toDigits 10) := by
  intro a b h
  calc a = Nat.ofDigitChars 10 (Nat.toDigits 10 a) 0 := Nat.ofDigitChars_ten_toDigits.symm
    _ = Nat.ofDigitChars 10 (Nat.toDigits 10 b) 0 := by rw [h]
    _ = b := Nat.ofDigitChars_ten_toDigits

theorem decimal_injective : Function.Injective decimal := by
  intro i j h
  cases i with
  | ofNat a =>
      cases j with
      | ofNat b => exact congrArg Int.ofNat (toDigits_injective h)
      | negSucc b =>
          have hmem : '-' ∈ Nat.toDigits 10 a := by
            rw [show Nat.toDigits 10 a = decimal (.negSucc b) from h]
            exact List.mem_cons_self
          exact absurd hmem (not_minus_mem_toDigits a)
  | negSucc a =>
      cases j with
      | ofNat b =>
          have hmem : '-' ∈ Nat.toDigits 10 b := by
            rw [show Nat.toDigits 10 b = decimal (.negSucc a) from h.symm]
            exact List.mem_cons_self
          exact absurd hmem (not_minus_mem_toDigits b)
      | negSucc b =>
          have hdigits := toDigits_injective (List.cons.inj h).2
          rw [Nat.succ_inj.mp hdigits]

/-- At most ten digits and a sign. -/
theorem decimal_length (id : BitVec 32) : (decimal id.toInt).length ≤ 11 := by
  have hshort : ∀ m < 10 ^ 10, (Nat.toDigits 10 m).length ≤ 10 := fun m hm =>
    (Nat.length_toDigits_le_iff (by decide) (by decide)).mpr hm
  have hlower := BitVec.le_toInt id
  have hupper := BitVec.toInt_lt (x := id)
  cases hid : id.toInt with
  | ofNat m =>
      rw [Int.ofNat_eq_natCast] at hid
      have := hshort m (by omega)
      simp only [decimal]
      omega
  | negSucc m =>
      have := hshort (m + 1) (by omega)
      simp only [decimal, List.length_cons]
      omega

/-- The address and the counter fit into the buffer, so no name is cut off. -/
theorem connName_injective (config : ServerConfig) : Function.Injective config.connName := by
  have hfits : ∀ id : BitVec 32,
      ('-' :: config.ipPort ++ '#' :: decimal id.toInt).length ≤ 63 := by
    intro id
    have hport := config.ipPort_length
    have hdecimal := decimal_length id
    simp only [List.length_append, List.length_cons]
    omega
  intro i j h
  simp only [ServerConfig.connName] at h
  rw [List.take_of_length_le (hfits i), List.take_of_length_le (hfits j)] at h
  have hprinted := List.append_cancel_left (List.cons.inj (List.append_cancel_left h)).2
  exact BitVec.eq_of_toInt_eq (decimal_injective (List.cons.inj hprinted).2)

theorem connName_eq_iff (config : ServerConfig) {c d : Nat} :
    config.connName (BitVec.ofNat 32 (c + 1)) = config.connName (BitVec.ofNat 32 (d + 1)) ↔
      c % 2 ^ 32 = d % 2 ^ 32 := by
  rw [(connName_injective config).eq_iff, ← BitVec.toNat_inj, BitVec.toNat_ofNat,
    BitVec.toNat_ofNat]
  omega

/-! ### What the loops have left to do -/

variable {config : ServerConfig} {w : Server n} {loop : Fin (n + 1)}

theorem Tracks.shrinks {l l' : ServerLoop} {conn : Nat} (h : w.Tracks loop l conn)
    (hshrinks : l'.Shrinks l) : w.Tracks loop l' conn :=
  ⟨fun hevent => h.event (hshrinks.event conn hevent),
    fun hremoving => h.removing (hshrinks.removing hremoving),
    fun hqueued => h.destroying (hshrinks.queue.subset hqueued),
    fun hqueued => h.establishing (hshrinks.queue.subset hqueued),
    (hshrinks.queue.count_le _).trans h.once⟩

/-- What a loop has left to do for a connection is a matter of that connection. -/
theorem Tracks.congr {w' : Server n} {l : ServerLoop} {conn : Nat} (h : w.Tracks loop l conn)
    (hconn : w'.conns conn = w.conns conn) (halive : w.alive conn = true → w'.alive conn = true) :
    w'.Tracks loop l conn := by
  refine ⟨?_, ?_, ?_, ?_, h.once⟩
  · rw [loopOf, channel, hconn]
    exact h.event
  · intro hremoving
    rw [state, hconn]
    exact ⟨halive (h.removing hremoving).1, (h.removing hremoving).2⟩
  · rw [loopOf, hconn]
    exact h.destroying
  · rw [loopOf, state, hconn]
    exact h.establishing

theorem Inv.live_of_event (h : Inv config w) {conn : Nat}
    (hevent : (w.loops loop).HasEvent conn) : w.Live conn :=
  .inl ((h.tracks loop conn).event hevent).2

theorem modifyLoop_loops_self {f : ServerLoop → ServerLoop} :
    (w.modifyLoop loop f).loops loop = f (w.loops loop) :=
  Function.update_self ..

theorem modifyLoop_loops_of_ne {f : ServerLoop → ServerLoop} {other : Fin (n + 1)}
    (hne : other ≠ loop) : (w.modifyLoop loop f).loops other = w.loops other :=
  Function.update_of_ne hne ..

theorem Inv.modifyLoop (h : Inv config w) {f : ServerLoop → ServerLoop}
    (hpoller : (f (w.loops loop)).poller = (w.loops loop).poller)
    (hphase : (f (w.loops loop)).InPhase)
    (htracks : ∀ conn, w.Tracks loop (f (w.loops loop)) conn)
    (hkept : ∀ conn, w.Live conn → .connectDestroyed conn ∈ (w.loops loop).queue →
      .connectDestroyed conn ∈ (f (w.loops loop)).queue) :
    Inv config (w.modifyLoop loop f) := by
  refine { h with coherent := ?_, phase := ?_, tracks := ?_, live := ?_ }
  · intro other
    by_cases heq : other = loop
    · subst heq
      rw [modifyLoop_loops_self, hpoller]
      exact h.coherent other
    · rw [modifyLoop_loops_of_ne heq]
      exact h.coherent other
  · intro other
    by_cases heq : other = loop
    · subst heq
      rw [modifyLoop_loops_self]
      exact hphase
    · rw [modifyLoop_loops_of_ne heq]
      exact h.phase other
  · intro other conn
    by_cases heq : other = loop
    · subst heq
      rw [modifyLoop_loops_self]
      exact (htracks conn).congr rfl id
    · rw [modifyLoop_loops_of_ne heq]
      exact (h.tracks other conn).congr rfl id
  · intro conn hlive
    obtain ⟨halive, hmapped | hqueued⟩ := h.live conn hlive
    · exact ⟨halive, .inl hmapped⟩
    · refine ⟨halive, .inr ?_⟩
      by_cases heq : w.loopOf conn = loop
      · rw [heq] at hqueued
        change _ ∈ ((w.modifyLoop loop f).loops (w.loopOf conn)).queue
        rw [heq, modifyLoop_loops_self]
        exact hkept conn hlive hqueued
      · change _ ∈ ((w.modifyLoop loop f).loops (w.loopOf conn)).queue
        rw [modifyLoop_loops_of_ne heq]
        exact hqueued

theorem Inv.shrinks (h : Inv config w) {f : ServerLoop → ServerLoop}
    (hshrinks : (f (w.loops loop)).Shrinks (w.loops loop)) (hphase : (f (w.loops loop)).InPhase)
    (hkept : ∀ conn, w.Live conn → .connectDestroyed conn ∈ (w.loops loop).queue →
      .connectDestroyed conn ∈ (f (w.loops loop)).queue) :
    Inv config (w.modifyLoop loop f) :=
  h.modifyLoop hshrinks.poller_eq hphase (fun conn => (h.tracks loop conn).shrinks hshrinks) hkept

theorem Inv.push (h : Inv config w) (functor : ServerFunctor)
    (htracks : ∀ conn, w.Tracks loop ((w.loops loop).push functor) conn) :
    Inv config (w.modifyLoop loop fun l => l.push functor) := by
  apply h.modifyLoop rfl ((h.phase loop).push functor) htracks
  intro conn _ hqueued
  rw [ServerLoop.mem_queue_push]
  exact .inl hqueued

/-! ### Holding and destroying -/

theorem held_of_mapped {conn : Nat} (h : w.Mapped conn) : w.held conn = true := by
  rw [held, show w.connections (w.conns conn).name = some conn from h, beq_self_eq_true,
    Bool.true_or, Bool.true_or]

theorem held_of_holds {conn : Nat} (h : (w.loops loop).holds conn = true) : w.held conn = true := by
  rw [held, decide_eq_true ⟨loop, h⟩, Bool.or_true, Bool.true_or]

theorem Inv.held_of_removing (h : Inv config w) {conn : Nat}
    (hremoving : (w.loops loop).Removing conn) : w.held conn = true :=
  held_of_holds ((h.phase loop).holds_of_removing hremoving)

theorem Inv.held_of_live (h : Inv config w) {conn : Nat} (hlive : w.Live conn) :
    w.held conn = true := by
  obtain ⟨-, hmapped | hqueued⟩ := h.live conn hlive
  · exact held_of_mapped hmapped
  · exact h.held_of_removing (.inr (.inr hqueued))

/-- Only connections that nobody needs any more are destroyed. -/
theorem Inv.reap (h : Inv config w) : Inv config w.reap := by
  have halive : ∀ conn, w.reap.alive conn = true → w.alive conn = true :=
    fun conn hreap => (Bool.and_eq_true_iff.mp hreap).1
  refine { h with tracks := ?_, live := ?_, distinct := ?_, created := ?_ }
  · intro loop conn
    have htracks := h.tracks loop conn
    refine ⟨htracks.event, ?_, htracks.destroying, htracks.establishing,
      htracks.once⟩
    intro hremoving
    obtain ⟨hold, hstate⟩ := htracks.removing hremoving
    exact ⟨Bool.and_eq_true_iff.mpr ⟨hold, h.held_of_removing hremoving⟩, hstate⟩
  · intro conn hlive
    obtain ⟨hold, hkept⟩ := h.live conn hlive
    exact ⟨Bool.and_eq_true_iff.mpr ⟨hold, h.held_of_live hlive⟩, hkept⟩
  · exact fun c d hc hd => h.distinct c d (halive c hc) (halive d hd)
  · exact fun conn hconn => h.created conn (halive conn hconn)

/-! ### Member functions of a connection -/

/-- What a member function may make of the connection. -/
structure Allowed (w : Server n) (conn : Nat) (s : Session Nat) : Prop where
  moves : Moves (w.session conn) s
  kept : s.conn.channel.index ≠ .kNew ∨ s.conn.state = .kConnecting → w.Kept conn
  connecting : s.conn.state = .kConnecting → s.conn.channel.index = .kNew
  connected : s.conn.state = .kConnected → s.conn.channel.index ≠ .kNew
  event : ∀ loop, (w.loops loop).HasEvent conn → s.conn.channel.index ≠ .kNew
  removing : ∀ loop, (w.loops loop).Removing conn → s.conn.state ≠ .kConnecting
  closing : .closeCallback ∈ s.trace → s.conn.state ≠ .kConnecting
  establishing : ∀ loop, .connectEstablished conn ∈ (w.loops loop).queue →
    s.conn.state = .kConnecting

variable {conn : Nat} {f : Session Nat → Session Nat}

theorem onConnection_loops_self :
    (w.onConnection conn f).loops (w.loopOf conn)
      = (w.loops (w.loopOf conn)).after conn (f (w.session conn)) :=
  Function.update_self ..

theorem onConnection_loops_of_ne {other : Fin (n + 1)} (hne : other ≠ w.loopOf conn) :
    (w.onConnection conn f).loops other = w.loops other :=
  Function.update_of_ne hne ..

theorem onConnection_conns_self :
    (w.onConnection conn f).conns conn = { w.conns conn with
      tcp := (f (w.session conn)).conn
      trace := (w.conns conn).trace ++ (f (w.session conn)).trace } :=
  Function.update_self ..

theorem onConnection_conns_of_ne {other : Nat} (hne : other ≠ conn) :
    (w.onConnection conn f).conns other = w.conns other :=
  Function.update_of_ne hne ..

@[simp]
theorem onConnection_loop (other : Nat) :
    ((w.onConnection conn f).conns other).loop = (w.conns other).loop := by
  by_cases heq : other = conn
  · subst heq
    rw [onConnection_conns_self]
  · rw [onConnection_conns_of_ne heq]

@[simp]
theorem onConnection_name (other : Nat) :
    ((w.onConnection conn f).conns other).name = (w.conns other).name := by
  by_cases heq : other = conn
  · subst heq
    rw [onConnection_conns_self]
  · rw [onConnection_conns_of_ne heq]

theorem Inv.agrees (h : Inv config w) (halive : w.alive conn = true) :
    Agrees (w.channelOn (w.loopOf conn)) (w.session conn) := by
  have hchannel : w.channelOn (w.loopOf conn) conn = w.channel conn := if_pos rfl
  refine ⟨?_, ?_⟩
  · rw [show (w.session conn).conn.channel = w.channelOn (w.loopOf conn) conn from hchannel.symm]
    rw [show (w.session conn).self = conn from rfl, Function.update_eq_self]
    exact h.coherent _
  · intro other hne hindex hfd
    rw [channelOn] at hindex hfd
    split at hindex
    · rename_i hloop
      rw [if_pos hloop] at hfd
      exact hne (h.distinct other conn (h.live other (.inl hindex)).1 halive hfd)
    · exact hindex rfl

theorem Inv.channelOn_onConnection (h : Inv config w) (halive : w.alive conn = true)
    (hmoves : Moves (w.session conn) (f (w.session conn))) (other : Fin (n + 1)) :
    ((w.onConnection conn f).loops other).poller.Coherent
      ((w.onConnection conn f).channelOn other) := by
  by_cases heq : other = w.loopOf conn
  · subst heq
    have hchannels : (w.onConnection conn f).channelOn (w.loopOf conn)
        = Function.update (w.channelOn (w.loopOf conn)) (f (w.session conn)).self
          (f (w.session conn)).conn.channel := by
      rw [hmoves.self_eq]
      funext c
      by_cases hc : c = conn
      · subst hc
        rw [show (w.session c).self = c from rfl, Function.update_self, channelOn,
          if_pos (onConnection_loop c), channel, onConnection_conns_self]
      · rw [show (w.session conn).self = conn from rfl, Function.update_of_ne hc, channelOn,
          channelOn, loopOf, channel, onConnection_conns_of_ne hc]
    rw [hchannels, onConnection_loops_self]
    exact (hmoves.agrees _ (h.agrees halive)).coherent
  · have hchannels : (w.onConnection conn f).channelOn other = w.channelOn other := by
      funext c
      by_cases hc : c = conn
      · subst hc
        rw [channelOn, channelOn, if_neg, if_neg (Ne.symm heq)]
        rw [loopOf, onConnection_loop]
        exact Ne.symm heq
      · rw [channelOn, channelOn, loopOf, channel, onConnection_conns_of_ne hc]
    rw [hchannels, onConnection_loops_of_ne heq]
    exact h.coherent other

theorem onConnection_loops_cases (w : Server n) (conn : Nat) (f : Session Nat → Session Nat)
    (loop : Fin (n + 1)) :
    (w.onConnection conn f).loops loop = w.loops loop ∨
      (w.onConnection conn f).loops loop
        = (w.loops loop).after conn (f (w.session conn)) := by
  by_cases heq : loop = w.loopOf conn
  · subst heq
    exact .inr onConnection_loops_self
  · exact .inl (onConnection_loops_of_ne heq)

/-- A member function adds no event to what the loops have left to do. -/
theorem hasEvent_onConnection {other : Nat}
    (h : ((w.onConnection conn f).loops loop).HasEvent other) : (w.loops loop).HasEvent other := by
  rcases onConnection_loops_cases w conn f loop with heq | heq <;> rw [heq] at h
  · exact h
  · exact (ServerLoop.hasEvent_after _ _ _ _).mp h

/-- A removal is the one that the connection's own `closeCallback_` asks for. -/
theorem removing_onConnection {other : Nat}
    (h : ((w.onConnection conn f).loops loop).Removing other) :
    (w.loops loop).Removing other ∨
      other = conn ∧ .closeCallback ∈ (f (w.session conn)).trace := by
  rcases onConnection_loops_cases w conn f loop with heq | heq <;> rw [heq] at h
  · exact .inl h
  · exact ServerLoop.removing_after h

theorem mem_queue_onConnection {functor : ServerFunctor} (htask : ∀ task, functor ≠ .task conn task) :
    functor ∈ ((w.onConnection conn f).loops loop).queue ↔ functor ∈ (w.loops loop).queue := by
  rcases onConnection_loops_cases w conn f loop with heq | heq <;> rw [heq]
  exact ServerLoop.mem_queue_after htask

theorem count_queue_onConnection (other : Nat) :
    ((w.onConnection conn f).loops loop).queue.count (.connectEstablished other)
      = (w.loops loop).queue.count (.connectEstablished other) := by
  rcases onConnection_loops_cases w conn f loop with heq | heq <;> rw [heq]
  exact ServerLoop.count_queue_after _ _ _ _

theorem Inv.tracks_onConnection (h : Inv config w) (halive : w.alive conn = true)
    (hallowed : w.Allowed conn (f (w.session conn))) (loop : Fin (n + 1)) (other : Nat) :
    (w.onConnection conn f).Tracks loop ((w.onConnection conn f).loops loop) other := by
  have htracks := h.tracks loop other
  have honce : ((w.onConnection conn f).loops loop).queue.count (.connectEstablished other) ≤ 1 := by
    rw [count_queue_onConnection]
    exact htracks.once
  by_cases hother : other = conn
  · subst hother
    have hstate : (w.onConnection other f).state other = (f (w.session other)).conn.state := by
      rw [state, onConnection_conns_self]
    have hchannel : (w.onConnection other f).channel other
        = (f (w.session other)).conn.channel := by
      rw [channel, onConnection_conns_self]
    refine ⟨?_, fun hrem => ⟨halive, ?_⟩, ?_, ?_, honce⟩
    · intro hev
      have hold := hasEvent_onConnection hev
      rw [hchannel, loopOf, onConnection_loop]
      exact ⟨(htracks.event hold).1, hallowed.event loop hold⟩
    · rw [hstate]
      rcases removing_onConnection hrem with hold | ⟨-, hclose⟩
      · exact hallowed.removing loop hold
      · exact hallowed.closing hclose
    · intro hmem
      rw [mem_queue_onConnection (by simp)] at hmem
      rw [loopOf, onConnection_loop]
      exact htracks.destroying hmem
    · intro hmem
      rw [mem_queue_onConnection (by simp)] at hmem
      rw [hstate, loopOf, onConnection_loop]
      exact ⟨(htracks.establishing hmem).1, hallowed.establishing loop hmem⟩
  · have hold : w.Tracks loop ((w.onConnection conn f).loops loop) other := by
      refine ⟨fun hev => htracks.event (hasEvent_onConnection hev), ?_, ?_, ?_, honce⟩
      · intro hrem
        rcases removing_onConnection hrem with hold | ⟨heq, -⟩
        · exact htracks.removing hold
        · exact absurd heq hother
      · rw [mem_queue_onConnection (by simp)]
        exact htracks.destroying
      · rw [mem_queue_onConnection (by simp)]
        exact htracks.establishing
    exact hold.congr (onConnection_conns_of_ne hother) id

theorem kept_onConnection (other : Nat) : (w.onConnection conn f).Kept other ↔ w.Kept other := by
  have hmapped : (w.onConnection conn f).Mapped other ↔ w.Mapped other := by
    rw [Mapped, Mapped, onConnection_name]
    rfl
  have hloop : (w.onConnection conn f).loopOf other = w.loopOf other := onConnection_loop other
  rw [Kept, Kept, hmapped, hloop, mem_queue_onConnection (by simp)]

theorem Inv.onConnection (h : Inv config w) (halive : w.alive conn = true)
    (hallowed : w.Allowed conn (f (w.session conn))) : Inv config (w.onConnection conn f) := by
  have hfd : ∀ c, ((w.onConnection conn f).channel c).fd = (w.channel c).fd := by
    intro c
    by_cases hc : c = conn
    · subst hc
      rw [channel, onConnection_conns_self]
      exact hallowed.moves.fd_eq
    · rw [channel, onConnection_conns_of_ne hc]
  refine { h with
    coherent := h.channelOn_onConnection halive hallowed.moves
    phase := ?_
    tracks := h.tracks_onConnection halive hallowed
    live := ?_
    connecting := ?_
    connected := ?_
    distinct := ?_
    named := ?_ }
  · intro loop
    rcases onConnection_loops_cases w conn f loop with heq | heq <;> rw [heq]
    · exact h.phase loop
    · exact (h.phase loop).after _ _
  · intro c hlive
    rw [kept_onConnection]
    by_cases hc : c = conn
    · subst hc
      rw [Live, channel, state, onConnection_conns_self] at hlive
      exact ⟨halive, hallowed.kept hlive⟩
    · rw [Live, channel, state, onConnection_conns_of_ne hc] at hlive
      exact h.live c hlive
  · intro c
    by_cases hc : c = conn
    · subst hc
      rw [state, channel, onConnection_conns_self]
      exact hallowed.connecting
    · rw [state, channel, onConnection_conns_of_ne hc]
      exact h.connecting c
  · intro c
    by_cases hc : c = conn
    · subst hc
      rw [state, channel, onConnection_conns_self]
      exact hallowed.connected
    · rw [state, channel, onConnection_conns_of_ne hc]
      exact h.connected c
  · intro c d hc hd hsame
    rw [hfd, hfd] at hsame
    exact h.distinct c d hc hd hsame
  · intro c hc
    rw [onConnection_name]
    exact h.named c hc

end Server

end MuduoCore
