import MuduoCore.TcpConnection.Disconnected
import MuduoCore.TcpServer.Lifetime
import MuduoCore.TcpServer.Threads

/-!
# Thread confinement

The buffers and the channel of a connection, the poller of a loop and `connections_` have no lock. What
keeps the threads apart is that every functor waits in the queue of the loop that it is about, and that
every handler is on the stack of that loop's thread.
-/

namespace MuduoCore

/-! ### What a connection registers -/

section Registers

variable {κ : Type*}

/-- The kernel's list gets no entries but those of the session's own channel. -/
structure Registers (s s' : Session κ) : Prop where
  self_eq : s'.self = s.self
  entry : ∀ fd event, s'.poller.epollfd fd = some event →
    s.poller.epollfd fd = some event ∨ event.ptr = s.self

namespace Registers

variable {s s' s'' : Session κ}

theorem of_poller (hself : s'.self = s.self) (hpoller : s'.poller = s.poller) :
    Registers s s' := by
  refine ⟨hself, fun fd event hentry => .inl ?_⟩
  rwa [hpoller] at hentry

theorem trans (hfst : Registers s s') (hsnd : Registers s' s'') : Registers s s'' := by
  refine ⟨hsnd.self_eq.trans hfst.self_eq, ?_⟩
  intro fd event hentry
  rcases hsnd.entry fd event hentry with hold | hptr
  · exact hfst.entry fd event hold
  · exact .inr (hptr.trans hfst.self_eq)

end Registers

theorem epollCtl_entry {set set' : Nat → Option (EpollEvent κ)} {op : CtlOp} {fd : Nat}
    {event : EpollEvent κ} (hctl : epollCtl set op fd event = some set') {fd' : Nat}
    {event' : EpollEvent κ} (hentry : set' fd' = some event') :
    set fd' = some event' ∨ event' = event := by
  have hupdate : ∃ entry, set' = Function.update set fd entry ∧ (entry = some event ∨ entry = none) := by
    unfold epollCtl at hctl
    split at hctl
    · exact ⟨_, (Option.some.inj hctl).symm, .inl rfl⟩
    · exact ⟨_, (Option.some.inj hctl).symm, .inl rfl⟩
    · exact ⟨_, (Option.some.inj hctl).symm, .inr rfl⟩
    · cases hctl
  obtain ⟨entry, rfl, hnew⟩ := hupdate
  by_cases heq : fd' = fd
  · rw [heq, Function.update_self] at hentry
    rcases hnew with rfl | rfl
    · exact .inr (Option.some.inj hentry).symm
    · cases hentry
  · rw [Function.update_of_ne heq] at hentry
    exact .inl hentry

namespace EPollPoller

variable {p : EPollPoller κ} {ptr : κ} {c : Channel} {fd : Nat} {event : EpollEvent κ}

theorem update_entry {op : CtlOp} (hentry : (p.update op ptr c).epollfd fd = some event) :
    p.epollfd fd = some event ∨ event.ptr = ptr := by
  unfold update at hentry
  split at hentry
  · rename_i set hctl
    rcases epollCtl_entry hctl hentry with hold | rfl
    · exact .inl hold
    · exact .inr rfl
  · split at hentry <;> exact .inl hentry

theorem updateChannel_entry (hentry : (p.updateChannel ptr c).1.epollfd fd = some event) :
    p.epollfd fd = some event ∨ event.ptr = ptr := by
  unfold updateChannel at hentry
  split at hentry
  · have hnew := update_entry hentry
    exact hnew
  · exact update_entry hentry
  · split at hentry <;> exact update_entry hentry

theorem removeChannel_entry (hentry : (p.removeChannel ptr c).1.epollfd fd = some event) :
    p.epollfd fd = some event ∨ event.ptr = ptr := by
  unfold removeChannel at hentry
  dsimp only at hentry
  split at hentry
  · have herased := update_entry hentry
    exact herased
  · exact .inl hentry

end EPollPoller

namespace Registers

variable (s : Session κ)

theorem onChannel_setEvents (events : EventMask) :
    Registers s (s.onChannel fun p ptr c => Channel.setEvents p ptr c events) :=
  ⟨rfl, fun _ _ hentry => EPollPoller.updateChannel_entry hentry⟩

theorem remove : Registers s s.remove :=
  ⟨rfl, fun _ _ hentry => EPollPoller.removeChannel_entry hentry⟩

theorem emitWhen (cond : Bool) (event : Event) : Registers s (s.emitWhen cond event) := by
  cases cond <;> exact of_poller rfl rfl

end Registers

theorem Updates.registers {s s' : Session κ} (h : Updates s s') : Registers s s' := by
  induction h with
  | trans _ _ ihfst ihsnd => exact ihfst.trans ihsnd
  | enableWriting s => exact .onChannel_setEvents s _
  | disableWriting s => exact .onChannel_setEvents s _
  | _ => exact .of_poller rfl rfl

namespace Registers

variable (s : Session κ)

theorem connectEstablished : Registers s s.connectEstablished := by
  have htied : Registers s (s.setState .kConnected).tie := of_poller rfl rfl
  exact (htied.trans (onChannel_setEvents _ _)).trans (emitWhen _ _ _)

theorem handleClose : Registers s s.handleClose := by
  have hdown : Registers s (s.setState .kDisconnected) := of_poller rfl rfl
  exact ((hdown.trans (onChannel_setEvents _ _)).trans (emitWhen _ _ _)).trans (emitWhen _ _ _)

theorem connectDestroyed : Registers s s.connectDestroyed := by
  unfold Session.connectDestroyed
  split
  · have hdown : Registers s (s.setState .kDisconnected) := of_poller rfl rfl
    exact ((hdown.trans (onChannel_setEvents _ _)).trans (emitWhen _ _ _)).trans (remove _)
  · exact remove s

theorem handleRead (answer : Except Errno (List Byte)) : Registers s (s.handleRead answer) := by
  have hinput : Registers s
      { s with conn := { s.conn with inputBuffer := (s.conn.inputBuffer.readFd answer).1 } } :=
    of_poller rfl rfl
  simp only [Session.handleRead]
  split
  · exact hinput.trans (handleClose _)
  · exact hinput.trans (emitWhen _ _ _)
  · exact hinput

theorem run (file : Nat → List Byte) (member : Member) : Registers s (member.run file s) := by
  cases member with
  | connectEstablished => exact connectEstablished s
  | connectDestroyed => exact connectDestroyed s
  | handleClose => exact handleClose s
  | handleError => exact of_poller rfl rfl
  | handleRead answer => exact handleRead s answer
  | handleWrite answer => exact (Updates.handleWrite s answer).registers
  | sendInLoop data answer => exact (Updates.sendInLoop s data answer).registers
  | sendFileInLoop fileDescriptor offset count answer =>
      exact (Updates.sendFileInLoop s file fileDescriptor offset count answer).registers
  | shutdownInLoop => exact (Updates.shutdownInLoop s).registers

end Registers

/-! ### The calls that the log knows -/

/-- Neither the poller nor the channel is touched. -/
structure Untouched (s s' : Session κ) : Prop where
  poller_eq : s'.poller = s.poller
  channel_eq : s'.conn.channel = s.conn.channel

namespace Untouched

variable {s s' s'' : Session κ}

theorem refl (s : Session κ) : Untouched s s := ⟨rfl, rfl⟩

theorem trans (hfst : Untouched s s') (hsnd : Untouched s' s'') : Untouched s s'' :=
  ⟨hsnd.poller_eq.trans hfst.poller_eq, hsnd.channel_eq.trans hfst.channel_eq⟩

variable (s)

theorem emit (event : Event) : Untouched s (s.emit event) := ⟨rfl, rfl⟩

theorem emitWhen (cond : Bool) (event : Event) : Untouched s (s.emitWhen cond event) := by
  cases cond <;> exact ⟨rfl, rfl⟩

theorem queueWhen (cond : Bool) (task : Task) : Untouched s (s.queueWhen cond task) := by
  cases cond <;> exact ⟨rfl, rfl⟩

theorem attemptWrite (data : List Byte) (answer : Except Errno Nat) :
    Untouched s (s.attemptWrite data answer).session := by
  unfold Session.attemptWrite
  split
  · cases answer with
    | ok n => exact (emit s _).trans (queueWhen _ _ _)
    | error errno => exact emit s _
  · exact refl s

theorem bufferRest (hwriting : s.conn.channel.isWriting = true) (rest : List Byte) :
    Untouched s (s.bufferRest rest) := by
  unfold Session.bufferRest
  simp only [Session.setOutputBuffer_conn, Session.queueWhen_conn, hwriting, if_true]
  exact (queueWhen s _ _).trans ⟨rfl, rfl⟩

theorem sendInLoop {data : List Byte} {answer : Except Errno Nat}
    (hbuffers : ¬Member.Buffers s data answer) : Untouched s (s.sendInLoop data answer) := by
  have hattempt := attemptWrite s data answer
  unfold Session.sendInLoop
  split
  · exact refl s
  · rename_i hstate
    dsimp only
    split
    · rename_i hrest
      obtain ⟨hfault, hremaining⟩ := Bool.and_eq_true_iff.mp hrest
      -- the rest waits, and the channel is writing already
      have hwriting : s.conn.channel.isWriting = true := by
        by_contra hnot
        exact hbuffers ⟨hstate, Bool.eq_false_iff.mpr hnot, by simpa using hfault,
          of_decide_eq_true hremaining⟩
      rw [← hattempt.channel_eq] at hwriting
      exact hattempt.trans (bufferRest _ hwriting _)
    · exact hattempt

theorem sendFileInLoop (file : Nat → List Byte) (fileDescriptor offset count : Nat)
    (answer : Except Errno Nat) :
    Untouched s (s.sendFileInLoop file fileDescriptor offset count answer) := by
  unfold Session.sendFileInLoop
  split
  · exact refl s
  · split
    · cases answer with
      | ok n => exact ((emit s _).trans (queueWhen _ _ _)).trans (queueWhen _ _ _)
      | error errno => exact (emit s _).trans (queueWhen _ _ _)
    · exact queueWhen s _ _

theorem handleWrite {answer : Except Errno Nat} (hdrains : ¬Member.Drains s answer) :
    Untouched s (s.handleWrite answer) := by
  unfold Session.handleWrite
  split
  · rename_i hwriting
    cases answer with
    | error errno => exact emit s _
    | ok accepted =>
        dsimp only
        split
        · rename_i hsome
          split
          · -- the last bytes went out, and this is what `Drains` says
            rename_i hempty
            refine absurd ⟨hwriting, by omega, ?_⟩ hdrains
            have hleft : s.conn.outputBuffer.readableBytes
                - min accepted s.conn.outputBuffer.readableBytes = 0 := by
              have hlength := hempty
              rw [ValidBuffer.readableBytes_eq] at hlength
              simpa [ValidBuffer.readableBytes_eq, Session.setOutputBuffer] using hlength
            omega
          · exact (emit s _).trans ⟨rfl, rfl⟩
        · exact emit s _
  · exact refl s

theorem shutdownInLoop : Untouched s s.shutdownInLoop := by
  unfold Session.shutdownInLoop
  split
  · exact refl s
  · exact emit s _

theorem handleRead {answer : Except Errno (List Byte)}
    (hmore : (s.conn.inputBuffer.readFd answer).2 ≠ .ok 0) :
    Untouched s (s.handleRead answer) := by
  have hinput : Untouched s
      { s with conn := { s.conn with inputBuffer := (s.conn.inputBuffer.readFd answer).1 } } :=
    ⟨rfl, rfl⟩
  simp only [Session.handleRead]
  split
  · rename_i hzero
    exact absurd hzero hmore
  · exact hinput.trans (emitWhen _ _ _)
  · exact hinput

end Untouched

/-- A call without `updateChannel` and `removeChannel` leaves the poller and the channel alone. -/
theorem Member.untouched (file : Nat → List Byte) (s : Session κ) (member : Member)
    (hupdate : .updateChannel ∉ member.executes s) (hremove : .removeChannel ∉ member.executes s) :
    Untouched s (member.run file s) := by
  cases member with
  | connectEstablished => exact absurd (by simp [executes]) hupdate
  | connectDestroyed => exact absurd (by simp [executes]) hremove
  | handleClose => exact absurd (by simp [executes]) hupdate
  | handleError => exact .refl s
  | handleRead answer =>
      apply Untouched.handleRead
      intro hzero
      apply hupdate
      simp [executes, hzero]
  | handleWrite answer =>
      apply Untouched.handleWrite
      intro hdrains
      apply hupdate
      simp [executes, hdrains]
  | sendInLoop data answer =>
      apply Untouched.sendInLoop
      intro hbuffers
      apply hupdate
      simp [executes, hbuffers]
  | sendFileInLoop fileDescriptor offset count answer =>
      exact .sendFileInLoop s file fileDescriptor offset count answer
  | shutdownInLoop => exact .shutdownInLoop s

end Registers

/-! ### Where things belong -/

/-- The connections that there are, each with its loop. -/
structure Placement where
  accepted : Nat
  loopOf : Nat → Nat

/-- `loop` is the loop of the connection. -/
def Placement.Belongs (p : Placement) (loop conn : Nat) : Prop :=
  conn < p.accepted ∧ p.loopOf conn = loop

/-- The thread is that of the connection's loop. -/
def Placement.Hosts {θ : Type*} (p : Placement) (thread : ServerThread θ) (conn : Nat) : Prop :=
  conn < p.accepted ∧ thread = .loop (p.loopOf conn)

/-- The functor may wait in the queue of the loop. -/
def LoopFunctor.Fits (p : Placement) (loop : Nat) : LoopFunctor → Prop
  | .server (.connectEstablished conn) | .server (.connectDestroyed conn) | .server (.task conn _)
  | .sendInLoop conn _ | .shutdownInLoop conn => p.Belongs loop conn
  | .server (.removeConnectionInLoop conn) => loop = 0 ∧ conn < p.accepted
  | .server .user => True
  | .listen => loop = 0

/-- The frame may be on the stack of the thread. -/
def ThreadFrame.Fits {θ : Type*} (p : Placement) (thread : ServerThread θ) : ThreadFrame → Prop
  | .frame (.handleClose conn) | .frame (.handleError conn) | .frame (.handleRead conn)
  | .frame (.handleWrite conn) | .frame (.removeConnection conn) => p.Hosts thread conn
  | .send conn _ | .sendFile conn _ _ _ | .shutdown conn | .setState conn => conn < p.accepted
  | .destructor | .joinPool _ => thread = .loop 0
  | .frame .userCode | .startPool _ | .listen => True

def ActiveChannel.Fits (p : Placement) (loop : Nat) : ActiveChannel → Prop
  | .connection conn _ => p.Belongs loop conn
  | .acceptor => loop = 0
  | .wakeup => True

/-- The thread may execute the function. -/
def Execution.Fits {θ : Type*} (p : Placement) (thread : ServerThread θ) : Execution → Prop
  | .member conn _ | .removeConnection conn => p.Hosts thread conn
  | .removeConnectionInLoop _ | .insert _ | .erase _ | .getNextLoop | .listen => thread = .loop 0

/-- The loop on whose thread the function is to be executed. -/
def Execution.home (loopOf : Nat → Nat) : Execution → Nat
  | .member conn _ | .removeConnection conn => loopOf conn
  | .removeConnectionInLoop _ | .insert _ | .erase _ | .getNextLoop | .listen => 0

theorem Execution.Fits.home {θ : Type*} {p : Placement} {thread : ServerThread θ}
    {execution : Execution} (h : execution.Fits p thread) :
    thread = .loop (execution.home p.loopOf) := by
  cases execution with
  | member conn function => exact h.2
  | removeConnection conn => exact h.2
  | _ => exact h

structure IoLoop.Fits (p : Placement) (loop : Nat) (l : IoLoop) : Prop where
  registered : ∀ fd event, l.poller.epollfd fd = some event → p.Belongs loop event.ptr
  active : ∀ a ∈ l.activeChannels, a.Fits p loop
  queued : ∀ functor ∈ l.queue.waiting, functor.Fits p loop

/-! ### New connections leave the others where they are -/

structure Placement.Extends (p' p : Placement) : Prop where
  accepted_le : p.accepted ≤ p'.accepted
  loopOf_eq : ∀ conn < p.accepted, p'.loopOf conn = p.loopOf conn

namespace Placement.Extends

variable {θ : Type*} {p p' : Placement} {loop conn : Nat} {thread : ServerThread θ}
  (h : p'.Extends p)

include h

theorem belongs (hbelongs : p.Belongs loop conn) : p'.Belongs loop conn :=
  ⟨hbelongs.1.trans_le h.accepted_le, (h.loopOf_eq conn hbelongs.1).trans hbelongs.2⟩

theorem hosts (hhosts : p.Hosts thread conn) : p'.Hosts thread conn := by
  refine ⟨hhosts.1.trans_le h.accepted_le, ?_⟩
  rw [h.loopOf_eq conn hhosts.1]
  exact hhosts.2

theorem functor {functor : LoopFunctor} (hfits : functor.Fits p loop) : functor.Fits p' loop := by
  cases functor with
  | server functor =>
      cases functor with
      | removeConnectionInLoop conn => exact ⟨hfits.1, hfits.2.trans_le h.accepted_le⟩
      | user => trivial
      | _ => exact h.belongs hfits
  | listen => exact hfits
  | _ => exact h.belongs hfits

theorem frame {frame : ThreadFrame} (hfits : frame.Fits p thread) : frame.Fits p' thread := by
  cases frame with
  | frame frame =>
      cases frame with
      | userCode => trivial
      | _ => exact h.hosts hfits
  | startPool left => trivial
  | listen => trivial
  | destructor => exact hfits
  | joinPool loop => exact hfits
  | _ => exact Nat.lt_of_lt_of_le hfits h.accepted_le

theorem active {a : ActiveChannel} (hfits : a.Fits p loop) : a.Fits p' loop := by
  cases a with
  | connection conn revents => exact h.belongs hfits
  | acceptor => exact hfits
  | wakeup => trivial

theorem execution {execution : Execution} (hfits : execution.Fits p thread) :
    execution.Fits p' thread := by
  cases execution with
  | member conn function => exact h.hosts hfits
  | removeConnection conn => exact h.hosts hfits
  | _ => exact hfits

theorem ioLoop {l : IoLoop} (hfits : l.Fits p loop) : l.Fits p' loop :=
  ⟨fun fd event hentry => h.belongs (hfits.registered fd event hentry),
    fun a ha => h.active (hfits.active a ha),
    fun functor hfunctor => h.functor (hfits.queued functor hfunctor)⟩

end Placement.Extends

namespace ThreadedServer

variable {θ : Type*}

def placement (w : ThreadedServer θ) : Placement := ⟨w.accepted, w.loopOf⟩

structure Confined (w : ThreadedServer θ) : Prop where
  created : ∀ conn, w.alive conn = true → conn < w.accepted
  loops : ∀ loop, (w.loops loop).Fits w.placement loop
  stacked : ∀ thread, ∀ frame ∈ w.stack thread, frame.Fits w.placement thread
  logged : ∀ entry ∈ w.log, entry.execution.Fits w.placement entry.thread

theorem confined_new : Confined (new : ThreadedServer θ) where
  created conn halive := by cases halive
  loops loop := by
    refine ⟨?_, ?_, ?_⟩
    · intro fd event hentry
      cases hentry
    · intro a ha
      cases ha
    · intro functor hfunctor
      cases hfunctor
  stacked thread frame hframe := by
    rw [List.mem_singleton.mp hframe]
    trivial
  logged entry hentry := by cases hentry

/-! ### What the pieces of a step keep -/

namespace Confined

variable {w : ThreadedServer θ}

/-- The other parts of the state play no role. -/
theorem of_same {w' : ThreadedServer θ} (h : Confined w) (hplacement : w'.placement = w.placement)
    (halive : w'.alive = w.alive) (hloops : w'.loops = w.loops) (hstack : w'.stack = w.stack)
    (hlog : w'.log = w.log) : Confined w' := by
  refine ⟨?_, ?_, ?_, ?_⟩
  · rw [halive, show w'.accepted = w.accepted from congrArg Placement.accepted hplacement]
    exact h.created
  · rw [hplacement, hloops]
    exact h.loops
  · rw [hplacement, hstack]
    exact h.stacked
  · rw [hplacement, hlog]
    exact h.logged

theorem dangling (h : Confined w) : Confined w.dangling := h.of_same rfl rfl rfl rfl rfl

theorem record (h : Confined w) {thread : ServerThread θ} {executions : List Execution}
    (hfits : ∀ e ∈ executions, e.Fits w.placement thread) :
    Confined (w.record thread executions) := by
  refine ⟨h.created, h.loops, h.stacked, ?_⟩
  intro entry hentry
  rcases List.mem_append.mp hentry with hold | hnew
  · exact h.logged entry hold
  · obtain ⟨e, he, rfl⟩ := List.mem_map.mp hnew
    exact hfits e he

theorem modifyLoop (h : Confined w) {loop : Nat} {f : IoLoop → IoLoop}
    (hfits : (f (w.loops loop)).Fits w.placement loop) : Confined (w.modifyLoop loop f) := by
  refine ⟨h.created, ?_, h.stacked, h.logged⟩
  intro other
  by_cases heq : other = loop
  · rw [heq, modifyLoop_loops_self]
    exact hfits
  · rw [modifyLoop_loops_of_ne w heq]
    exact h.loops other

theorem queueInLoop (h : Confined w) {loop : Nat} {functors : List LoopFunctor}
    (hfits : ∀ functor ∈ functors, functor.Fits w.placement loop) :
    Confined (w.queueInLoop loop functors) := by
  unfold ThreadedServer.queueInLoop
  split
  · exact h.dangling
  · apply h.modifyLoop
    refine ⟨(h.loops loop).registered, (h.loops loop).active, ?_⟩
    intro functor hfunctor
    rw [BatchQueue.waiting_push] at hfunctor
    rcases List.mem_append.mp hfunctor with hold | hnew
    · exact (h.loops loop).queued functor hold
    · exact hfits functor hnew

variable [DecidableEq θ]

theorem updateStack (h : Confined w) {thread : ServerThread θ} {stack : List ThreadFrame}
    (hfits : ∀ frame ∈ stack, frame.Fits w.placement thread) :
    Confined { w with stack := Function.update w.stack thread stack } := by
  refine ⟨h.created, h.loops, ?_, h.logged⟩
  intro other frame hframe
  simp only at hframe
  by_cases heq : other = thread
  · rw [heq, Function.update_self] at hframe
    rw [heq]
    exact hfits frame hframe
  · rw [Function.update_of_ne heq] at hframe
    exact h.stacked other frame hframe

theorem pushFrames (h : Confined w) {thread : ServerThread θ} {frames : List ThreadFrame}
    (hfits : ∀ frame ∈ frames, frame.Fits w.placement thread) : Confined (w.pushFrames thread frames) := by
  apply h.updateStack
  intro frame hframe
  rcases List.mem_append.mp hframe with hnew | hold
  · exact hfits frame hnew
  · exact h.stacked thread frame hold

theorem popFrame (h : Confined w) (thread : ServerThread θ) : Confined (w.popFrame thread) := by
  apply h.updateStack
  intro frame hframe
  exact h.stacked thread frame (List.mem_of_mem_tail hframe)

/-! ### Calls -/

variable {thread : ServerThread θ} {loop conn : Nat} {file : Nat → List Byte}
  {config : ServerConfig} {write : Except Errno Nat}

theorem after (h : Confined w) (hconn : conn < w.accepted) {s : Session Nat}
    (hregisters : Registers (w.session conn) s) :
    Confined (w.after (.loop (w.loopOf conn)) conn s) := by
  have hfits := h.loops (w.loopOf conn)
  have hpolled : Confined ({ w with
      conns := Function.update w.conns conn s.conn }.modifyLoop (w.loopOf conn)
        fun l => { l with poller := s.poller }) := by
    have hconns : Confined { w with conns := Function.update w.conns conn s.conn } :=
      h.of_same rfl rfl rfl rfl rfl
    apply hconns.modifyLoop
    refine ⟨?_, hfits.active, hfits.queued⟩
    intro fd event hentry
    rcases hregisters.entry fd event hentry with hold | hptr
    · exact hfits.registered fd event hold
    · rw [hptr]
      exact ⟨hconn, rfl⟩
  refine (hpolled.queueInLoop ?_).pushFrames ?_
  · intro functor hfunctor
    obtain ⟨task, -, rfl⟩ := List.mem_map.mp hfunctor
    exact ⟨hconn, rfl⟩
  · intro frame hframe
    obtain ⟨callback, hcallback, rfl⟩ := List.mem_map.mp hframe
    unfold ThreadedServer.queueInLoop
    split
    all_goals
      rcases ServerLoop.mem_callbackFrames hcallback with rfl | ⟨rfl, -⟩
      · trivial
      · exact ⟨hconn, rfl⟩

theorem callMember (h : Confined w) (hconn : conn < w.accepted)
    (hthread : thread = .loop (w.loopOf conn)) (member : Member) :
    Confined (w.callMember file thread conn member) := by
  subst hthread
  unfold ThreadedServer.callMember
  split
  · have hentered : Confined (w.record (.loop (w.loopOf conn))
        ((member.executes (w.session conn)).map (.member conn))) := by
      apply h.record
      intro e he
      obtain ⟨function, -, rfl⟩ := List.mem_map.mp he
      exact ⟨hconn, rfl⟩
    exact hentered.after hconn (Registers.run (w.session conn) file member)
  · exact h.dangling

omit [DecidableEq θ] in
theorem removeConnectionInLoop (h : Confined w) (hconn : conn < w.accepted) :
    Confined (w.removeConnectionInLoop (.loop 0) conn) := by
  have hentered : Confined (w.record (.loop 0) [.removeConnectionInLoop conn]) := by
    apply h.record
    intro e he
    rw [List.mem_singleton.mp he]
    rfl
  unfold ThreadedServer.removeConnectionInLoop
  dsimp only
  split
  · exact hentered.dangling
  · have herased : Confined ((w.record (.loop 0) [.removeConnectionInLoop conn]).record (.loop 0)
        [.erase conn]) := by
      apply hentered.record
      intro e he
      rw [List.mem_singleton.mp he]
      rfl
    have hunmapped : Confined { (w.record (.loop 0)
        [.removeConnectionInLoop conn]).record (.loop 0) [.erase conn] with
      connections := Function.update w.connections (w.name conn) none } :=
      herased.of_same rfl rfl rfl rfl rfl
    apply hunmapped.queueInLoop
    intro functor hfunctor
    rw [List.mem_singleton.mp hfunctor]
    exact ⟨hconn, rfl⟩

/-- A functor is called on the thread of the loop in whose queue it was. -/
theorem callFunctor (h : Confined w) {functor : LoopFunctor} (hfits : functor.Fits w.placement loop) :
    Confined (w.callFunctor file (.loop loop) write functor) := by
  have hcall : ∀ {conn : Nat}, w.placement.Belongs loop conn → ∀ member,
      Confined (w.callMember file (.loop loop) conn member) := by
    intro conn hbelongs member
    exact h.callMember hbelongs.1 (congrArg ServerThread.loop hbelongs.2.symm) member
  have huser : Confined (w.pushFrames (.loop loop) [.frame .userCode]) := by
    apply h.pushFrames
    intro frame hframe
    rw [List.mem_singleton.mp hframe]
    trivial
  cases functor with
  | server functor =>
      cases functor with
      | connectEstablished conn => exact hcall hfits _
      | connectDestroyed conn => exact hcall hfits _
      | removeConnectionInLoop conn =>
          obtain ⟨rfl, hconn⟩ := hfits
          exact h.removeConnectionInLoop hconn
      | task conn task =>
          cases task with
          | sendFileInLoop fileDescriptor offset count => exact hcall hfits _
          | writeCompleteCallback => exact huser
          | highWaterMarkCallback length => exact huser
      | user => exact huser
  | sendInLoop conn data => exact hcall hfits _
  | shutdownInLoop conn => exact hcall hfits _
  | listen =>
      obtain rfl : loop = 0 := hfits
      simp only [ThreadedServer.callFunctor]
      split
      · exact h.dangling
      · have hlistened : Confined (w.record (.loop 0) [.listen]) := by
          apply h.record
          intro e he
          rw [List.mem_singleton.mp he]
          rfl
        exact hlistened.of_same rfl rfl rfl rfl rfl

/-- Whatever thread calls `runInLoop`, the functor ends up where it belongs. -/
theorem runInLoop (h : Confined w) {functor : LoopFunctor} (hfits : functor.Fits w.placement loop) :
    Confined (w.runInLoop file thread loop write functor) := by
  unfold ThreadedServer.runInLoop
  split
  · rename_i hthread
    rw [hthread]
    exact h.callFunctor hfits
  · apply h.queueInLoop
    intro other hother
    rw [List.mem_singleton.mp hother]
    exact hfits

theorem removeConnection (h : Confined w) (hhosts : w.placement.Hosts thread conn) :
    Confined (w.removeConnection file thread conn) := by
  have hentered : Confined (w.record thread [.removeConnection conn]) := by
    apply h.record
    intro e he
    rw [List.mem_singleton.mp he]
    exact hhosts
  unfold ThreadedServer.removeConnection
  dsimp only
  split
  · exact hentered.dangling
  · exact hentered.runInLoop ⟨rfl, hhosts.1⟩

omit [DecidableEq θ] in
theorem insertConnection (h : Confined w) (sockfd : Nat) :
    Confined (w.insertConnection config (.loop 0) sockfd) := by
  have hentered : Confined (w.record (.loop 0) [.getNextLoop, .insert w.accepted]) := by
    apply h.record
    intro e he
    rcases List.mem_pair.mp he with rfl | rfl <;> rfl
  have hextends : Placement.Extends
      ⟨w.accepted + 1, Function.update w.loopOf w.accepted w.getNextLoop.1⟩ w.placement := by
    refine ⟨Nat.le_succ _, ?_⟩
    intro conn hconn
    exact Function.update_of_ne (Nat.ne_of_lt hconn) ..
  refine ⟨?_, ?_, ?_, ?_⟩
  · intro conn halive
    simp only [ThreadedServer.insertConnection] at halive
    by_cases heq : conn = w.accepted
    · exact heq ▸ Nat.lt_succ_self conn
    · rw [Function.update_of_ne heq] at halive
      exact Nat.lt_succ_of_lt (h.created conn halive)
  · exact fun loop => hextends.ioLoop (h.loops loop)
  · exact fun thread frame hframe => hextends.frame (h.stacked thread frame hframe)
  · exact fun entry hentry => hextends.execution (hentered.logged entry hentry)

theorem newConnection (h : Confined w) (sockfd : Nat) :
    Confined (w.newConnection file config (.loop 0) sockfd) :=
  (h.insertConnection sockfd).runInLoop ⟨Nat.lt_succ_self _, Function.update_self ..⟩

/-! ### Steps -/

theorem handleEvent (h : Confined w) {a : ActiveChannel} (hfits : a.Fits w.placement loop)
    (accepted : Option Nat) : Confined (w.handleEvent file config loop accepted a) := by
  cases a with
  | connection conn revents =>
      simp only [ThreadedServer.handleEvent]
      split
      · apply h.pushFrames
        intro frame hframe
        obtain ⟨handler, hhandler, rfl⟩ := List.mem_map.mp hframe
        have hevent := event_of_mem_eventFrames hhandler
        have hhosts : w.placement.Hosts (.loop loop : ServerThread θ) conn :=
          ⟨hfits.1, congrArg ServerThread.loop hfits.2.symm⟩
        cases handler with
        | removeConnection other => cases hevent
        | userCode => cases hevent
        | _ => exact Option.some.inj hevent ▸ hhosts
      · exact h.dangling
  | acceptor =>
      obtain rfl : loop = 0 := hfits
      simp only [ThreadedServer.handleEvent]
      split
      · exact h.dangling
      · cases accepted with
        | none => exact h
        | some sockfd => exact h.newConnection sockfd
  | wakeup => exact h

/-- A call on a connection that a thread makes through its `TcpConnectionPtr`. -/
theorem call (h : Confined w) {functor : LoopFunctor}
    (hfits : functor.Fits w.placement (w.loopOf conn)) :
    Confined (if w.alive conn then w.runInLoop file thread (w.loopOf conn) write functor
      else w.dangling) := by
  split
  · exact h.runInLoop hfits
  · exact h.dangling

theorem runFrame (h : Confined w) {w' : ThreadedServer θ} {read : Except Errno (List Byte)}
    {frame : ThreadFrame} (hfits : frame.Fits w.placement thread)
    (hstep : w.runFrame file thread read write frame = some w') : Confined w' := by
  have hpush : ∀ {v : ThreadedServer θ} {frame : ThreadFrame}, Confined v →
      frame.Fits v.placement thread → Confined (v.pushFrames thread [frame]) := by
    intro v frame hv hframe
    apply hv.pushFrames
    intro other hother
    rwa [List.mem_singleton.mp hother]
  cases frame with
  | frame frame =>
      cases frame with
      | handleClose conn =>
          obtain rfl := Option.some.inj hstep
          exact h.callMember hfits.1 hfits.2 _
      | handleError conn =>
          obtain rfl := Option.some.inj hstep
          exact h.callMember hfits.1 hfits.2 _
      | handleRead conn =>
          obtain rfl := Option.some.inj hstep
          exact h.callMember hfits.1 hfits.2 _
      | handleWrite conn =>
          obtain rfl := Option.some.inj hstep
          exact h.callMember hfits.1 hfits.2 _
      | removeConnection conn =>
          obtain rfl := Option.some.inj hstep
          exact h.removeConnection hfits
      | userCode =>
          obtain rfl := Option.some.inj hstep
          exact h
  | send conn data =>
      obtain rfl := Option.some.inj hstep
      exact h.call ⟨hfits, rfl⟩
  | sendFile conn fileDescriptor offset count =>
      obtain rfl := Option.some.inj hstep
      exact h.call ⟨hfits, rfl⟩
  | shutdown conn =>
      obtain rfl := Option.some.inj hstep
      split
      · exact hpush (h.of_same rfl rfl rfl rfl rfl) hfits
      · exact h.dangling
  | setState conn =>
      obtain rfl := Option.some.inj hstep
      exact h.call ⟨hfits, rfl⟩
  | startPool left =>
      obtain rfl := Option.some.inj hstep
      split
      · exact h.dangling
      · split
        · exact hpush h trivial
        · exact hpush (h.of_same rfl rfl rfl rfl rfl) trivial
  | listen =>
      obtain rfl := Option.some.inj hstep
      split
      · exact h.dangling
      · exact h.runInLoop rfl
  | destructor =>
      obtain ⟨-, rfl⟩ := guarded_eq_some.mp hstep
      exact hpush h hfits
  | joinPool loop =>
      simp only [ThreadedServer.runFrame] at hstep
      split at hstep
      · obtain rfl := Option.some.inj hstep
        exact h.of_same rfl rfl rfl rfl rfl
      · split at hstep
        · obtain rfl := Option.some.inj hstep
          exact hpush h hfits
        · obtain rfl := Option.some.inj hstep
          have hquit : Confined (w.modifyLoop loop fun l => { l with quit := true }) :=
            h.modifyLoop ⟨(h.loops loop).registered, (h.loops loop).active, (h.loops loop).queued⟩
          exact hpush hquit hfits

omit [DecidableEq θ] in
/-- What the kernel reports to a loop is in the list that its connections registered. -/
theorem reported (h : Confined w) {a : ActiveChannel} (hreports : w.Reports loop a) :
    a.Fits w.placement loop := by
  cases a with
  | connection conn revents =>
      obtain ⟨event, hentry, rfl⟩ := Option.map_eq_some_iff.mp hreports
      exact (h.loops loop).registered _ event hentry
  | acceptor => exact hreports.1
  | wakeup => trivial

theorem mem_waiting_of_todo {q : BatchQueue LoopFunctor} {functor : LoopFunctor}
    {rest : List LoopFunctor} (htodo : q.todo = functor :: rest) : functor ∈ q.waiting := by
  rw [BatchQueue.waiting_next htodo]
  exact List.mem_cons_self

theorem move {numThreads : Nat} {w' : ThreadedServer θ} {action : ThreadedAction θ}
    (h : Confined w) (hstep : w.move file config numThreads action = some w') : Confined w' := by
  have hcall : ∀ {thread : ServerThread θ} {frame : ThreadFrame} {p : Prop} [Decidable p],
      frame.Fits w.placement thread →
      Confined (if p then w.pushFrames thread [frame] else w) := by
    intro thread frame p _ hframe
    split
    · apply h.pushFrames
      intro other hother
      rwa [List.mem_singleton.mp hother]
    · exact h
  cases action with
  | start thread =>
      obtain ⟨-, rfl⟩ := guarded_eq_some.mp hstep
      split
      · have hstarted : Confined { w with started := w.started + 1 } :=
          h.of_same rfl rfl rfl rfl rfl
        apply hstarted.pushFrames
        intro frame hframe
        unfold startFrames at hframe
        split at hframe
        · rcases List.mem_pair.mp hframe with rfl | rfl <;> trivial
        · rw [List.mem_singleton.mp hframe]
          trivial
      · exact h.of_same rfl rfl rfl rfl rfl
  | send thread conn data =>
      obtain ⟨⟨-, halive⟩, rfl⟩ := guarded_eq_some.mp hstep
      exact hcall (h.created conn halive)
  | sendFile thread conn fileDescriptor offset count =>
      obtain ⟨⟨-, halive⟩, rfl⟩ := guarded_eq_some.mp hstep
      exact hcall (h.created conn halive)
  | shutdown thread conn =>
      obtain ⟨⟨-, halive⟩, rfl⟩ := guarded_eq_some.mp hstep
      exact hcall (h.created conn halive)
  | queueInLoop thread loop =>
      obtain ⟨-, rfl⟩ := guarded_eq_some.mp hstep
      apply h.queueInLoop
      intro functor hfunctor
      rw [List.mem_singleton.mp hfunctor]
      trivial
  | destroyServer =>
      obtain ⟨-, rfl⟩ := guarded_eq_some.mp hstep
      have hbegun : Confined { w with destroying := true } := h.of_same rfl rfl rfl rfl rfl
      apply hbegun.pushFrames
      intro frame hframe
      rw [List.mem_singleton.mp hframe]
      rfl
  | destroyItem conn =>
      obtain ⟨⟨-, hconn, -⟩, rfl⟩ := guarded_eq_some.mp hstep
      have hreset : Confined { w with
          connections := Function.update w.connections (w.name conn) none } :=
        h.of_same rfl rfl rfl rfl rfl
      exact hreset.runInLoop ⟨hconn, rfl⟩
  | frame thread read write =>
      obtain ⟨frame, rest, hstack, hrun⟩ := move_frame hstep
      have hfits : frame.Fits w.placement thread := by
        apply h.stacked
        rw [hstack]
        exact List.mem_cons_self
      exact (h.popFrame thread).runFrame hfits hrun
  | poll loop active =>
      obtain ⟨⟨-, -, -, hreports⟩, rfl⟩ := guarded_eq_some.mp hstep
      apply h.modifyLoop
      exact ⟨(h.loops loop).registered, fun a ha => h.reported (hreports a ha),
        (h.loops loop).queued⟩
  | dispatch loop accepted =>
      obtain ⟨a, rest, hactive, -, rfl⟩ := move_dispatch hstep
      have hfits := (h.loops loop).active
      rw [hactive] at hfits
      have hrest : Confined (w.modifyLoop loop fun l => { l with activeChannels := rest }) :=
        h.modifyLoop ⟨(h.loops loop).registered,
          fun b hb => hfits b (List.mem_cons_of_mem a hb), (h.loops loop).queued⟩
      exact hrest.handleEvent (hfits a List.mem_cons_self) accepted
  | doPendingFunctors loop =>
      obtain ⟨-, rfl⟩ := guarded_eq_some.mp hstep
      apply h.modifyLoop
      refine ⟨(h.loops loop).registered, (h.loops loop).active, ?_⟩
      intro functor hfunctor
      apply (h.loops loop).queued
      rcases List.mem_append.mp hfunctor with hbatch | hpending
      · exact List.mem_append_right _ hbatch
      · cases hpending
  | runFunctor loop write =>
      obtain ⟨functor, rest, htodo, -, rfl⟩ := move_runFunctor hstep
      have hqueued := (h.loops loop).queued
      have hnext : Confined (w.modifyLoop loop fun l => { l with queue := l.queue.next }) := by
        apply h.modifyLoop
        refine ⟨(h.loops loop).registered, (h.loops loop).active, ?_⟩
        intro other hother
        apply hqueued
        rw [BatchQueue.waiting_next htodo]
        exact List.mem_cons_of_mem _ hother
      exact hnext.callFunctor (hqueued functor (mem_waiting_of_todo htodo))
  | endBatch loop =>
      obtain ⟨⟨-, -, htodo⟩, rfl⟩ := guarded_eq_some.mp hstep
      apply h.modifyLoop
      refine ⟨(h.loops loop).registered, (h.loops loop).active, ?_⟩
      rw [BatchQueue.waiting_finish htodo]
      exact (h.loops loop).queued
  | exit loop =>
      obtain ⟨-, rfl⟩ := guarded_eq_some.mp hstep
      apply h.modifyLoop
      exact ⟨(h.loops loop).registered, (h.loops loop).active, (h.loops loop).queued⟩
  | destroy conn =>
      obtain rfl := Option.some.inj hstep
      have hdead : Confined { w with alive := Function.update w.alive conn false } := by
        refine ⟨?_, h.loops, h.stacked, h.logged⟩
        intro other halive
        simp only at halive
        by_cases heq : other = conn
        · rw [heq, Function.update_self] at halive
          cases halive
        · rw [Function.update_of_ne heq] at halive
          exact h.created other halive
      apply hdead.modifyLoop
      have hfits := h.loops (w.loopOf conn)
      refine ⟨?_, hfits.active, hfits.queued⟩
      intro fd event hentry
      simp only [closeFd] at hentry
      split at hentry
      · cases hentry
      · exact hfits.registered fd event hentry

end Confined

variable [DecidableEq θ] {file : Nat → List Byte} {config : ServerConfig} {numThreads : Nat}

theorem confined_of_reachable {w : ThreadedServer θ}
    (hreach : (system file config numThreads).Reachable w) : Confined w := by
  apply hreach.invariant
  · rintro v rfl
    exact confined_new
  · intro v action v' hv _ hstep
    simp only [system, step] at hstep
    split at hstep
    · cases hstep
    · exact hv.move hstep

/-- Every function of a connection is executed on the thread of its loop, and every function of the
server that touches `connections_`, the pool or the acceptor on the thread of the main loop. -/
theorem executed_at_home {w : ThreadedServer θ}
    (hreach : (system file config numThreads).Reachable w) :
    ∀ entry ∈ w.log, entry.thread = .loop (entry.execution.home w.loopOf) := by
  intro entry hentry
  exact ((confined_of_reachable hreach).logged entry hentry).home

/-- A thread of its own starts the server and sends to a connection of the sub loop. -/
theorem executed_at_home_send :
    ∃ w : ThreadedServer Unit,
      (system (fun _ => []) Server.echoServer 1).exec new
        [.start (.user ()), .frame (.user ()) (.ok []) (.ok 0), .frame (.user ()) (.ok []) (.ok 0),
          .frame (.user ()) (.ok []) (.ok 0), .frame (.loop 0) (.ok []) (.ok 0), .poll 0 [.wakeup],
          .dispatch 0 none, .doPendingFunctors 0, .runFunctor 0 (.ok 0), .endBatch 0,
          .poll 0 [.acceptor], .dispatch 0 (some 7), .frame (.loop 1) (.ok []) (.ok 0),
          .poll 1 [.wakeup], .dispatch 1 none, .doPendingFunctors 1, .runFunctor 1 (.ok 0),
          .frame (.loop 1) (.ok []) (.ok 0), .endBatch 1, .send (.user ()) 0 [1, 2],
          .frame (.user ()) (.ok []) (.ok 0), .poll 1 [.wakeup], .dispatch 1 none,
          .doPendingFunctors 1, .runFunctor 1 (.ok 2)] = some w ∧
      w.log.map (·.execution) = [.listen, .getNextLoop, .insert 0, .member 0 .connectEstablished,
        .member 0 .updateChannel, .member 0 .sendInLoop] ∧
      ∀ entry ∈ w.log, entry.thread = .loop (entry.execution.home w.loopOf) := by
  apply System.exists_exec
  · exact ⟨_, rfl, rfl⟩
  · intro w hw _
    exact executed_at_home (System.reachable_of_exec rfl hw)

end ThreadedServer

end MuduoCore
