import MuduoCore.Poller.Coherence
import MuduoCore.TcpConnection.Updates

/-!
# What a connection does to its registration

The member functions of a connection reach the poller through its own channel only. Among the channels
of the loop they keep the poller in agreement with all of them, and once a channel is registered only
`connectDestroyed` takes it out again.
-/

namespace MuduoCore

variable {κ : Type*} [DecidableEq κ]

omit [DecidableEq κ] in
/-- Agreement reads the index of a channel, and its fd and interest where it is registered. -/
theorem EPollPoller.Coherent.congr {p : EPollPoller κ} {chan chan' : κ → Channel}
    (h : p.Coherent chan) (hindex : ∀ k, (chan' k).index = (chan k).index)
    (hsame : ∀ k, (chan k).index ≠ .kNew →
      (chan' k).fd = (chan k).fd ∧ (chan' k).events = (chan k).events) : p.Coherent chan' := by
  refine ⟨h.logged_nil, ?_, ?_, ?_,
    ?_⟩
  · intro k hk
    rw [hindex] at hk
    obtain ⟨hfd, hevents⟩ := hsame k (by rw [hk]; decide)
    rw [hfd, hevents]
    exact h.registered k hk
  · intro fd event hset
    obtain ⟨hfd, hadded⟩ := h.owner fd event hset
    rw [hindex, (hsame event.ptr (by rw [hadded]; decide)).1]
    exact ⟨hfd, hadded⟩
  · intro k hk
    rw [hindex] at hk
    rw [(hsame k hk).1]
    exact h.mapped k hk
  · intro fd k hmap
    obtain ⟨hfd, hk⟩ := h.mapped_owner fd k hmap
    rw [hindex, (hsame k hk).1]
    exact ⟨hfd, hk⟩

/-- The poller of the session agrees with the channels `chan` of its loop, where the session's own
channel stands for `chan self`, and no other registered channel has its fd. -/
structure Agrees (chan : κ → Channel) (s : Session κ) : Prop where
  coherent : s.poller.Coherent (Function.update chan s.self s.conn.channel)
  alone : ∀ other, other ≠ s.self → (chan other).index ≠ .kNew →
    (chan other).fd ≠ s.conn.channel.fd

theorem Agrees.fdFree {chan : κ → Channel} {s : Session κ} (h : Agrees chan s) :
    EPollPoller.FdFree (Function.update chan s.self s.conn.channel) s.self := by
  intro other hne hindex
  rw [Function.update_of_ne hne] at hindex ⊢
  rw [Function.update_self]
  exact h.alone other hne hindex

/-- Whatever the other channels of the loop are, the step keeps the poller in agreement. -/
structure Moves (s s' : Session κ) : Prop where
  self_eq : s'.self = s.self
  fd_eq : s'.conn.channel.fd = s.conn.channel.fd
  agrees : ∀ chan, Agrees chan s → Agrees chan s'

namespace Moves

variable {s s' s'' : Session κ}

theorem trans (hfst : Moves s s') (hsnd : Moves s' s'') : Moves s s'' :=
  ⟨hsnd.self_eq.trans hfst.self_eq, hsnd.fd_eq.trans hfst.fd_eq,
    fun chan h => hsnd.agrees chan (hfst.agrees chan h)⟩

theorem of_same (hself : s'.self = s.self) (hpoller : s'.poller = s.poller)
    (hfd : s'.conn.channel.fd = s.conn.channel.fd)
    (hevents : s'.conn.channel.events = s.conn.channel.events)
    (hindex : s'.conn.channel.index = s.conn.channel.index) : Moves s s' := by
  refine ⟨hself, hfd, fun chan h => ⟨?_, ?_⟩⟩
  · rw [hself, hpoller]
    refine h.coherent.congr (fun k => ?_) fun k _ => ?_ <;> by_cases hk : k = s.self
    all_goals simp [hk, hfd, hevents, hindex]
  · rw [hself, hfd]
    exact h.alone

theorem refl (s : Session κ) : Moves s s := of_same rfl rfl rfl rfl rfl

theorem onChannel_setEvents (s : Session κ) (events : EventMask) :
    Moves s (s.onChannel fun p ptr c => Channel.setEvents p ptr c events) := by
  refine ⟨rfl, Channel.setEvents_fd _ _ _ _, fun chan h => ⟨?_, ?_⟩⟩
  · have hset := h.coherent.setEvents h.fdFree events
    rwa [Function.update_self, Function.update_idem] at hset
  · intro other hne hindex
    exact (h.alone other hne hindex).trans_eq (Channel.setEvents_fd _ _ _ _).symm

theorem remove (s : Session κ) : Moves s s.remove := by
  refine ⟨rfl, rfl, fun chan h => ⟨?_, h.alone⟩⟩
  have hremove := h.coherent.remove h.fdFree
  rwa [Function.update_self, Function.update_idem] at hremove

end Moves

/-- A step of a registered connection that stays registered. -/
structure Keeps (s s' : Session κ) : Prop extends Moves s s' where
  index_ne : s.conn.channel.index ≠ .kNew → s'.conn.channel.index ≠ .kNew
  state_ne : s.conn.state ≠ .kConnecting → s'.conn.state ≠ .kConnecting

namespace Keeps

variable {s s' s'' : Session κ}

theorem trans (hfst : Keeps s s') (hsnd : Keeps s' s'') : Keeps s s'' :=
  ⟨hfst.toMoves.trans hsnd.toMoves, fun h => hsnd.index_ne (hfst.index_ne h),
    fun h => hsnd.state_ne (hfst.state_ne h)⟩

theorem of_conn (hself : s'.self = s.self) (hpoller : s'.poller = s.poller)
    (hchannel : s'.conn.channel = s.conn.channel) (hstate : s'.conn.state = s.conn.state) :
    Keeps s s' := by
  refine ⟨.of_same hself hpoller ?_ ?_ ?_, ?_, ?_⟩
  · rw [hchannel]
  · rw [hchannel]
  · rw [hchannel]
  · intro h
    rwa [hchannel]
  · intro h
    rwa [hstate]

theorem refl (s : Session κ) : Keeps s s := .of_conn rfl rfl rfl rfl

theorem emitWhen (s : Session κ) (cond : Bool) (event : Event) :
    Keeps s (s.emitWhen cond event) := by
  cases cond <;> exact .of_conn rfl rfl rfl rfl

theorem setState (s : Session κ) {state : StateE} (hstate : state ≠ .kConnecting) :
    Keeps s (s.setState state) :=
  ⟨.of_same rfl rfl rfl rfl rfl, id, fun _ => hstate⟩

theorem setEvents (s : Session κ) (events : EventMask) :
    Keeps s (s.onChannel fun p ptr c => Channel.setEvents p ptr c events) := by
  refine ⟨.onChannel_setEvents s events, ?_, id⟩
  intro _
  rw [Session.onChannel_conn, Channel.setEvents, EPollPoller.updateChannel_channel]
  exact EPollPoller.nextIndex_ne_kNew _

theorem handleClose (s : Session κ) : Keeps s s.handleClose :=
  (((setState s (by decide)).trans (setEvents _ _)).trans (emitWhen _ _ _)).trans (emitWhen _ _ _)

theorem handleRead (s : Session κ) (answer : Except Errno (List Byte)) :
    Keeps s (s.handleRead answer) := by
  have hinput : Keeps s { s with conn := { s.conn with
      inputBuffer := (s.conn.inputBuffer.readFd answer).1 } } := .of_conn rfl rfl rfl rfl
  simp only [Session.handleRead]
  split
  · exact hinput.trans (handleClose _)
  · exact hinput.trans (emitWhen _ _ _)
  · exact hinput

end Keeps

theorem Updates.keeps {s s' : Session κ} (h : Updates s s') : Keeps s s' := by
  induction h with
  | refl s => exact .refl s
  | trans _ _ ihfst ihsnd => exact ihfst.trans ihsnd
  | emit s => exact .of_conn rfl rfl rfl rfl
  | queueInLoop s task => exact .of_conn rfl rfl rfl rfl
  | setInputBuffer s buffer => exact .of_conn rfl rfl rfl rfl
  | setOutputBuffer s buffer => exact .of_conn rfl rfl rfl rfl
  | enableWriting s => exact .setEvents s _
  | disableWriting s => exact .setEvents s _
  | setDisconnecting s _ => exact .setState s (by decide)

/-! ### The beginning and the end of a registration -/

theorem connectEstablished_moves (s : Session κ) : Moves s s.connectEstablished := by
  have htie : Moves s (s.setState .kConnected).tie := .of_same rfl rfl rfl rfl rfl
  exact (htie.trans (.onChannel_setEvents _ _)).trans (Keeps.emitWhen _ _ _).toMoves

omit [DecidableEq κ] in
theorem connectEstablished_index (s : Session κ) :
    s.connectEstablished.conn.channel.index ≠ .kNew := by
  simp only [Session.connectEstablished, Session.emitWhen_conn, Session.enableReading,
    Session.onChannel_conn, Channel.enableReading, Channel.setEvents,
    EPollPoller.updateChannel_channel]
  exact EPollPoller.nextIndex_ne_kNew _

theorem connectDestroyed_moves (s : Session κ) : Moves s s.connectDestroyed := by
  unfold Session.connectDestroyed
  split
  · have hstate : StateE.kDisconnected ≠ .kConnecting := by decide
    have hdown := ((Keeps.setState s hstate).trans (Keeps.setEvents _ Channel.kNoneEvent)).trans
      (Keeps.emitWhen _ s.conn.connectionCallback (.connectionCallback false))
    exact hdown.toMoves.trans (.remove _)
  · exact .remove s

omit [DecidableEq κ] in
theorem connectDestroyed_index (s : Session κ) : s.connectDestroyed.conn.channel.index = .kNew := by
  unfold Session.connectDestroyed
  rfl

omit [DecidableEq κ] in
theorem connectDestroyed_state (s : Session κ) :
    s.connectDestroyed.conn.state = if s.conn.state = .kConnected then .kDisconnected
      else s.conn.state := by
  unfold Session.connectDestroyed
  split <;> simp [Session.remove, Session.disableAll]

end MuduoCore
