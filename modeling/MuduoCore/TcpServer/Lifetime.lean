import MuduoCore.TcpServer.Invariant

/-!
# Registered channels belong to living connections

Each step of the server keeps the invariant, whatever the order of accepts, events and functors on the
loops. The one step that ends a registration is `connectDestroyed`, called as the functor that has
held the connection since its removal.
-/

namespace MuduoCore

variable {n : ℕ} {config : ServerConfig}

/-! ### What a loop takes from its lists -/

namespace ServerLoop

variable {l : ServerLoop}

theorem shrinks_todo {functor : ServerFunctor} {rest : List ServerFunctor}
    (htodo : l.todo = functor :: rest) : Shrinks { l with todo := rest } l := by
  refine ⟨rfl, fun _ => id, fun _ => id, ?_⟩
  rw [queue, queue, htodo]
  exact (List.sublist_cons_self functor rest).append_left _

theorem InPhase.todo (h : l.InPhase) {functor : ServerFunctor} {rest : List ServerFunctor}
    (htodo : l.todo = functor :: rest) : InPhase { l with todo := rest } := by
  refine ⟨h.dispatching, ?_, fun other hmem => h.batch other ?_⟩
  · intro hphase
    rw [h.calling hphase] at htodo
    cases htodo
  · rw [htodo]
    exact List.mem_cons_of_mem functor hmem

theorem mem_queue_todo {functor other : ServerFunctor} {rest : List ServerFunctor}
    (htodo : l.todo = functor :: rest) (hmem : other ∈ l.queue) (hne : other ≠ functor) :
    other ∈ queue { l with todo := rest } := by
  rw [queue, htodo] at hmem
  rcases List.mem_append.mp hmem with hpending | hbatch
  · exact List.mem_append_left _ hpending
  · exact List.mem_append_right _ ((List.mem_cons.mp hbatch).resolve_left hne)

theorem shrinks_stack {frame : Frame} {rest : List Frame} (hstack : l.stack = frame :: rest) :
    Shrinks { l with stack := rest } l := by
  refine ⟨rfl, ?_, ?_, .refl _⟩
  · intro conn hevent
    rcases hevent with hactive | ⟨other, hmem, hevent⟩
    · exact .inl hactive
    · refine .inr ⟨other, ?_, hevent⟩
      rw [hstack]
      exact List.mem_cons_of_mem frame hmem
  · intro conn hmem
    rw [hstack]
    exact List.mem_cons_of_mem frame hmem

theorem shrinks_activeChannels {active : ActiveChannel} {rest : List ActiveChannel}
    (hactive : l.activeChannels = active :: rest) : Shrinks { l with activeChannels := rest } l := by
  refine ⟨rfl, ?_, fun _ => id, .refl _⟩
  intro conn hevent
  rcases hevent with ⟨revents, hmem⟩ | hframe
  · refine .inl ⟨revents, ?_⟩
    rw [hactive]
    exact List.mem_cons_of_mem active hmem
  · exact .inr hframe

theorem Shrinks.inPhase {l' : ServerLoop} (hshrinks : l'.Shrinks l) (h : l.InPhase)
    (hphase : l'.phase = l.phase) (htodo : l'.todo = l.todo) (hfunctors : l'.functors = l.functors) :
    l'.InPhase := by
  refine ⟨?_, ?_, ?_⟩
  · intro hne conn hevent
    exact h.dispatching (hphase ▸ hne) conn (hshrinks.event conn hevent)
  · intro hne
    rw [htodo]
    exact h.calling (hphase ▸ hne)
  · intro functor hmem
    rw [hfunctors]
    exact h.batch functor (htodo ▸ hmem)

end ServerLoop

theorem event_of_mem_eventFrames {conn : Nat} {revents : EventMask} {frame : Frame}
    (hmem : frame ∈ eventFrames conn revents) : frame.event = some conn := by
  have hone : ∀ (p : Prop) [Decidable p] (handler : Frame), handler.event = some conn →
      frame ∈ (if p then [handler] else []) → frame.event = some conn := by
    intro p _ handler hhandler hmem
    split at hmem
    · rw [List.mem_singleton.mp hmem]
      exact hhandler
    · cases hmem
  rw [eventFrames, List.mem_append, List.mem_append, List.mem_append] at hmem
  rcases hmem with ((hmem | hmem) | hmem) | hmem
  all_goals exact hone _ _ rfl hmem

namespace Server

variable {w : Server n} {loop : Fin (n + 1)} {conn : Nat} {f : Session Nat → Session Nat}

/-! ### Member functions of a connection -/

/-- A handler, or a call of the user, on a registered connection. -/
theorem Inv.onRegistered (h : Inv config w) (hindex : (w.channel conn).index ≠ .kNew)
    (hkeeps : Keeps (w.session conn) (f (w.session conn))) : Inv config (w.onConnection conn f) := by
  obtain ⟨halive, hkept⟩ := h.live conn (.inl hindex)
  have hstate : w.state conn ≠ .kConnecting := fun hstate => hindex (h.connecting conn hstate)
  have hafter := hkeeps.state_ne hstate
  refine h.onConnection halive ⟨hkeeps.toMoves, fun _ => hkept, fun hconn => absurd hconn hafter,
    fun _ => hkeeps.index_ne hindex, fun _ _ => hkeeps.index_ne hindex, fun _ _ => hafter,
    fun _ => hafter, ?_⟩
  intro loop hmem
  exact absurd ((h.tracks loop conn).establishing hmem).2 hstate

theorem onConnection_of_eq (hsame : f (w.session conn) = w.session conn) :
    w.onConnection conn f = w := by
  have hconns : Function.update w.conns conn { w.conns conn with
      tcp := (w.session conn).conn
      trace := (w.conns conn).trace ++ (w.session conn).trace } = w.conns := by
    rw [show (w.session conn).trace = [] from rfl, List.append_nil]
    exact Function.update_eq_self conn w.conns
  have hloops : Function.update w.loops (w.conns conn).loop
      ((w.loops (w.conns conn).loop).after conn (w.session conn)) = w.loops := by
    have hafter : (w.loops (w.conns conn).loop).after conn (w.session conn)
        = w.loops (w.conns conn).loop := by
      simp [ServerLoop.after, session, callbackFrames]
    rw [hafter]
    exact Function.update_eq_self _ w.loops
  rw [Server.onConnection, hsame]
  simp only [setConn, Server.modifyLoop, hconns, hloops]

/-- A call of the user, which does nothing on a connection that is not connected. -/
theorem Inv.call (h : Inv config w)
    (hidle : w.state conn ≠ .kConnected → f (w.session conn) = w.session conn)
    (hkeeps : Keeps (w.session conn) (f (w.session conn))) : Inv config (w.onConnection conn f) := by
  by_cases hstate : w.state conn = .kConnected
  · exact h.onRegistered (h.connected conn hstate) hkeeps
  · rw [onConnection_of_eq (hidle hstate)]
    exact h

theorem sendFileInLoop_trace (file : Nat → List Byte) (s : Session Nat)
    (fileDescriptor offset count : Nat) (answer : Except Errno Nat) (event : Event)
    (hmem : event ∈ (s.sendFileInLoop file fileDescriptor offset count answer).trace) :
    event ∈ s.trace ∨ event.isCallback = false := by
  obtain ⟨events, hevents, htrace⟩ :=
    s.sendFileInLoop_events file fileDescriptor offset count answer
  rw [htrace] at hmem
  apply (List.mem_append.mp hmem).imp_right
  intro hnew
  have hsendfile := hevents event hnew
  cases event <;> first | rfl | cases hsendfile

/-- `sendFileInLoop` may run on a connection whose channel has been removed; it does not touch it. -/
theorem Inv.sendFileInLoop (h : Inv config w) (halive : w.alive conn = true)
    (file : Nat → List Byte) (fileDescriptor offset count : Nat) (answer : Except Errno Nat) :
    Inv config
      (w.onConnection conn fun s => s.sendFileInLoop file fileDescriptor offset count answer) := by
  have hsame : ((w.session conn).sendFileInLoop file fileDescriptor offset count answer).conn
      = (w.conns conn).tcp := Session.sendFileInLoop_conn file _ fileDescriptor offset count answer
  have hkeeps :=
    (Updates.sendFileInLoop (w.session conn) file fileDescriptor offset count answer).keeps
  refine h.onConnection halive ⟨hkeeps.toMoves, ?_, ?_, ?_, ?_, ?_, ?_, ?_⟩
  · rw [hsame]
    exact fun hlive => (h.live conn hlive).2
  · rw [hsame]
    exact h.connecting conn
  · rw [hsame]
    exact h.connected conn
  · rw [hsame]
    exact fun loop hevent => ((h.tracks loop conn).event hevent).2
  · rw [hsame]
    exact fun loop hremoving => ((h.tracks loop conn).removing hremoving).2
  · intro hclose
    rcases sendFileInLoop_trace file _ _ _ _ answer _ hclose with hnone | hcallback
    · cases hnone
    · cases hcallback
  · rw [hsame]
    exact fun loop hmem => ((h.tracks loop conn).establishing hmem).2

theorem Inv.connectEstablished (h : Inv config w) (hstate : w.state conn = .kConnecting)
    (hlast : ∀ loop, .connectEstablished conn ∉ (w.loops loop).queue) :
    Inv config (w.onConnection conn Session.connectEstablished) := by
  obtain ⟨halive, hkept⟩ := h.live conn (.inr hstate)
  have hafter : (w.session conn).connectEstablished.conn.state ≠ .kConnecting := by
    rw [(Session.connectEstablished_spec (w.session conn)).1]
    decide
  exact h.onConnection halive ⟨connectEstablished_moves _, fun _ => hkept,
    fun hconn => absurd hconn hafter, fun _ => connectEstablished_index _,
    fun _ _ => connectEstablished_index _, fun _ _ => hafter, fun _ => hafter,
    fun loop hmem => absurd hmem (hlast loop)⟩

theorem Inv.connectDestroyed (h : Inv config w) (halive : w.alive conn = true)
    (hstate : w.state conn ≠ .kConnecting)
    (hphase : (w.loops (w.loopOf conn)).phase ≠ .dispatching) :
    Inv config (w.onConnection conn Session.connectDestroyed) := by
  have hnew := connectDestroyed_index (w.session conn)
  have hafter := connectDestroyed_state (w.session conn)
  have hdown : (w.session conn).connectDestroyed.conn.state ≠ .kConnecting ∧
      (w.session conn).connectDestroyed.conn.state ≠ .kConnected := by
    rw [hafter]
    split
    · decide
    · rename_i hconnected
      exact ⟨hstate, hconnected⟩
  refine h.onConnection halive ⟨connectDestroyed_moves _, ?_, fun _ => hnew,
    fun hconn => absurd hconn hdown.2, ?_, fun _ _ => hdown.1, fun _ => hdown.1,
    ?_⟩
  · rintro (hindex | hconn)
    · exact absurd hnew hindex
    · exact absurd hconn hdown.1
  · intro loop hevent
    have hloop := ((h.tracks loop conn).event hevent).1
    subst hloop
    exact absurd hevent ((h.phase _).dispatching hphase conn)
  · intro loop hmem
    exact absurd ((h.tracks loop conn).establishing hmem).2 hstate

/-! ### Accepting and removing -/

theorem Tracks.push {l : ServerLoop} {functor : ServerFunctor} (h : w.Tracks loop l conn)
    (hdestroying : functor = .connectDestroyed conn → w.loopOf conn = loop)
    (hremoving : functor = .connectDestroyed conn ∨ functor = .removeConnectionInLoop conn →
      w.alive conn = true ∧ w.state conn ≠ .kConnecting)
    (hestablishing : functor = .connectEstablished conn →
      w.loopOf conn = loop ∧ w.state conn = .kConnecting ∧ functor ∉ l.queue) :
    w.Tracks loop (l.push functor) conn := by
  refine ⟨h.event, ?_, ?_, ?_, ?_⟩
  · intro hrem
    rcases hrem with hframe | hmem | hmem
    · exact h.removing (.inl hframe)
    · rcases (l.mem_queue_push _ _).mp hmem with hold | heq
      · exact h.removing (.inr (.inl hold))
      · exact hremoving (.inr heq.symm)
    · rcases (l.mem_queue_push _ _).mp hmem with hold | heq
      · exact h.removing (.inr (.inr hold))
      · exact hremoving (.inl heq.symm)
  · intro hmem
    rcases (l.mem_queue_push _ _).mp hmem with hold | heq
    · exact h.destroying hold
    · exact hdestroying heq.symm
  · intro hmem
    rcases (l.mem_queue_push _ _).mp hmem with hold | heq
    · exact h.establishing hold
    · exact ⟨(hestablishing heq.symm).1, (hestablishing heq.symm).2.1⟩
  · rw [l.count_queue_push]
    split
    · rename_i heq
      have hnone := (hestablishing heq).2.2
      rw [heq] at hnone
      rw [List.count_eq_zero.mpr hnone]
    · exact h.once

/-- A connection leaves `connections_` once its `connectDestroyed` is queued. -/
theorem Inv.erase (h : Inv config w) (halive : w.alive conn = true)
    (hqueued : .connectDestroyed conn ∈ (w.loops (w.loopOf conn)).queue) :
    Inv config { w with
      connections := Function.update w.connections (w.conns conn).name none } := by
  refine { h with
    tracks := fun loop c => (h.tracks loop c).congr rfl id
    live := ?_ }
  intro c hlive
  obtain ⟨hold, hmapped | hdestroying⟩ := h.live c hlive
  · by_cases hname : (w.conns c).name = (w.conns conn).name
    · have hc := h.created c hold
      have hconn := h.created conn halive
      have hfew := h.few
      rw [h.named c hc, h.named conn hconn] at hname
      have hmod := (connName_eq_iff config).mp hname
      obtain rfl : c = conn := by omega
      exact ⟨hold, .inr hqueued⟩
    · exact ⟨hold, .inl ((Function.update_of_ne hname ..).trans hmapped)⟩
  · exact ⟨hold, .inr hdestroying⟩

theorem Inv.removeConnectionInLoop (h : Inv config w) (halive : w.alive conn = true)
    (hstate : w.state conn ≠ .kConnecting) : Inv config (w.removeConnectionInLoop conn) := by
  have hpush : Inv config
      (w.modifyLoop (w.loopOf conn) fun l => l.push (.connectDestroyed conn)) := by
    refine h.push _ fun c => (h.tracks _ c).push ?_ ?_ (by simp)
    · intro heq
      cases heq
      rfl
    · intro heq
      rcases heq with heq | heq
      · cases heq
        exact ⟨halive, hstate⟩
      · cases heq
  have hqueued : .connectDestroyed conn ∈
      ((w.modifyLoop (w.loopOf conn) fun l => l.push (.connectDestroyed conn)).loops
        (w.loopOf conn)).queue := by
    rw [modifyLoop_loops_self, ServerLoop.mem_queue_push]
    exact .inr rfl
  exact hpush.erase halive hqueued

theorem Inv.removeConnection (h : Inv config w) (halive : w.alive conn = true)
    (hstate : w.state conn ≠ .kConnecting) : Inv config (w.removeConnection loop conn) := by
  rw [Server.removeConnection]
  split
  · exact h.removeConnectionInLoop halive hstate
  · refine h.push _ fun c => (h.tracks 0 c).push (by simp) ?_ (by simp)
    intro heq
    rcases heq with heq | heq
    · cases heq
    · cases heq
      exact ⟨halive, hstate⟩

theorem Inv.not_live_accepted (h : Inv config w) : ¬w.Live w.accepted := fun hlive =>
  Nat.lt_irrefl _ (h.created _ (h.live _ hlive).1)

theorem Inv.not_establishing_accepted (h : Inv config w) (loop : Fin (n + 1)) :
    .connectEstablished w.accepted ∉ (w.loops loop).queue := fun hmem =>
  h.not_live_accepted (.inr ((h.tracks loop _).establishing hmem).2)

theorem Inv.not_removing_accepted (h : Inv config w) (loop : Fin (n + 1)) :
    ¬(w.loops loop).Removing w.accepted := by
  intro hremoving
  have hlt := h.created _ ((h.tracks loop _).removing hremoving).1
  exact Nat.lt_irrefl _ hlt

section Insert

variable (w) (config) (sockfd : Nat)

theorem insertConnection_conns_self :
    (w.insertConnection config sockfd).conns w.accepted
      = { name := config.connName w.nextConnId
          loop := w.getNextLoop.1
          tcp := TcpConnection.new sockfd (64 * 1024 * 1024) Buffer.kInitialSize
            config.connectionCallback config.messageCallback config.writeCompleteCallback
            config.highWaterMarkCallback true
          trace := [] } :=
  Function.update_self ..

variable {w}

theorem insertConnection_conns_of_ne (hne : conn ≠ w.accepted) :
    (w.insertConnection config sockfd).conns conn = w.conns conn :=
  Function.update_of_ne hne ..

theorem insertConnection_alive_of_ne (hne : conn ≠ w.accepted) :
    (w.insertConnection config sockfd).alive conn = w.alive conn :=
  Function.update_of_ne hne ..

variable {config}

theorem Inv.channelOn_insertConnection (h : Inv config w) (loop : Fin (n + 1)) :
    (w.loops loop).poller.Coherent ((w.insertConnection config sockfd).channelOn loop) := by
  have hunknown := h.not_live_accepted
  apply (h.coherent loop).congr
  · intro c
    by_cases hc : c = w.accepted
    · subst hc
      have hold : (w.channelOn loop w.accepted).index = .kNew := by
        rw [channelOn]
        split
        · by_contra hindex
          exact hunknown (.inl hindex)
        · rfl
      rw [hold, channelOn, channel, insertConnection_conns_self]
      split <;> rfl
    · rw [channelOn, channelOn, loopOf, channel, insertConnection_conns_of_ne config sockfd hc]
  · intro c hindex
    have hc : c ≠ w.accepted := by
      rintro rfl
      rw [channelOn] at hindex
      split at hindex
      · exact hunknown (.inl hindex)
      · exact hindex rfl
    rw [channelOn, loopOf, channel, insertConnection_conns_of_ne config sockfd hc]
    exact ⟨rfl, rfl⟩

theorem Inv.tracks_insertConnection (h : Inv config w) (loop : Fin (n + 1)) (c : Nat) :
    (w.insertConnection config sockfd).Tracks loop (w.loops loop) c := by
  have htracks := h.tracks loop c
  by_cases hc : c = w.accepted
  · subst hc
    have hremoving := h.not_removing_accepted loop
    exact ⟨fun hevent => absurd (h.live_of_event hevent) h.not_live_accepted,
      fun hrem => absurd hrem hremoving, fun hmem => absurd (.inr (.inr hmem)) hremoving,
      fun hmem => absurd hmem (h.not_establishing_accepted loop), htracks.once⟩
  · apply htracks.congr (insertConnection_conns_of_ne config sockfd hc)
    intro halive
    rw [insertConnection_alive_of_ne config sockfd hc]
    exact halive

/-- A new connection is an entry of `connections_`, under a name that no other connection has. -/
theorem Inv.live_insertConnection (h : Inv config w) (hfew : w.accepted + 1 < 2 ^ 31) (c : Nat)
    (hlive : (w.insertConnection config sockfd).Live c) :
    (w.insertConnection config sockfd).alive c = true ∧
      (w.insertConnection config sockfd).Kept c := by
  by_cases hc : c = w.accepted
  · subst hc
    refine ⟨Function.update_self .., .inl ?_⟩
    rw [Mapped, insertConnection_conns_self]
    exact Function.update_self ..
  · rw [Live, channel, state, insertConnection_conns_of_ne config sockfd hc] at hlive
    obtain ⟨halive, hkept⟩ := h.live c hlive
    have hlt := h.created c halive
    have hname : (w.conns c).name ≠ config.connName w.nextConnId := by
      rw [h.named c hlt, h.counter]
      intro heq
      have hmod := (connName_eq_iff config).mp heq
      omega
    rw [insertConnection_alive_of_ne config sockfd hc, Kept, Mapped, loopOf,
      insertConnection_conns_of_ne config sockfd hc]
    exact ⟨halive, hkept.imp_left fun hmapped => (Function.update_of_ne hname ..).trans hmapped⟩

theorem Inv.distinct_insertConnection (h : Inv config w) (hfresh : w.FreshFd sockfd) (c d : Nat)
    (hc : (w.insertConnection config sockfd).alive c = true)
    (hd : (w.insertConnection config sockfd).alive d = true)
    (hfd : ((w.insertConnection config sockfd).channel c).fd
      = ((w.insertConnection config sockfd).channel d).fd) : c = d := by
  -- a connection that was alive before does not have the new descriptor
  have hold : ∀ e, e ≠ w.accepted → (w.insertConnection config sockfd).alive e = true →
      (w.channel e).fd ≠ sockfd := by
    intro e hne halive
    rw [insertConnection_alive_of_ne config sockfd hne] at halive
    exact hfresh e (h.created e halive) halive
  have hfdOf : ∀ e, ((w.insertConnection config sockfd).channel e).fd
      = if e = w.accepted then sockfd else (w.channel e).fd := by
    intro e
    split
    · rename_i heq
      rw [heq, channel, insertConnection_conns_self]
      rfl
    · rename_i hne
      rw [channel, insertConnection_conns_of_ne config sockfd hne]
  rw [hfdOf, hfdOf] at hfd
  by_cases hcnew : c = w.accepted <;> by_cases hdnew : d = w.accepted
  · rw [hcnew, hdnew]
  · rw [if_pos hcnew, if_neg hdnew] at hfd
    exact absurd hfd.symm (hold d hdnew hd)
  · rw [if_neg hcnew, if_pos hdnew] at hfd
    exact absurd hfd (hold c hcnew hc)
  · rw [if_neg hcnew, if_neg hdnew] at hfd
    rw [insertConnection_alive_of_ne config sockfd hcnew] at hc
    rw [insertConnection_alive_of_ne config sockfd hdnew] at hd
    exact h.distinct c d hc hd hfd

theorem Inv.insertConnection (h : Inv config w) (hfresh : w.FreshFd sockfd)
    (hfew : w.accepted + 1 < 2 ^ 31) : Inv config (w.insertConnection config sockfd) where
  coherent := h.channelOn_insertConnection sockfd
  phase := h.phase
  tracks := h.tracks_insertConnection sockfd
  live := h.live_insertConnection sockfd hfew
  connecting c := by
    by_cases hc : c = w.accepted
    · subst hc
      rw [channel, insertConnection_conns_self]
      exact fun _ => rfl
    · rw [state, channel, insertConnection_conns_of_ne config sockfd hc]
      exact h.connecting c
  connected c := by
    by_cases hc : c = w.accepted
    · subst hc
      rw [state, insertConnection_conns_self]
      intro hstate
      cases hstate
    · rw [state, channel, insertConnection_conns_of_ne config sockfd hc]
      exact h.connected c
  distinct := h.distinct_insertConnection sockfd hfresh
  created c halive := by
    by_cases hc : c = w.accepted
    · rw [hc]
      exact Nat.lt_succ_self _
    · rw [insertConnection_alive_of_ne config sockfd hc] at halive
      exact (h.created c halive).trans (Nat.lt_succ_self _)
  named c hlt := by
    by_cases hc : c = w.accepted
    · subst hc
      rw [insertConnection_conns_self, h.counter]
    · rw [insertConnection_conns_of_ne config sockfd hc]
      exact h.named c (lt_of_le_of_ne (Nat.le_of_lt_succ hlt) hc)
  counter := by
    change w.nextConnId + 1 = BitVec.ofNat 32 (w.accepted + 1 + 1)
    rw [h.counter, BitVec.ofNat_add (w.accepted + 1) 1]
    rfl
  few := hfew

end Insert

theorem Inv.newConnection (h : Inv config w) {sockfd : Nat} (hfresh : w.FreshFd sockfd)
    (hfew : w.accepted + 1 < 2 ^ 31) : Inv config (w.newConnection config sockfd) := by
  have hinserted := h.insertConnection sockfd hfresh hfew
  have hself := w.insertConnection_conns_self config sockfd
  have hstate : (w.insertConnection config sockfd).state w.accepted = .kConnecting := by
    rw [state, hself]
    rfl
  simp only [Server.newConnection]
  split
  · exact hinserted.connectEstablished hstate h.not_establishing_accepted
  · refine hinserted.push _ fun c => (hinserted.tracks _ c).push (by simp) (by simp) ?_
    intro heq
    cases heq
    exact ⟨by rw [loopOf, hself], hstate, h.not_establishing_accepted _⟩

/-! ### The dispatch phase -/

/-- The kernel only reports channels that are registered with the loop. -/
theorem Inv.poll (h : Inv config w) {active : List ActiveChannel}
    (hphase : (w.loops loop).phase = .polling) (hreports : ∀ a ∈ active, w.Reports loop a) :
    Inv config
      (w.modifyLoop loop fun l => { l with activeChannels := active, phase := .dispatching }) := by
  have hquiet := (h.phase loop).dispatching (by rw [hphase]; decide)
  have htodo := (h.phase loop).calling (by rw [hphase]; decide)
  refine h.modifyLoop rfl ⟨fun hne => absurd rfl hne, fun _ => htodo, (h.phase loop).batch⟩
    ?_ fun _ _ => id
  intro c
  have htracks := h.tracks loop c
  refine ⟨?_, htracks.removing, htracks.destroying, htracks.establishing, htracks.once⟩
  rintro (⟨revents, hmem⟩ | hframe)
  · obtain ⟨event, hset, hptr⟩ := Option.map_eq_some_iff.mp (hreports _ hmem)
    obtain ⟨-, hadded⟩ := (h.coherent loop).owner _ event hset
    rw [hptr, channelOn] at hadded
    split at hadded
    · rename_i hloop
      refine ⟨hloop, ?_⟩
      rw [hadded]
      decide
    · cases hadded
  · exact absurd (.inr hframe) (hquiet c)

theorem Inv.handleEvent (h : Inv config w) {active : ActiveChannel} {rest : List ActiveChannel}
    {accepted : Option Nat} (hactive : (w.loops loop).activeChannels = active :: rest)
    (hphase : (w.loops loop).phase = .dispatching)
    (hfresh : ∀ sockfd, accepted = some sockfd → w.FreshFd sockfd)
    (hfew : ((w.modifyLoop loop fun l => { l with activeChannels := rest }).handleEvent config loop
      accepted active).accepted < 2 ^ 31) :
    Inv config ((w.modifyLoop loop fun l => { l with activeChannels := rest }).handleEvent config loop
      accepted active) := by
  have hshrinks := ServerLoop.shrinks_activeChannels hactive
  have hpop : Inv config (w.modifyLoop loop fun l => { l with activeChannels := rest }) :=
    h.shrinks hshrinks (hshrinks.inPhase (h.phase loop) rfl rfl rfl) fun _ _ => id
  cases active with
  | connection conn revents =>
      have hconn : (w.loops loop).HasEvent conn := by
        refine .inl ⟨revents, ?_⟩
        rw [hactive]
        exact List.mem_cons_self
      simp only [Server.handleEvent]
      split
      · refine hpop.modifyLoop rfl ?_ ?_ fun c _ hmem => hmem
        · rw [modifyLoop_loops_self]
          exact ⟨fun hne => absurd hphase hne, (h.phase loop).calling, (h.phase loop).batch⟩
        · intro c
          have htracks := hpop.tracks loop c
          rw [modifyLoop_loops_self] at htracks ⊢
          refine ⟨?_, fun hremoving => htracks.removing ?_, htracks.destroying,
            htracks.establishing, htracks.once⟩
          · rintro (hold | ⟨frame, hmem, hframe⟩)
            · exact htracks.event (.inl hold)
            · rw [event_of_mem_eventFrames hmem] at hframe
              obtain rfl := Option.some.inj hframe
              exact (h.tracks loop conn).event hconn
          · rcases hremoving with hmem | hqueued
            · cases event_of_mem_eventFrames hmem
            · exact .inr hqueued
      · exact { hpop with tracks := fun loop c => (hpop.tracks loop c).congr rfl id }
  | acceptor =>
      cases accepted with
      | none => exact hpop
      | some sockfd =>
          have hone : w.accepted + 1 < 2 ^ 31 := by
            refine lt_of_eq_of_lt ?_ hfew
            simp only [Server.handleEvent, Server.newConnection]
            split <;> rfl
          exact hpop.newConnection (hfresh sockfd rfl) hone
  | wakeup => exact hpop

theorem Inv.runFrame (h : Inv config w) {frame : Frame} {rest : List Frame}
    (hstack : (w.loops loop).stack = frame :: rest) (read : Except Errno (List Byte))
    (write : Except Errno Nat) :
    Inv config ((w.modifyLoop loop fun l => { l with stack := rest }).runFrame loop read write
      frame) := by
  have hshrinks := ServerLoop.shrinks_stack hstack
  have hpop : Inv config (w.modifyLoop loop fun l => { l with stack := rest }) :=
    h.shrinks hshrinks (hshrinks.inPhase (h.phase loop) rfl rfl rfl) fun _ _ => id
  have hmem : frame ∈ (w.loops loop).stack := by
    rw [hstack]
    exact List.mem_cons_self
  -- the handler of an event runs on a registered connection
  have hindex : ∀ conn, frame.event = some conn → (w.channel conn).index ≠ .kNew :=
    fun conn hevent => ((h.tracks loop conn).event (.inr ⟨frame, hmem, hevent⟩)).2
  cases frame with
  | handleClose conn => exact hpop.onRegistered (hindex conn rfl) (.handleClose _)
  | handleError conn => exact hpop.onRegistered (hindex conn rfl) (.refl _)
  | handleRead conn =>
      exact hpop.onRegistered (f := fun s => s.handleRead read) (hindex conn rfl) (.handleRead _ read)
  | handleWrite conn =>
      exact hpop.onRegistered (f := fun s => s.handleWrite write) (hindex conn rfl)
        (Updates.handleWrite _ write).keeps
  | removeConnection conn =>
      obtain ⟨halive, hstate⟩ := (h.tracks loop conn).removing (.inl hmem)
      exact hpop.removeConnection halive hstate
  | userCode => exact hpop

/-! ### The functors -/

theorem Inv.doPendingFunctors (h : Inv config w) (hphase : (w.loops loop).phase = .dispatching)
    (hstack : (w.loops loop).stack = []) (hactive : (w.loops loop).activeChannels = []) :
    Inv config (w.modifyLoop loop fun l =>
      { l with
        functors := l.pendingFunctors
        todo := l.pendingFunctors
        pendingFunctors := []
        phase := .calling }) := by
  have htodo := (h.phase loop).calling (by rw [hphase]; decide)
  have hqueue : (w.loops loop).queue = (w.loops loop).pendingFunctors := by
    rw [ServerLoop.queue, htodo, List.append_nil]
  refine h.shrinks ⟨rfl, fun _ => id, fun _ => id, ?_⟩
    ⟨?_, fun hne => absurd rfl hne, fun _ => id⟩ ?_
  · rw [hqueue]
    exact .refl _
  · intro _ c hevent
    rcases hevent with ⟨revents, hmem⟩ | ⟨frame, hmem, -⟩
    · rw [hactive] at hmem
      cases hmem
    · rw [hstack] at hmem
      cases hmem
  · intro c _ hmem
    rw [hqueue] at hmem
    exact hmem

/-- A member function does not see which functors the loop has yet to call. -/
theorem modifyLoop_onConnection (rest : List ServerFunctor) (hloop : w.loopOf conn = loop) :
    (w.modifyLoop loop fun l => { l with todo := rest }).onConnection conn f
      = (w.onConnection conn f).modifyLoop loop fun l => { l with todo := rest } := by
  subst hloop
  have hsession : (w.modifyLoop (w.loopOf conn) fun l => { l with todo := rest }).session conn
      = w.session conn := by
    simp only [session, Server.modifyLoop, Function.update_self]
  simp only [Server.onConnection, hsession]
  simp only [Server.modifyLoop, setConn, Function.update_self, Function.update_idem]
  rfl

/-- The functor of a removal: it takes the channel out of the poller, and from then on nothing needs
to hold the connection. -/
theorem Inv.callConnectDestroyed (h : Inv config w) {rest : List ServerFunctor}
    (htodo : (w.loops loop).todo = .connectDestroyed conn :: rest)
    (hphase : (w.loops loop).phase = .calling) :
    Inv config ((w.modifyLoop loop fun l => { l with todo := rest }).onConnection conn
      Session.connectDestroyed) := by
  have hmem : .connectDestroyed conn ∈ (w.loops loop).queue := by
    apply List.mem_append_right _
    rw [htodo]
    exact List.mem_cons_self
  have hloop := (h.tracks loop conn).destroying hmem
  obtain ⟨halive, hstate⟩ := (h.tracks loop conn).removing (.inr (.inr hmem))
  rw [modifyLoop_onConnection rest hloop]
  subst hloop
  have hdestroyed := h.connectDestroyed halive hstate (by rw [hphase]; decide)
  have hafter : ((w.onConnection conn Session.connectDestroyed).loops (w.loopOf conn)).todo
      = .connectDestroyed conn :: rest := by
    rw [onConnection_loops_self]
    exact htodo
  refine hdestroyed.shrinks (ServerLoop.shrinks_todo hafter) ((hdestroyed.phase _).todo hafter)
    fun c hlive hqueued => ServerLoop.mem_queue_todo hafter hqueued ?_
  rintro heq
  cases heq
  rw [Live, channel, state, onConnection_conns_self] at hlive
  rcases hlive with hindex | hconnecting
  · exact hindex (connectDestroyed_index _)
  · change (w.session conn).connectDestroyed.conn.state = .kConnecting at hconnecting
    rw [connectDestroyed_state] at hconnecting
    split at hconnecting
    · cases hconnecting
    · exact hstate hconnecting

theorem Inv.callFunctor (h : Inv config w) (file : Nat → List Byte) {functor : ServerFunctor}
    {rest : List ServerFunctor} (htodo : (w.loops loop).todo = functor :: rest)
    (hphase : (w.loops loop).phase = .calling) (write : Except Errno Nat) :
    Inv config ((w.modifyLoop loop fun l => { l with todo := rest }).callFunctor file loop write
      functor) := by
  by_cases hdestroys : ∃ conn, functor = .connectDestroyed conn
  · obtain ⟨conn, rfl⟩ := hdestroys
    exact h.callConnectDestroyed htodo hphase
  · have hmem : functor ∈ (w.loops loop).queue := by
      apply List.mem_append_right _
      rw [htodo]
      exact List.mem_cons_self
    have hpop : Inv config (w.modifyLoop loop fun l => { l with todo := rest }) := by
      apply h.shrinks (ServerLoop.shrinks_todo htodo) ((h.phase loop).todo htodo)
      exact fun c _ hqueued => ServerLoop.mem_queue_todo htodo hqueued fun heq =>
        hdestroys ⟨c, heq.symm⟩
    have hframe : ∀ l : ServerLoop,
        ServerLoop.Shrinks { l with stack := .userCode :: l.stack } l := by
      refine fun l => ⟨rfl, fun c hevent => hevent.imp_right ?_, ?_, .refl _⟩
      · rintro ⟨frame, hmem, hevent⟩
        refine ⟨frame, (List.mem_cons.mp hmem).resolve_left ?_, hevent⟩
        rintro rfl
        cases hevent
      · intro c hmem
        exact (List.mem_cons.mp hmem).resolve_left (by simp)
    have huser : Inv config ((w.modifyLoop loop fun l => { l with todo := rest }).modifyLoop loop
        fun l => { l with stack := .userCode :: l.stack }) :=
      hpop.shrinks (hframe _) ((hframe _).inPhase (hpop.phase loop) rfl rfl rfl) fun _ _ => id
    cases functor with
    | connectEstablished conn =>
        obtain ⟨hloop, hstate⟩ := (h.tracks loop conn).establishing hmem
        apply hpop.connectEstablished hstate
        intro other hqueued
        by_cases heq : other = loop
        · subst heq
          rw [modifyLoop_loops_self] at hqueued
          have honce := (h.tracks other conn).once
          have htwice := List.count_pos_iff.mpr hqueued
          rw [ServerLoop.queue, List.count_append] at honce htwice
          rw [htodo, List.count_cons_self] at honce
          simp only at htwice
          omega
        · rw [modifyLoop_loops_of_ne heq] at hqueued
          exact heq (((h.tracks other conn).establishing hqueued).1.symm.trans hloop)
    | connectDestroyed conn => exact absurd ⟨conn, rfl⟩ hdestroys
    | removeConnectionInLoop conn =>
        obtain ⟨halive, hstate⟩ := (h.tracks loop conn).removing (.inr (.inl hmem))
        exact hpop.removeConnectionInLoop halive hstate
    | task conn task =>
        cases task with
        | sendFileInLoop fileDescriptor offset count =>
            simp only [Server.callFunctor]
            split
            · rename_i halive
              exact hpop.sendFileInLoop halive file fileDescriptor offset count write
            · exact { hpop with tracks := fun loop c => (hpop.tracks loop c).congr rfl id }
        | writeCompleteCallback => exact huser
        | highWaterMarkCallback _ => exact huser
    | user => exact huser

theorem Inv.endBatch (h : Inv config w) (hphase : (w.loops loop).phase = .calling)
    (htodo : (w.loops loop).todo = []) :
    Inv config (w.modifyLoop loop fun l => { l with functors := [], phase := .polling }) := by
  refine h.shrinks ⟨rfl, fun _ => id, fun _ => id, .refl _⟩ ⟨?_, fun _ => htodo, ?_⟩
    fun _ _ => id
  · intro _
    exact (h.phase loop).dispatching (by rw [hphase]; decide)
  · rw [htodo]
    intro functor hmem
    cases hmem

/-! ### Runs -/

theorem inv_new (config : ServerConfig) : Inv config (new : Server n) where
  coherent _ := EPollPoller.coherent_new fun conn => by
    rw [channelOn]
    split <;> rfl
  phase _ := by
    refine ⟨?_, fun _ => rfl, fun _ => id⟩
    intro _ conn hevent
    rcases hevent with ⟨_, hmem⟩ | ⟨_, hmem, _⟩ <;> cases hmem
  tracks _ _ := by
    refine ⟨?_, ?_, ?_, ?_, Nat.zero_le _⟩
    · rintro (⟨_, hmem⟩ | ⟨_, hmem, _⟩) <;> cases hmem
    · rintro (hmem | hmem | hmem) <;> cases hmem
    · intro hmem
      cases hmem
    · intro hmem
      cases hmem
  live conn hlive := by
    rcases hlive with hindex | hstate
    · exact absurd rfl hindex
    · cases hstate
  connecting _ hstate := by cases hstate
  connected _ hstate := by cases hstate
  distinct _ _ hc := by cases hc
  created _ hc := by cases hc
  named _ hc := absurd hc (Nat.not_lt_zero _)
  counter := rfl
  few := Nat.two_pow_pos 31

theorem move_inv {file : Nat → List Byte} {w' : Server n} {action : ServerAction n}
    (h : Inv config w) (hmove : w.move file config action = some w')
    (hfew : w'.accepted < 2 ^ 31) : Inv config w' := by
  cases action with
  | poll loop active =>
      obtain ⟨⟨hphase, hreports⟩, rfl⟩ := guarded_eq_some.mp hmove
      exact h.poll hphase hreports
  | dispatch loop accepted =>
      obtain ⟨active, rest, hactive, ⟨hphase, -, hfresh⟩, rfl⟩ := move_dispatch hmove
      exact h.handleEvent hactive hphase hfresh hfew
  | frame loop read write =>
      obtain ⟨frame, rest, hstack, rfl⟩ := move_frame hmove
      exact h.runFrame hstack read write
  | handled loop =>
      obtain ⟨-, rfl⟩ := guarded_eq_some.mp hmove
      have hshrinks : ServerLoop.Shrinks { w.loops loop with guard := none } (w.loops loop) :=
        ⟨rfl, fun _ => id, fun _ => id, .refl _⟩
      exact h.shrinks hshrinks (hshrinks.inPhase (h.phase loop) rfl rfl rfl) fun _ _ => id
  | doPendingFunctors loop =>
      obtain ⟨⟨hphase, hidle, hactive⟩, rfl⟩ := guarded_eq_some.mp hmove
      exact h.doPendingFunctors hphase hidle.1 hactive
  | runFunctor loop write =>
      obtain ⟨functor, rest, htodo, ⟨hphase, -⟩, rfl⟩ := move_runFunctor hmove
      exact h.callFunctor file htodo hphase write
  | endBatch loop =>
      obtain ⟨⟨hphase, -, htodo⟩, rfl⟩ := guarded_eq_some.mp hmove
      exact h.endBatch hphase htodo
  | send loop conn data write =>
      obtain ⟨-, rfl⟩ := guarded_eq_some.mp hmove
      exact h.call (f := fun s => s.send data write) (fun hstate => if_neg hstate)
        (Updates.send _ data write).keeps
  | sendFile loop conn fileDescriptor offset count write =>
      obtain ⟨-, rfl⟩ := guarded_eq_some.mp hmove
      refine h.call (f := fun s => s.sendFile file fileDescriptor offset count write)
        (fun hstate => if_neg ?_) (Updates.sendFile _ file fileDescriptor offset count write).keeps
      rw [TcpConnection.connected, decide_eq_true_iff]
      exact hstate
  | shutdown loop conn =>
      obtain ⟨-, rfl⟩ := guarded_eq_some.mp hmove
      exact h.call (fun hstate => if_neg hstate) (Updates.shutdown _).keeps
  | queueInLoop loop =>
      obtain rfl := Option.some.inj hmove
      exact h.push _ fun c => (h.tracks loop c).push (by simp) (by simp) (by simp)
  | hold conn =>
      obtain ⟨-, rfl⟩ := guarded_eq_some.mp hmove
      exact { h with tracks := fun loop c => (h.tracks loop c).congr rfl id }
  | drop conn =>
      obtain rfl := Option.some.inj hmove
      exact { h with tracks := fun loop c => (h.tracks loop c).congr rfl id }

theorem accepted_le_handleEvent (accepted : Option Nat) (active : ActiveChannel) :
    w.accepted ≤ (w.handleEvent config loop accepted active).accepted := by
  cases active with
  | connection conn revents =>
      simp only [handleEvent]
      split <;> exact le_rfl
  | acceptor =>
      cases accepted with
      | none => exact le_rfl
      | some sockfd =>
          simp only [handleEvent, newConnection]
          split <;> exact Nat.le_succ w.accepted
  | wakeup => exact le_rfl

theorem accepted_runFrame (read : Except Errno (List Byte)) (write : Except Errno Nat)
    (frame : Frame) : (w.runFrame loop read write frame).accepted = w.accepted := by
  cases frame with
  | removeConnection conn =>
      simp only [runFrame, removeConnection]
      split <;> rfl
  | _ => rfl

theorem accepted_callFunctor (file : Nat → List Byte) (write : Except Errno Nat)
    (functor : ServerFunctor) : (w.callFunctor file loop write functor).accepted = w.accepted := by
  cases functor with
  | task conn task =>
      cases task with
      | sendFileInLoop fileDescriptor offset count =>
          simp only [callFunctor]
          split <;> rfl
      | _ => rfl
  | _ => rfl

theorem accepted_le_move {file : Nat → List Byte} {w' : Server n} {action : ServerAction n}
    (hmove : w.move file config action = some w') : w.accepted ≤ w'.accepted := by
  cases action with
  | dispatch loop accepted =>
      obtain ⟨active, rest, -, -, rfl⟩ := move_dispatch hmove
      exact accepted_le_handleEvent (w := w.modifyLoop loop _) accepted active
  | frame loop read write =>
      obtain ⟨frame, rest, -, rfl⟩ := move_frame hmove
      exact (accepted_runFrame (w := w.modifyLoop loop _) read write frame).ge
  | runFunctor loop write =>
      obtain ⟨functor, rest, -, -, rfl⟩ := move_runFunctor hmove
      exact (accepted_callFunctor (w := w.modifyLoop loop _) file write functor).ge
  | queueInLoop loop =>
      obtain rfl := Option.some.inj hmove
      exact le_rfl
  | drop conn =>
      obtain rfl := Option.some.inj hmove
      exact le_rfl
  | _ =>
      obtain ⟨-, rfl⟩ := guarded_eq_some.mp hmove
      exact le_rfl

theorem step_inv {file : Nat → List Byte} {w' : Server n} {action : ServerAction n}
    (h : w.accepted < 2 ^ 31 → Inv config w) (hstep : w.step file config action = some w')
    (hfew : w'.accepted < 2 ^ 31) : Inv config w' := by
  obtain ⟨v, hmove, rfl⟩ := step_eq_some hstep
  exact (move_inv (h ((accepted_le_move hmove).trans_lt hfew)) hmove hfew).reap

theorem inv_of_reachable {file : Nat → List Byte} (hreach : (system file config).Reachable w)
    (hfew : w.accepted < 2 ^ 31) : Inv config w := by
  refine hreach.invariant (I := fun v => v.accepted < 2 ^ 31 → Inv config v) ?_ ?_ hfew
  · rintro v rfl -
    exact inv_new config
  · exact fun _ _ _ h _ hstep => step_inv h hstep

/-- The connection has not been destroyed, and it is an entry of `connections_`, a queued functor or
a functor of a running batch that holds it. -/
def Anchored (w : Server n) (conn : Nat) : Prop :=
  w.alive conn = true ∧ (w.Mapped conn ∨
    ∃ loop, ∃ functor ∈ (w.loops loop).pendingFunctors ++ (w.loops loop).functors,
      functor.holds = some conn)

theorem Inv.anchored (h : Inv config w) (hindex : (w.channel conn).index ≠ .kNew) :
    w.Anchored conn := by
  obtain ⟨halive, hmapped | hqueued⟩ := h.live conn (.inl hindex)
  · exact ⟨halive, .inl hmapped⟩
  · exact ⟨halive, .inr ⟨w.loopOf conn, _, (h.phase _).mem_functors hqueued, rfl⟩⟩

/-- **No dangling channel.** In every state of every run with fewer than `2 ^ 31` accepted
connections, what the kernel's list of a loop points to, and what the loop is yet to dispatch, are
channels of connections that have not been destroyed. -/
theorem registered_channels_alive (file : Nat → List Byte) {w : Server n}
    (hreach : (system file config).Reachable w) (hfew : w.accepted < 2 ^ 31)
    (loop : Fin (n + 1)) :
    (∀ fd event, (w.loops loop).poller.epollfd fd = some event → w.Anchored event.ptr) ∧
      ∀ conn revents, .connection conn revents ∈ (w.loops loop).activeChannels →
        w.Anchored conn := by
  have hinv := inv_of_reachable hreach hfew
  refine ⟨?_, ?_⟩
  · intro fd event hset
    obtain ⟨-, hadded⟩ := (hinv.coherent loop).owner fd event hset
    rw [channelOn] at hadded
    split at hadded
    · apply hinv.anchored
      rw [hadded]
      decide
    · cases hadded
  · intro conn revents hmem
    exact hinv.anchored ((hinv.tracks loop conn).event (.inl ⟨revents, hmem⟩)).2

def echoServer : ServerConfig where
  name := ['E', 'c', 'h', 'o']
  ipPort := [':', '8', '0', '8', '0']
  ipPort_length := by decide
  connectionCallback := true
  messageCallback := true
  writeCompleteCallback := false
  highWaterMarkCallback := false

/-- A connection of a sub loop, when the kernel reports that its peer is gone. -/
theorem registered_channels_alive_hangup :
    ∃ w : Server 1,
      (system (fun _ => []) echoServer).exec new
        [.poll 0 [.acceptor], .dispatch 0 (some 7), .poll 1 [.wakeup], .dispatch 1 none,
          .doPendingFunctors 1, .runFunctor 1 (.ok 0), .frame 1 (.ok []) (.ok 0), .endBatch 1,
          .poll 1 [.connection 0 (EPOLLIN ||| EPOLLHUP)]] = some w ∧
      (w.loops 1).activeChannels = [.connection 0 (EPOLLIN ||| EPOLLHUP)] ∧ w.Anchored 0 := by
  obtain ⟨w, hw, hfew, hactive⟩ : ∃ w : Server 1,
      (system (fun _ => []) echoServer).exec new
        [.poll 0 [.acceptor], .dispatch 0 (some 7), .poll 1 [.wakeup], .dispatch 1 none,
          .doPendingFunctors 1, .runFunctor 1 (.ok 0), .frame 1 (.ok []) (.ok 0), .endBatch 1,
          .poll 1 [.connection 0 (EPOLLIN ||| EPOLLHUP)]] = some w ∧
      w.accepted < 2 ^ 31 ∧
      (w.loops 1).activeChannels = [.connection 0 (EPOLLIN ||| EPOLLHUP)] :=
    ⟨_, rfl, by decide, rfl⟩
  have hreach : (system (fun _ => []) echoServer).Reachable w := System.reachable_of_exec rfl hw
  have hmem : .connection 0 (EPOLLIN ||| EPOLLHUP) ∈ (w.loops 1).activeChannels := by
    rw [hactive]
    exact List.mem_cons_self
  exact ⟨w, hw, hactive, (registered_channels_alive _ hreach hfew 1).2 0 _ hmem⟩

end Server

end MuduoCore
