import MuduoCore.TcpServer.Callbacks

/-!
# The stacks of the loops

A loop is the only one that works on its stack. The others queue functors for it, but what it is in the
middle of stays as it is.
-/

namespace MuduoCore

variable {n : ℕ}

/-- The loop on whose stack an action works. -/
def ServerAction.stackOf : ServerAction n → Option (Fin (n + 1))
  | dispatch loop _ | frame loop _ _ | runFunctor loop _ => some loop
  | _ => none

/-- A call that only a user makes. -/
def ServerAction.ofUser : ServerAction n → Bool
  | send _ _ _ _ | sendFile _ _ _ _ _ _ | shutdown _ _ | queueInLoop _ | hold _ | drop _ => true
  | _ => false

/-- The loop is where it was in its iteration. -/
structure ServerLoop.SameTurn (l' l : ServerLoop) : Prop where
  phase_eq : l'.phase = l.phase
  active_eq : l'.activeChannels = l.activeChannels
  functors_eq : l'.functors = l.functors

namespace ServerLoop.SameTurn

theorem refl (l : ServerLoop) : l.SameTurn l := ⟨rfl, rfl, rfl⟩

theorem trans {l l' l'' : ServerLoop} (hsnd : l''.SameTurn l') (hfst : l'.SameTurn l) :
    l''.SameTurn l :=
  ⟨hsnd.phase_eq.trans hfst.phase_eq, hsnd.active_eq.trans hfst.active_eq,
    hsnd.functors_eq.trans hfst.functors_eq⟩

end ServerLoop.SameTurn

/-- One step of an iteration: `poll` and `activeChannels_`, each event, and the batch of functors. -/
inductive ServerLoop.Turn (reports : ActiveChannel → Prop) (l l' : ServerLoop) : Prop where
  | stay (hsame : l'.SameTurn l)
  | poll (hphase : l.phase = .polling) (hreports : ∀ a ∈ l'.activeChannels, reports a)
      (hdispatching : l'.phase = .dispatching) (hfunctors : l'.functors = l.functors)
  | dispatch (a : ActiveChannel) (hactive : l.activeChannels = a :: l'.activeChannels)
      (hphase : l'.phase = l.phase) (hfunctors : l'.functors = l.functors)
  | call (hphase : l.phase = .dispatching) (hactive : l.activeChannels = [])
      (hcalling : l'.phase = .calling) (hnone : l'.activeChannels = [])
  | finish (hphase : l.phase = .calling) (hpolling : l'.phase = .polling)
      (hfunctors : l'.functors = []) (hactive : l'.activeChannels = l.activeChannels)

theorem ServerLoop.Turn.stays {reports : ActiveChannel → Prop} {l l' l'' : ServerLoop}
    (h : Turn reports l l') (hsame : l''.SameTurn l') : Turn reports l l'' := by
  obtain ⟨hphase', hactive', hfunctors'⟩ := hsame
  cases h with
  | stay hbefore => exact .stay (.trans ⟨hphase', hactive', hfunctors'⟩ hbefore)
  | poll hphase hreports hdispatching hfunctors =>
    exact .poll hphase (hactive' ▸ hreports) (hphase'.trans hdispatching) (hfunctors'.trans hfunctors)
  | dispatch a hactive hphase hfunctors =>
    exact .dispatch a (hactive' ▸ hactive) (hphase'.trans hphase) (hfunctors'.trans hfunctors)
  | call hphase hactive hcalling hnone =>
    exact .call hphase hactive (hphase'.trans hcalling) (hactive'.trans hnone)
  | finish hphase hpolling hfunctors hactive =>
    exact .finish hphase (hphase'.trans hpolling) (hfunctors'.trans hfunctors)
      (hactive'.trans hactive)

namespace Server

variable {w w' : Server n} {config : ServerConfig} {conn : Nat} {loop other : Fin (n + 1)}
  {f : Session Nat → Session Nat} {g : ServerLoop → ServerLoop}

/-! ### The turn of a loop -/

theorem sameTurn_modifyLoop (hg : (g (w.loops loop)).SameTurn (w.loops loop))
    (other : Fin (n + 1)) : ((w.modifyLoop loop g).loops other).SameTurn (w.loops other) := by
  by_cases heq : other = loop
  · subst heq
    rw [modifyLoop_loops_self]
    exact hg
  · rw [modifyLoop_loops_of_ne heq]
    exact .refl _

theorem sameTurn_userCode (other : Fin (n + 1)) :
    ((w.modifyLoop loop fun l => { l with stack := .userCode :: l.stack }).loops other).SameTurn
      (w.loops other) :=
  sameTurn_modifyLoop ⟨rfl, rfl, rfl⟩ other

theorem sameTurn_push (functor : ServerFunctor) (other : Fin (n + 1)) :
    ((w.modifyLoop loop fun l => l.push functor).loops other).SameTurn (w.loops other) :=
  sameTurn_modifyLoop ⟨rfl, rfl, rfl⟩ other

theorem sameTurn_onConnection (other : Fin (n + 1)) :
    ((w.onConnection conn f).loops other).SameTurn (w.loops other) := by
  rcases onConnection_loops_cases w conn f other with heq | heq <;> rw [heq]
  · exact .refl _
  · exact ⟨rfl, rfl, rfl⟩

theorem sameTurn_removeConnectionInLoop (conn : Nat) (other : Fin (n + 1)) :
    ((w.removeConnectionInLoop conn).loops other).SameTurn (w.loops other) :=
  sameTurn_push (w := { w with connections := _ }) _ other

theorem sameTurn_handleEvent (accepted : Option Nat) (a : ActiveChannel) (other : Fin (n + 1)) :
    ((w.handleEvent config loop accepted a).loops other).SameTurn (w.loops other) := by
  cases a with
  | connection conn revents =>
    simp only [Server.handleEvent]
    split
    · exact sameTurn_modifyLoop ⟨rfl, rfl, rfl⟩ other
    · exact .refl _
  | acceptor =>
    cases accepted with
    | none => exact .refl _
    | some sockfd =>
      simp only [Server.handleEvent, Server.newConnection]
      split
      · exact sameTurn_onConnection (w := w.insertConnection config sockfd) other
      · exact sameTurn_push (w := w.insertConnection config sockfd) _ other
  | wakeup => exact .refl _

theorem sameTurn_runFrame (read : Except Errno (List Byte)) (write : Except Errno Nat)
    (frame : Frame) (other : Fin (n + 1)) :
    ((w.runFrame loop read write frame).loops other).SameTurn (w.loops other) := by
  cases frame with
  | removeConnection conn =>
    simp only [Server.runFrame, removeConnection]
    split
    · exact sameTurn_removeConnectionInLoop conn other
    · exact sameTurn_push _ other
  | userCode => exact .refl _
  | handleRead conn => exact sameTurn_onConnection (f := fun s => s.handleRead read) other
  | handleWrite conn => exact sameTurn_onConnection (f := fun s => s.handleWrite write) other
  | _ conn => exact sameTurn_onConnection other

theorem sameTurn_callFunctor (file : Nat → List Byte) (write : Except Errno Nat)
    (functor : ServerFunctor) (other : Fin (n + 1)) :
    ((w.callFunctor file loop write functor).loops other).SameTurn (w.loops other) := by
  cases functor with
  | connectEstablished conn => exact sameTurn_onConnection other
  | connectDestroyed conn => exact sameTurn_onConnection other
  | removeConnectionInLoop conn => exact sameTurn_removeConnectionInLoop conn other
  | user => exact sameTurn_userCode other
  | task conn task =>
    cases task with
    | sendFileInLoop fileDescriptor offset count =>
      simp only [Server.callFunctor]
      split
      · exact sameTurn_onConnection other
      · exact .refl _
    | writeCompleteCallback => exact sameTurn_userCode other
    | highWaterMarkCallback length => exact sameTurn_userCode other

theorem turn_modifyLoop {reports : ActiveChannel → Prop} (other : Fin (n + 1))
    (hg : other = loop → ServerLoop.Turn reports (w.loops loop) (g (w.loops loop))) :
    ServerLoop.Turn reports (w.loops other) ((w.modifyLoop loop g).loops other) := by
  by_cases heq : other = loop
  · subst heq
    rw [modifyLoop_loops_self]
    exact hg rfl
  · rw [modifyLoop_loops_of_ne heq]
    exact .stay (.refl _)

/-- What a step does to the turn of a loop. -/
theorem move_turn {file : Nat → List Byte} {action : ServerAction n}
    (hmove : w.move file config action = some w') (other : Fin (n + 1)) :
    ServerLoop.Turn (w.Reports other) (w.loops other) (w'.loops other) := by
  cases action with
  | poll loop active =>
    obtain ⟨⟨hphase, hreports⟩, rfl⟩ := guarded_eq_some.mp hmove
    refine turn_modifyLoop other fun heq => ?_
    subst heq
    exact .poll hphase hreports rfl rfl
  | dispatch loop accepted =>
    obtain ⟨a, rest, hactive, -, rfl⟩ := move_dispatch hmove
    have hpop : ServerLoop.Turn (w.Reports other) (w.loops other)
        ((w.modifyLoop loop fun l => { l with activeChannels := rest }).loops other) :=
      turn_modifyLoop other fun _ => .dispatch a hactive rfl rfl
    exact hpop.stays (sameTurn_handleEvent accepted a other)
  | frame loop read write =>
    obtain ⟨frame, rest, -, rfl⟩ := move_frame hmove
    have hpop : ((w.modifyLoop loop fun l => { l with stack := rest }).loops other).SameTurn
        (w.loops other) := sameTurn_modifyLoop ⟨rfl, rfl, rfl⟩ other
    exact .stay ((sameTurn_runFrame read write frame other).trans hpop)
  | runFunctor loop write =>
    obtain ⟨functor, rest, -, -, rfl⟩ := move_runFunctor hmove
    have hpop : ((w.modifyLoop loop fun l => { l with todo := rest }).loops other).SameTurn
        (w.loops other) := sameTurn_modifyLoop ⟨rfl, rfl, rfl⟩ other
    exact .stay ((sameTurn_callFunctor file write functor other).trans hpop)
  | doPendingFunctors loop =>
    obtain ⟨⟨hphase, -, hactive⟩, rfl⟩ := guarded_eq_some.mp hmove
    exact turn_modifyLoop other fun _ => .call hphase hactive rfl hactive
  | endBatch loop =>
    obtain ⟨⟨hphase, -, -⟩, rfl⟩ := guarded_eq_some.mp hmove
    exact turn_modifyLoop other fun _ => .finish hphase rfl rfl rfl
  | handled loop =>
    obtain ⟨-, rfl⟩ := guarded_eq_some.mp hmove
    exact .stay (sameTurn_modifyLoop ⟨rfl, rfl, rfl⟩ other)
  | send loop conn data write =>
    obtain ⟨-, rfl⟩ := guarded_eq_some.mp hmove
    exact .stay (sameTurn_onConnection other)
  | sendFile loop conn fileDescriptor offset count write =>
    obtain ⟨-, rfl⟩ := guarded_eq_some.mp hmove
    exact .stay (sameTurn_onConnection other)
  | shutdown loop conn =>
    obtain ⟨-, rfl⟩ := guarded_eq_some.mp hmove
    exact .stay (sameTurn_onConnection other)
  | queueInLoop loop =>
    obtain rfl := Option.some.inj hmove
    exact .stay (sameTurn_push _ other)
  | drop conn =>
    obtain rfl := Option.some.inj hmove
    exact .stay (.refl _)
  | hold conn =>
    obtain ⟨-, rfl⟩ := guarded_eq_some.mp hmove
    exact .stay (.refl _)

/-- Connections are accepted by the main loop. -/
def Seated (w : Server n) : Prop :=
  ∀ loop, .acceptor ∈ (w.loops loop).activeChannels → w.Reports loop .acceptor

theorem Seated.move {file : Nat → List Byte} {action : ServerAction n} (h : w.Seated)
    (hmove : w.move file config action = some w') : w'.Seated := by
  intro loop hmem
  cases move_turn hmove loop with
  | stay hsame => exact h loop (hsame.active_eq ▸ hmem)
  | poll hphase hreports => exact hreports _ hmem
  | dispatch a hactive =>
    refine h loop ?_
    rw [hactive]
    exact List.mem_cons_of_mem a hmem
  | call hphase hactive hcalling hnone =>
    rw [hnone] at hmem
    cases hmem
  | finish hphase hpolling hfunctors hactive => exact h loop (hactive ▸ hmem)

theorem Seated.onConnection (h : w.Seated) : (w.onConnection conn f).Seated := by
  intro other hmem
  rw [(sameTurn_onConnection other).active_eq] at hmem
  exact h other hmem

/-! ### Stacks of other loops -/

theorem modifyLoop_stack (hg : other = loop → (g (w.loops loop)).stack = (w.loops loop).stack) :
    ((w.modifyLoop loop g).loops other).stack = (w.loops other).stack := by
  by_cases heq : other = loop
  · subst heq
    rw [modifyLoop_loops_self]
    exact hg rfl
  · rw [modifyLoop_loops_of_ne heq]

theorem userCode_stack (hne : other ≠ loop) :
    ((w.modifyLoop loop fun l => { l with stack := .userCode :: l.stack }).loops other).stack
      = (w.loops other).stack :=
  modifyLoop_stack fun heq => absurd heq hne

theorem removeConnectionInLoop_stack (conn : Nat) :
    ((w.removeConnectionInLoop conn).loops other).stack = (w.loops other).stack :=
  modifyLoop_stack (w := { w with connections := _ }) fun _ => rfl

theorem onConnection_stack
    (hother : other = w.loopOf conn → callbacks (f (w.session conn)).trace = []) :
    ((w.onConnection conn f).loops other).stack = (w.loops other).stack := by
  by_cases heq : other = w.loopOf conn
  · subst heq
    have hnone : callbackFrames conn (f (w.session conn)).trace = [] := by
      refine List.filterMap_eq_nil_iff.mpr fun event hmem => ?_
      have hquiet := List.filter_eq_nil_iff.mp (hother rfl) event hmem
      cases event <;> first | rfl | exact absurd rfl hquiet
    rw [onConnection_loops_self, ServerLoop.after, hnone, List.nil_append]
  · rw [onConnection_loops_of_ne heq]

theorem newConnection_stack (sockfd : Nat) (hother : other ≠ 0) :
    ((w.newConnection config sockfd).loops other).stack = (w.loops other).stack := by
  simp only [Server.newConnection]
  split
  · rename_i hmain
    refine onConnection_stack (w := w.insertConnection config sockfd) fun heq => absurd ?_ hother
    rw [heq, loopOf, insertConnection_conns_self]
    exact hmain
  · exact modifyLoop_stack (w := w.insertConnection config sockfd) fun _ => rfl

/-- A step that works on the stack of one loop leaves those of the others alone, and no other step
works on a stack. -/
theorem move_stack {file : Nat → List Byte} {action : ServerAction n} (hinv : Inv config w)
    (hseated : w.Seated) (hmove : w.move file config action = some w')
    (huser : action.ofUser = false) (hother : action.stackOf ≠ some other) :
    (w'.loops other).stack = (w.loops other).stack := by
  cases action with
  | dispatch loop accepted =>
    obtain ⟨a, rest, hactive, -, rfl⟩ := move_dispatch hmove
    have hne : other ≠ loop := fun heq => hother (congrArg some heq.symm)
    have hpop := modifyLoop_stack (w := w) (g := fun l => { l with activeChannels := rest })
      fun heq : other = loop => absurd heq hne
    refine Eq.trans ?_ hpop
    cases a with
    | connection conn revents =>
      simp only [Server.handleEvent]
      split
      · exact modifyLoop_stack fun heq => absurd heq hne
      · rfl
    | acceptor =>
      have hmain : loop = 0 := by
        refine hseated loop ?_
        rw [hactive]
        exact List.mem_cons_self
      cases accepted with
      | none => rfl
      | some sockfd => exact newConnection_stack sockfd (hmain ▸ hne)
    | wakeup => rfl
  | frame loop read write =>
    obtain ⟨frame, rest, hstack, rfl⟩ := move_frame hmove
    have hne : other ≠ loop := fun heq => hother (congrArg some heq.symm)
    have hpop := modifyLoop_stack (w := w) (g := fun l => { l with stack := rest })
      fun heq : other = loop => absurd heq hne
    refine Eq.trans ?_ hpop
    have hhandler : ∀ conn, frame.event = some conn → other ≠ w.loopOf conn := by
      intro conn hevent heq
      exact hne (heq.trans (hinv.handling hstack hevent).1.symm)
    cases frame with
    | removeConnection conn =>
      simp only [Server.runFrame, removeConnection]
      split
      · exact removeConnectionInLoop_stack conn
      · exact modifyLoop_stack fun _ => rfl
    | userCode => rfl
    | handleRead conn =>
      exact onConnection_stack (f := fun s => s.handleRead read) fun heq =>
        absurd heq (hhandler conn rfl)
    | _ conn => exact onConnection_stack fun heq => absurd heq (hhandler conn rfl)
  | runFunctor loop write =>
    obtain ⟨functor, rest, htodo, -, rfl⟩ := move_runFunctor hmove
    have hne : other ≠ loop := fun heq => hother (congrArg some heq.symm)
    have hpop := modifyLoop_stack (w := w) (g := fun l => { l with todo := rest })
      fun heq : other = loop => absurd heq hne
    refine Eq.trans ?_ hpop
    have hmem : functor ∈ (w.loops loop).queue := by
      apply List.mem_append_right
      rw [htodo]
      exact List.mem_cons_self
    cases functor with
    | connectEstablished conn =>
      obtain ⟨hloop, -⟩ := (hinv.tracks loop conn).establishing hmem
      exact onConnection_stack fun heq => absurd (heq.trans hloop) hne
    | connectDestroyed conn =>
      have hloop := (hinv.tracks loop conn).destroying hmem
      exact onConnection_stack fun heq => absurd (heq.trans hloop) hne
    | removeConnectionInLoop conn => exact removeConnectionInLoop_stack conn
    | user => exact userCode_stack hne
    | task conn task =>
      cases task with
      | sendFileInLoop fileDescriptor offset count =>
        simp only [Server.callFunctor]
        split
        · exact onConnection_stack fun _ => (Calls.sendFileInLoop ..).callbacks_eq
        · rfl
      | writeCompleteCallback => exact userCode_stack hne
      | highWaterMarkCallback length => exact userCode_stack hne
  | poll loop active =>
    obtain ⟨-, rfl⟩ := guarded_eq_some.mp hmove
    exact modifyLoop_stack fun _ => rfl
  | handled loop =>
    obtain ⟨-, rfl⟩ := guarded_eq_some.mp hmove
    exact modifyLoop_stack fun _ => rfl
  | doPendingFunctors loop =>
    obtain ⟨-, rfl⟩ := guarded_eq_some.mp hmove
    exact modifyLoop_stack fun _ => rfl
  | endBatch loop =>
    obtain ⟨-, rfl⟩ := guarded_eq_some.mp hmove
    exact modifyLoop_stack fun _ => rfl
  | _ => cases huser

end Server

end MuduoCore
