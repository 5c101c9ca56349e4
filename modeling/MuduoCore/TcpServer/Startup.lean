import MuduoCore.Lib.RoundRobin
import MuduoCore.Lib.Simulation
import MuduoCore.TcpServer.Confinement

/-!
# Starting a server

`TcpServer::start` may be called several times and from several threads. The call that finds
`started_` at 0 starts the threads of the pool one after the other and then hands
`Acceptor::listen` to the main loop. Whoever gets there first, the vector `loops_` is complete before
`getNextLoop` reads it, since no connection is accepted before the acceptor listens.

`Startup` is what of the server takes part in this.
-/

namespace MuduoCore

/-- What is left to do belongs to the call of `start` that starts the server. -/
def ThreadFrame.starts : ThreadFrame → Bool
  | .startPool _ | .listen => true
  | _ => false

def LoopFunctor.listens : LoopFunctor → Bool
  | .listen => true
  | _ => false

def Execution.listens : Execution → Bool
  | .listen => true
  | _ => false

def ActiveChannel.accepts : ActiveChannel → Bool
  | .acceptor => true
  | _ => false

/-! ### The protocol -/

/-- `frames` holds what each thread has left to do for `start`, `queued` the number of `listen`s in the
queue of each loop, `active` that of reports for the acceptor, and `listens` that of executions of
`listen`. -/
@[ext]
structure Startup (θ : Type*) where
  started : BitVec 32
  loopsStarted : Nat
  next : Nat
  accepted : Nat
  loopOf : Nat → Nat
  listening : Bool
  frames : ServerThread θ → List ThreadFrame
  queued : Nat → Nat
  active : Nat → Nat
  listens : Nat

inductive StartupAction (θ : Type*) where
  | start (thread : ServerThread θ)
  /-- The thread goes on with the call of `start`. -/
  | advance (thread : ServerThread θ)
  | run (loop : Nat)
  | report (loop count : Nat)
  | accept (loop : Nat)
  /-- The server is gone, or the batch is given up. -/
  | abandon (thread : ServerThread θ)
  | discard (loop count : Nat)

namespace Startup

variable {θ : Type*}

def new : Startup θ where
  started := 0
  loopsStarted := 0
  next := 0
  accepted := 0
  loopOf _ := 0
  listening := false
  frames _ := []
  queued _ := 0
  active _ := 0
  listens := 0

def listen (s : Startup θ) : Startup θ :=
  { s with listening := true, listens := s.listens + 1 }

/-- `getNextLoop`, and `next_` after it. -/
def getNextLoop (s : Startup θ) : Nat × Nat :=
  if s.loopsStarted = 0 then (0, s.next)
  else (s.next + 1, if s.loopsStarted ≤ s.next + 1 then 0 else s.next + 1)

def accept (s : Startup θ) : Startup θ :=
  { s with
    accepted := s.accepted + 1
    loopOf := Function.update s.loopOf s.accepted s.getNextLoop.1
    next := s.getNextLoop.2 }

def setActive (s : Startup θ) (loop count : Nat) : Startup θ :=
  { s with active := Function.update s.active loop count }

def setQueued (s : Startup θ) (loop count : Nat) : Startup θ :=
  { s with queued := Function.update s.queued loop count }

@[simp]
theorem setActive_self (s : Startup θ) (loop : Nat) : s.setActive loop (s.active loop) = s := by
  rw [setActive, Function.update_eq_self]

@[simp]
theorem setQueued_self (s : Startup θ) (loop : Nat) : s.setQueued loop (s.queued loop) = s := by
  rw [setQueued, Function.update_eq_self]

variable [DecidableEq θ]

def setFrames (s : Startup θ) (thread : ServerThread θ) (frames : List ThreadFrame) : Startup θ :=
  { s with frames := Function.update s.frames thread frames }

@[simp]
theorem setFrames_frames_self (s : Startup θ) (thread : ServerThread θ)
    (frames : List ThreadFrame) : (s.setFrames thread frames).frames thread = frames :=
  Function.update_self ..

@[simp]
theorem setFrames_setFrames (s : Startup θ) (thread : ServerThread θ)
    (frames frames' : List ThreadFrame) :
    (s.setFrames thread frames).setFrames thread frames' = s.setFrames thread frames' := by
  simp only [setFrames, Function.update_idem]

theorem setFrames_self (s : Startup θ) (thread : ServerThread θ) :
    s.setFrames thread (s.frames thread) = s := by
  rw [setFrames, Function.update_eq_self]

/-- The thread has the topmost frame behind it. -/
def advance (s : Startup θ) (thread : ServerThread θ) (rest : List ThreadFrame) :
    ThreadFrame → Option (Startup θ)
  | .startPool 0 => some (s.setFrames thread (.listen :: rest))
  | .startPool (left + 1) =>
      some ({ s with loopsStarted := s.loopsStarted + 1 }.setFrames thread
        (.startPool left :: rest))
  | .listen =>
      if thread = .loop 0 then some (s.setFrames thread rest).listen
      else some ((s.setFrames thread rest).setQueued 0 (s.queued 0 + 1))
  | _ => none

def step (numThreads : Nat) (s : Startup θ) : StartupAction θ → Option (Startup θ)
  | .start thread =>
      some (if s.started = 0 then
        { s with started := s.started + 1 }.setFrames thread
          (.startPool numThreads :: s.frames thread)
      else { s with started := s.started + 1 })
  | .advance thread =>
      match s.frames thread with
      | [] => none
      | frame :: rest => s.advance thread rest frame
  | .run loop => guarded (0 < s.queued loop) (s.setQueued loop (s.queued loop - 1)).listen
  | .report loop count =>
      guarded (count ≤ s.active loop ∨ s.listening = true) (s.setActive loop count)
  | .accept loop =>
      guarded (0 < s.active loop) (s.setActive loop (s.active loop - 1)).accept
  | .abandon thread => some (s.setFrames thread (s.frames thread).tail)
  | .discard loop count => guarded (count ≤ s.queued loop) (s.setQueued loop count)

def system (numThreads : Nat) : System (Startup θ) (StartupAction θ) where
  init s := s = new
  step := step numThreads

/-- No call of `start` makes `started_` wrap around to 0. -/
def Few (s : Startup θ) : StartupAction θ → Prop
  | .start _ => s.started + 1 ≠ 0
  | _ => True

/-! ### There is one call that starts the server -/

/-- Where the start of the server stands. -/
inductive Stage (θ : Type*) where
  | new
  | pool (thread : ServerThread θ) (left : Nat)
  | frame (thread : ServerThread θ)
  | queued
  | listening
  | abandoned
  deriving DecidableEq

namespace Stage

def frames : Stage θ → ServerThread θ → List ThreadFrame
  | pool thread left => Function.update (fun _ => []) thread [.startPool left]
  | frame thread => Function.update (fun _ => []) thread [.listen]
  | _ => fun _ => []

omit [DecidableEq θ] in
def queuedAt (stage : Stage θ) : Nat → Nat :=
  match stage with
  | queued => Function.update (fun _ => 0) 0 1
  | _ => fun _ => 0

def Complete (numThreads loopsStarted : Nat) : Stage θ → Prop
  | new => loopsStarted = 0
  | pool _ left => loopsStarted + left = numThreads
  | abandoned => True
  | _ => loopsStarted = numThreads

end Stage

structure At (numThreads : Nat) (stage : Stage θ) (s : Startup θ) : Prop where
  started : s.started = 0 → stage = .new
  frames_eq : s.frames = stage.frames
  queued_eq : s.queued = stage.queuedAt
  listens_eq : s.listens = if stage = .listening then 1 else 0
  listening_eq : s.listening = decide (stage = .listening)
  complete : stage.Complete numThreads s.loopsStarted

section Stages

variable {numThreads : Nat} {s s' : Startup θ} {stage : Stage θ}

theorem at_new : At numThreads Stage.new (new : Startup θ) where
  started _ := rfl
  frames_eq := rfl
  queued_eq := rfl
  listens_eq := rfl
  listening_eq := rfl
  complete := rfl

theorem eq_of_update {starter thread : ServerThread θ} {first frame : ThreadFrame}
    {rest : List ThreadFrame}
    (h : Function.update (fun _ => []) starter [first] thread = frame :: rest) :
    thread = starter ∧ frame = first ∧ rest = [] := by
  by_cases heq : thread = starter
  · rw [heq, Function.update_self] at h
    obtain ⟨hfirst, hrest⟩ := List.cons.inj h
    exact ⟨heq, hfirst.symm, hrest.symm⟩
  · rw [Function.update_of_ne heq] at h
    cases h

theorem At.begun {t : Startup θ} {later : Stage θ} (h : At numThreads stage s)
    (hstage : stage ≠ .new) (heq : t.started = s.started) : t.started = 0 → later = .new :=
  fun hzero => absurd (h.started (heq.symm.trans hzero)) hstage

/-- What a thread takes up is the call that starts the server. -/
theorem At.advance (h : At numThreads stage s) {thread : ServerThread θ} {frame : ThreadFrame}
    {rest : List ThreadFrame} (hframes : s.frames thread = frame :: rest)
    (hstep : s.advance thread rest frame = some s') : ∃ stage, At numThreads stage s' := by
  have hthread := hframes
  rw [h.frames_eq] at hthread
  cases stage with
  | pool starter left =>
      obtain ⟨rfl, rfl, rfl⟩ := eq_of_update hthread
      have hcomplete : s.loopsStarted + left = numThreads := h.complete
      cases left with
      | zero =>
          obtain rfl := Option.some.inj hstep
          refine ⟨.frame thread, h.begun nofun rfl, ?_, h.queued_eq, h.listens_eq,
            h.listening_eq, hcomplete⟩
          rw [setFrames, h.frames_eq, Stage.frames, Function.update_idem, Stage.frames]
      | succ left =>
          obtain rfl := Option.some.inj hstep
          refine ⟨.pool thread left, h.begun nofun rfl, ?_, h.queued_eq,
            h.listens_eq, h.listening_eq, ?_⟩
          · rw [setFrames, h.frames_eq, Stage.frames, Function.update_idem, Stage.frames]
          · simp only [Stage.Complete, setFrames]
            omega
  | frame starter =>
      obtain ⟨rfl, rfl, rfl⟩ := eq_of_update hthread
      have hempty : Function.update s.frames thread [] = fun _ => [] := by
        rw [h.frames_eq, Stage.frames, Function.update_idem, Function.update_eq_self]
      simp only [Startup.advance] at hstep
      split at hstep
      · obtain rfl := Option.some.inj hstep
        refine ⟨.listening, h.begun nofun rfl, hempty, h.queued_eq, ?_, rfl,
          h.complete⟩
        rw [listen, setFrames, h.listens_eq]
        rfl
      · obtain rfl := Option.some.inj hstep
        refine ⟨.queued, h.begun nofun rfl, hempty, ?_, h.listens_eq,
          h.listening_eq, h.complete⟩
        simp only [setQueued, setFrames, h.queued_eq, Stage.queuedAt]
  | _ => cases hthread

/-- A call of `start` begins the start of the server, or finds it begun. -/
theorem At.start (h : At numThreads stage s) {thread : ServerThread θ} (hfew : s.started + 1 ≠ 0)
    (hstep : step numThreads s (.start thread) = some s') : ∃ stage, At numThreads stage s' := by
  obtain rfl := Option.some.inj hstep
  split
  · rename_i hzero
    obtain rfl := h.started hzero
    refine ⟨.pool thread numThreads, fun hwrap => absurd hwrap hfew, ?_, h.queued_eq, h.listens_eq,
      h.listening_eq, ?_⟩
    · rw [setFrames, h.frames_eq]
      rfl
    · have hloops : s.loopsStarted = 0 := h.complete
      simp only [Stage.Complete, setFrames, hloops, Nat.zero_add]
  · exact ⟨stage, fun hwrap => absurd hwrap hfew, h.frames_eq, h.queued_eq, h.listens_eq,
      h.listening_eq, h.complete⟩

/-- The functor that waits is the one that lets the acceptor listen. -/
theorem At.of_queued (h : At numThreads stage s) {loop : Nat} (hqueued : 0 < s.queued loop) :
    stage = .queued ∧ s.queued loop = 1 ∧ Function.update s.queued loop 0 = fun _ => 0 := by
  rw [h.queued_eq] at hqueued ⊢
  cases stage with
  | queued =>
      by_cases heq : loop = 0
      · refine ⟨rfl, ?_, ?_⟩
        · rw [heq, Stage.queuedAt, Function.update_self]
        · rw [heq, Stage.queuedAt, Function.update_idem, Function.update_eq_self]
      · rw [Stage.queuedAt, Function.update_of_ne heq] at hqueued
        cases hqueued
  | _ => cases hqueued

theorem At.run (h : At numThreads stage s) {loop : Nat} (hqueued : 0 < s.queued loop) :
    At numThreads .listening (s.setQueued loop (s.queued loop - 1)).listen := by
  obtain ⟨rfl, hone, hempty⟩ := h.of_queued hqueued
  rw [hone]
  refine ⟨h.begun nofun rfl, h.frames_eq, hempty, ?_, rfl, h.complete⟩
  rw [listen, setQueued, h.listens_eq]
  rfl

theorem At.discard (h : At numThreads stage s) {loop count : Nat} (hcount : count ≤ s.queued loop) :
    ∃ stage, At numThreads stage (s.setQueued loop count) := by
  by_cases hsame : count = s.queued loop
  · refine ⟨stage, h.started, h.frames_eq, ?_, h.listens_eq, h.listening_eq, h.complete⟩
    rw [setQueued, hsame, ← h.queued_eq]
    exact Function.update_eq_self loop s.queued
  · have hqueued : 0 < s.queued loop := by omega
    obtain ⟨rfl, hone, hempty⟩ := h.of_queued hqueued
    obtain rfl : count = 0 := by omega
    exact ⟨.abandoned, h.begun nofun rfl, h.frames_eq, hempty, h.listens_eq, h.listening_eq,
      trivial⟩

theorem At.abandon (h : At numThreads stage s) (thread : ServerThread θ) :
    ∃ stage, At numThreads stage (s.setFrames thread (s.frames thread).tail) := by
  cases hframes : s.frames thread with
  | nil =>
      refine ⟨stage, h.started, ?_, h.queued_eq, h.listens_eq, h.listening_eq, h.complete⟩
      rw [setFrames, List.tail_nil, ← h.frames_eq]
      exact Function.update_eq_iff.mpr ⟨hframes.symm, fun _ _ => rfl⟩
  | cons frame rest =>
      have hthread := hframes
      rw [h.frames_eq] at hthread
      have hempty : ∀ {first : ThreadFrame},
          s.frames = Function.update (fun _ => []) thread [first] → rest = [] →
          Function.update s.frames thread rest = fun _ => [] := by
        intro first heq hrest
        rw [heq, hrest, Function.update_idem, Function.update_eq_self]
      cases stage with
      | pool starter left =>
          obtain ⟨rfl, -, hrest⟩ := eq_of_update hthread
          exact ⟨.abandoned, h.begun nofun rfl, hempty h.frames_eq hrest,
            h.queued_eq, h.listens_eq, h.listening_eq, trivial⟩
      | frame starter =>
          obtain ⟨rfl, -, hrest⟩ := eq_of_update hthread
          exact ⟨.abandoned, h.begun nofun rfl, hempty h.frames_eq hrest,
            h.queued_eq, h.listens_eq, h.listening_eq, trivial⟩
      | _ => cases hthread

end Stages

/-! ### Connections take the loops in turn -/

/-- The loop of the connection with the given number. -/
def turn (numThreads conn : Nat) : Nat :=
  if numThreads = 0 then 0 else conn % numThreads + 1

structure Inv (numThreads : Nat) (s : Startup θ) : Prop where
  stage : ∃ stage, At numThreads stage s
  active : ∀ loop, 0 < s.active loop → s.listening = true
  accepted : 0 < s.accepted → s.listening = true
  next_eq : s.next = if numThreads = 0 then 0 else s.accepted % numThreads
  loopOf_eq : ∀ conn < s.accepted, s.loopOf conn = turn numThreads conn

/-- No connection is accepted in the step. -/
structure Kept (s s' : Startup θ) : Prop where
  active_eq : s'.active = s.active
  accepted_eq : s'.accepted = s.accepted
  next_eq : s'.next = s.next
  loopOf_eq : s'.loopOf = s.loopOf
  listening : s.listening = true → s'.listening = true

section Turns

variable {numThreads : Nat} {s s' : Startup θ}

theorem Inv.complete (h : Inv numThreads s) (hlistening : s.listening = true) :
    s.loopsStarted = numThreads := by
  obtain ⟨stage, hat⟩ := h.stage
  rw [hat.listening_eq, decide_eq_true_eq] at hlistening
  subst hlistening
  exact hat.complete

theorem Inv.kept (h : Inv numThreads s) (hstage : ∃ stage, At numThreads stage s')
    (hkept : Kept s s') : Inv numThreads s' := by
  refine ⟨hstage, ?_, ?_, ?_, ?_⟩
  · intro loop hactive
    rw [hkept.active_eq] at hactive
    exact hkept.listening (h.active loop hactive)
  · intro haccepted
    rw [hkept.accepted_eq] at haccepted
    exact hkept.listening (h.accepted haccepted)
  · rw [hkept.next_eq, hkept.accepted_eq]
    exact h.next_eq
  · intro conn hconn
    rw [hkept.accepted_eq] at hconn
    rw [hkept.loopOf_eq]
    exact h.loopOf_eq conn hconn

theorem advance_kept {thread : ServerThread θ} {frame : ThreadFrame} {rest : List ThreadFrame}
    (hstep : s.advance thread rest frame = some s') : Kept s s' := by
  unfold Startup.advance at hstep
  split at hstep
  · obtain rfl := Option.some.inj hstep
    exact ⟨rfl, rfl, rfl, rfl, id⟩
  · obtain rfl := Option.some.inj hstep
    exact ⟨rfl, rfl, rfl, rfl, id⟩
  · split at hstep
    · obtain rfl := Option.some.inj hstep
      exact ⟨rfl, rfl, rfl, rfl, fun _ => rfl⟩
    · obtain rfl := Option.some.inj hstep
      exact ⟨rfl, rfl, rfl, rfl, id⟩
  · cases hstep

theorem step_listening {a : StartupAction θ} (hstep : Startup.step numThreads s a = some s')
    (hlistening : s.listening = true) : s'.listening = true := by
  cases a with
  | start thread =>
      obtain rfl := Option.some.inj hstep
      split
      · exact hlistening
      · exact hlistening
  | advance thread =>
      simp only [Startup.step] at hstep
      split at hstep
      · cases hstep
      · exact (advance_kept hstep).listening hlistening
  | abandon thread =>
      obtain rfl := Option.some.inj hstep
      exact hlistening
  | run loop =>
      obtain ⟨-, rfl⟩ := guarded_eq_some.mp hstep
      rfl
  | _ =>
      obtain ⟨-, rfl⟩ := guarded_eq_some.mp hstep
      exact hlistening

theorem Inv.setActive (h : Inv numThreads s) {loop count : Nat}
    (hcount : count ≤ s.active loop ∨ s.listening = true) :
    Inv numThreads (s.setActive loop count) := by
  obtain ⟨stage, hat⟩ := h.stage
  refine ⟨⟨stage, hat.started, hat.frames_eq, hat.queued_eq, hat.listens_eq, hat.listening_eq,
    hat.complete⟩, ?_, h.accepted, h.next_eq, h.loopOf_eq⟩
  intro other hactive
  rcases hcount with hless | hlistening
  · simp only [Startup.setActive] at hactive
    by_cases heq : other = loop
    · subst heq
      rw [Function.update_self] at hactive
      exact h.active other (hactive.trans_le hless)
    · rw [Function.update_of_ne heq] at hactive
      exact h.active other hactive
  · exact hlistening

/-- The pool is complete, so `next_` goes round it. -/
theorem Inv.accept (h : Inv numThreads s) (hlistening : s.listening = true) :
    Inv numThreads s.accept := by
  obtain ⟨stage, hat⟩ := h.stage
  have hloops := h.complete hlistening
  refine ⟨⟨stage, hat.started, hat.frames_eq, hat.queued_eq, hat.listens_eq, hat.listening_eq,
    hat.complete⟩, h.active, fun _ => hlistening, ?_, ?_⟩
  · simp only [Startup.accept, getNextLoop, hloops]
    by_cases hnone : numThreads = 0
    · simp only [hnone, if_pos, h.next_eq]
    · simp only [if_neg hnone, h.next_eq]
      have hlt := Nat.mod_lt s.accepted (Nat.pos_of_ne_zero hnone)
      have hmod := Nat.mod_add_mod s.accepted numThreads 1
      split
      · have hround : s.accepted % numThreads + 1 = numThreads := by omega
        rw [← hmod, hround, Nat.mod_self]
      · have hroom : s.accepted % numThreads + 1 < numThreads := by omega
        rw [← hmod, Nat.mod_eq_of_lt hroom]
  · intro conn hconn
    simp only [Startup.accept]
    by_cases heq : conn = s.accepted
    · rw [heq, Function.update_self]
      simp only [getNextLoop, hloops, turn, h.next_eq]
      split
      · rfl
      · rfl
    · rw [Function.update_of_ne heq]
      refine h.loopOf_eq conn ?_
      simp only [Startup.accept] at hconn
      omega

theorem Inv.step {a : StartupAction θ} (h : Inv numThreads s) (hfew : s.Few a)
    (hstep : Startup.step numThreads s a = some s') : Inv numThreads s' := by
  obtain ⟨stage, hat⟩ := h.stage
  cases a with
  | start thread =>
      refine h.kept (hat.start hfew hstep) ?_
      obtain rfl := Option.some.inj hstep
      split
      · exact ⟨rfl, rfl, rfl, rfl, id⟩
      · exact ⟨rfl, rfl, rfl, rfl, id⟩
  | advance thread =>
      simp only [Startup.step] at hstep
      split at hstep
      · cases hstep
      · rename_i frame rest hframes
        exact h.kept (hat.advance hframes hstep) (advance_kept hstep)
  | run loop =>
      obtain ⟨hqueued, rfl⟩ := guarded_eq_some.mp hstep
      exact h.kept ⟨_, hat.run hqueued⟩ ⟨rfl, rfl, rfl, rfl, fun _ => rfl⟩
  | report loop count =>
      obtain ⟨hcount, rfl⟩ := guarded_eq_some.mp hstep
      exact h.setActive hcount
  | accept loop =>
      obtain ⟨hactive, rfl⟩ := guarded_eq_some.mp hstep
      exact (h.setActive (.inl (Nat.sub_le ..))).accept (h.active loop hactive)
  | abandon thread =>
      obtain rfl := Option.some.inj hstep
      exact h.kept (hat.abandon thread) ⟨rfl, rfl, rfl, rfl, id⟩
  | discard loop count =>
      obtain ⟨hcount, rfl⟩ := guarded_eq_some.mp hstep
      exact h.kept (hat.discard hcount) ⟨rfl, rfl, rfl, rfl, id⟩

theorem reachable_inv (h : (system numThreads).ReachableUnder Few s) : Inv numThreads s := by
  refine h.invariant ?_ fun _ _ _ hinv hfew hstep => hinv.step hfew hstep
  rintro s rfl
  refine ⟨⟨.new, at_new⟩, fun _ hactive => absurd hactive (Nat.lt_irrefl 0),
    fun haccepted => absurd haccepted (Nat.lt_irrefl 0), ?_,
    fun _ hconn => absurd hconn (Nat.not_lt_zero _)⟩
  split
  · rfl
  · exact (Nat.zero_mod _).symm

end Turns

end Startup

namespace ThreadedServer

variable {θ : Type*}

/-! ### What of the server takes part -/

def startup (w : ThreadedServer θ) : Startup θ where
  started := w.started
  loopsStarted := w.loopsStarted
  next := w.next
  accepted := w.accepted
  loopOf := w.loopOf
  listening := w.listening
  frames thread := (w.stack thread).filter ThreadFrame.starts
  queued loop := (w.loops loop).queue.waiting.countP LoopFunctor.listens
  active loop := (w.loops loop).activeChannels.countP ActiveChannel.accepts
  listens := w.log.countP fun entry => entry.execution.listens

section Quiet

variable {w : ThreadedServer θ} {thread : ServerThread θ}

theorem startup_dangling (w : ThreadedServer θ) : w.dangling.startup = w.startup := rfl

theorem startup_record (w : ThreadedServer θ) {executions : List Execution}
    (hquiet : ∀ e ∈ executions, e.listens = false) :
    (w.record thread executions).startup = w.startup := by
  have hnone : (executions.map fun e => (⟨thread, e, w.destroyed⟩ : LogEntry θ)).countP
      (fun entry => entry.execution.listens) = 0 := by
    rw [List.countP_map, List.countP_eq_zero]
    intro e he
    simp [hquiet e he]
  ext : 1
  case listens =>
    simp only [startup, record]
    rw [List.countP_append, hnone, Nat.add_zero]
  all_goals rfl

theorem startup_modifyLoop (w : ThreadedServer θ) (loop : Nat) (f : IoLoop → IoLoop) :
    (w.modifyLoop loop f).startup =
      (w.startup.setQueued loop
        ((f (w.loops loop)).queue.waiting.countP LoopFunctor.listens)).setActive loop
          ((f (w.loops loop)).activeChannels.countP ActiveChannel.accepts) := by
  ext : 1
  case queued =>
    funext other
    simp only [startup, Startup.setQueued, Startup.setActive]
    by_cases heq : other = loop
    · rw [heq, modifyLoop_loops_self, Function.update_self]
    · rw [modifyLoop_loops_of_ne w heq, Function.update_of_ne heq]
  case active =>
    funext other
    simp only [startup, Startup.setQueued, Startup.setActive]
    by_cases heq : other = loop
    · rw [heq, modifyLoop_loops_self, Function.update_self]
    · rw [modifyLoop_loops_of_ne w heq, Function.update_of_ne heq]
  all_goals rfl

theorem startup_modifyQueue (w : ThreadedServer θ) {loop : Nat} {f : IoLoop → IoLoop}
    (hactive : (f (w.loops loop)).activeChannels = (w.loops loop).activeChannels) :
    (w.modifyLoop loop f).startup = w.startup.setQueued loop
      ((f (w.loops loop)).queue.waiting.countP LoopFunctor.listens) := by
  rw [startup_modifyLoop, hactive]
  exact Startup.setActive_self _ loop

theorem startup_modifyActive (w : ThreadedServer θ) {loop : Nat} {f : IoLoop → IoLoop}
    (hqueue : (f (w.loops loop)).queue.waiting.countP LoopFunctor.listens =
      (w.loops loop).queue.waiting.countP LoopFunctor.listens) :
    (w.modifyLoop loop f).startup = w.startup.setActive loop
      ((f (w.loops loop)).activeChannels.countP ActiveChannel.accepts) := by
  rw [startup_modifyLoop, hqueue]
  exact congrArg (Startup.setActive · loop _) (Startup.setQueued_self w.startup loop)

/-- The loop takes up nothing for the acceptor, and no `listen` comes or goes. -/
theorem startup_modifyQuiet (w : ThreadedServer θ) {loop : Nat} {f : IoLoop → IoLoop}
    (hqueue : (f (w.loops loop)).queue.waiting.countP LoopFunctor.listens =
      (w.loops loop).queue.waiting.countP LoopFunctor.listens)
    (hactive : (f (w.loops loop)).activeChannels = (w.loops loop).activeChannels) :
    (w.modifyLoop loop f).startup = w.startup := by
  rw [startup_modifyQueue w hactive, hqueue]
  exact Startup.setQueued_self w.startup loop

theorem startup_queueInLoop (w : ThreadedServer θ) {loop : Nat} {functors : List LoopFunctor}
    (hquiet : ∀ functor ∈ functors, functor.listens = false) :
    (w.queueInLoop loop functors).startup = w.startup := by
  unfold queueInLoop
  split
  · exact startup_dangling w
  · refine startup_modifyQuiet w ?_ rfl
    have hnone : functors.countP LoopFunctor.listens = 0 := by
      rw [List.countP_eq_zero]
      intro functor hfunctor
      simp [hquiet functor hfunctor]
    rw [BatchQueue.waiting_push, List.countP_append, hnone, Nat.add_zero]

variable [DecidableEq θ]

theorem startup_pushFrames (w : ThreadedServer θ) (frames : List ThreadFrame) :
    (w.pushFrames thread frames).startup =
      w.startup.setFrames thread (frames.filter ThreadFrame.starts ++ w.startup.frames thread) := by
  ext : 1
  case frames =>
    funext other
    simp only [startup, pushFrames, Startup.setFrames]
    by_cases heq : other = thread
    · rw [heq, Function.update_self, Function.update_self, List.filter_append]
    · rw [Function.update_of_ne heq, Function.update_of_ne heq]
  all_goals rfl

theorem startup_pushQuiet (w : ThreadedServer θ) {frames : List ThreadFrame}
    (hquiet : ∀ frame ∈ frames, frame.starts = false) :
    (w.pushFrames thread frames).startup = w.startup := by
  have hnone : frames.filter ThreadFrame.starts = [] := by
    rw [List.filter_eq_nil_iff]
    intro frame hframe
    simp [hquiet frame hframe]
  rw [startup_pushFrames, hnone, List.nil_append, Startup.setFrames_self]

theorem startup_popFrame {frame : ThreadFrame} {rest : List ThreadFrame}
    (hstack : w.stack thread = frame :: rest) :
    (w.popFrame thread).startup =
      w.startup.setFrames thread (rest.filter ThreadFrame.starts) := by
  ext : 1
  case frames =>
    funext other
    simp only [startup, popFrame, Startup.setFrames]
    by_cases heq : other = thread
    · rw [heq, Function.update_self, Function.update_self, hstack, List.tail_cons]
    · rw [Function.update_of_ne heq, Function.update_of_ne heq]
  all_goals rfl

theorem startup_popQuiet {frame : ThreadFrame} {rest : List ThreadFrame}
    (hstack : w.stack thread = frame :: rest) (hquiet : frame.starts = false) :
    (w.popFrame thread).startup = w.startup := by
  have hframes : w.startup.frames thread = rest.filter ThreadFrame.starts := by
    simp only [startup]
    rw [hstack, List.filter_cons_of_neg (by rw [hquiet]; decide)]
  rw [startup_popFrame hstack, ← hframes, Startup.setFrames_self]

variable {file : Nat → List Byte} {config : ServerConfig} {write : Except Errno Nat} {conn : Nat}

theorem startup_after (w : ThreadedServer θ) (thread : ServerThread θ) (s : Session Nat) :
    (w.after thread conn s).startup = w.startup := by
  unfold after
  rw [startup_pushQuiet, startup_queueInLoop, startup_modifyQuiet]
  · rfl
  · rfl
  · rfl
  · intro functor hfunctor
    obtain ⟨task, -, rfl⟩ := List.mem_map.mp hfunctor
    rfl
  · intro frame hframe
    obtain ⟨callback, -, rfl⟩ := List.mem_map.mp hframe
    rfl

theorem startup_callMember (w : ThreadedServer θ) (thread : ServerThread θ) (member : Member) :
    (w.callMember file thread conn member).startup = w.startup := by
  unfold callMember
  split
  · rw [startup_after, startup_record]
    intro e he
    obtain ⟨function, -, rfl⟩ := List.mem_map.mp he
    rfl
  · exact startup_dangling w

omit [DecidableEq θ] in
theorem startup_removeConnectionInLoop (w : ThreadedServer θ) (thread : ServerThread θ) :
    (w.removeConnectionInLoop thread conn).startup = w.startup := by
  have hrecord : ∀ (v : ThreadedServer θ) {e : Execution}, e.listens = false →
      (v.record thread [e]).startup = v.startup := by
    intro v e hquiet
    refine startup_record v ?_
    intro other hother
    rw [List.mem_singleton.mp hother]
    exact hquiet
  unfold removeConnectionInLoop
  dsimp only
  split
  · exact (startup_dangling _).trans (hrecord w rfl)
  · rw [startup_queueInLoop]
    · exact (hrecord (w.record thread [.removeConnectionInLoop conn]) rfl).trans (hrecord w rfl)
    · intro functor hfunctor
      rw [List.mem_singleton.mp hfunctor]
      rfl

theorem startup_callFunctor (w : ThreadedServer θ) (thread : ServerThread θ)
    {functor : LoopFunctor} (hquiet : functor.listens = false) :
    (w.callFunctor file thread write functor).startup = w.startup := by
  have huser : (w.pushFrames thread [.frame .userCode]).startup = w.startup := by
    refine startup_pushQuiet w ?_
    intro frame hframe
    rw [List.mem_singleton.mp hframe]
    rfl
  cases functor with
  | server functor =>
      cases functor with
      | connectEstablished conn => exact startup_callMember w thread _
      | connectDestroyed conn => exact startup_callMember w thread _
      | removeConnectionInLoop conn => exact startup_removeConnectionInLoop w thread
      | task conn task =>
          cases task with
          | sendFileInLoop fileDescriptor offset count => exact startup_callMember w thread _
          | writeCompleteCallback => exact huser
          | highWaterMarkCallback length => exact huser
      | user => exact huser
  | sendInLoop conn data => exact startup_callMember w thread _
  | shutdownInLoop conn => exact startup_callMember w thread _
  | listen => cases hquiet

theorem startup_runInLoop (w : ThreadedServer θ) (thread : ServerThread θ) (loop : Nat)
    {functor : LoopFunctor} (hquiet : functor.listens = false) :
    (w.runInLoop file thread loop write functor).startup = w.startup := by
  unfold runInLoop
  split
  · exact startup_callFunctor w thread hquiet
  · refine startup_queueInLoop w ?_
    intro other hother
    rw [List.mem_singleton.mp hother]
    exact hquiet

theorem startup_removeConnection (w : ThreadedServer θ) (thread : ServerThread θ) :
    (w.removeConnection file thread conn).startup = w.startup := by
  have hrecord : (w.record thread [.removeConnection conn]).startup = w.startup := by
    refine startup_record w ?_
    intro e he
    rw [List.mem_singleton.mp he]
    rfl
  unfold removeConnection
  dsimp only
  split
  · exact (startup_dangling _).trans hrecord
  · rw [startup_runInLoop _ _ _ rfl, hrecord]

/-- A call on a connection that a thread makes through its `TcpConnectionPtr`. -/
theorem startup_call (w : ThreadedServer θ) (thread : ServerThread θ) {functor : LoopFunctor}
    (hquiet : functor.listens = false) :
    (if w.alive conn then w.runInLoop file thread (w.loopOf conn) write functor
      else w.dangling).startup = w.startup := by
  split
  · exact startup_runInLoop w thread _ hquiet
  · exact startup_dangling w

theorem startup_newConnection (w : ThreadedServer θ) (thread : ServerThread θ) (sockfd : Nat) :
    (w.newConnection file config thread sockfd).startup = w.startup.accept := by
  have hrecord : (w.record thread [.getNextLoop, .insert w.accepted]).startup = w.startup := by
    refine startup_record w ?_
    intro e he
    rcases List.mem_pair.mp he with rfl | rfl
    · rfl
    · rfl
  have hlog := congrArg Startup.listens hrecord
  unfold newConnection
  rw [startup_runInLoop _ _ _ rfl]
  ext : 1
  case listens => exact hlog
  all_goals rfl

omit [DecidableEq θ] in
theorem startup_listen (w : ThreadedServer θ) (thread : ServerThread θ) :
    ({ w.record thread [.listen] with listening := true } : ThreadedServer θ).startup =
      w.startup.listen := by
  ext : 1
  case listens =>
    simp only [startup, record, Startup.listen]
    rw [List.countP_append]
    rfl
  all_goals rfl

omit [DecidableEq θ] in
theorem startup_queueListen (hrunning : (w.loops 0).exited = false) :
    (w.queueInLoop 0 [.listen]).startup = w.startup.setQueued 0 (w.startup.queued 0 + 1) := by
  unfold queueInLoop
  rw [if_neg (by rw [hrunning]; decide), startup_modifyQueue w rfl, BatchQueue.waiting_push,
    List.countP_append]
  rfl

end Quiet

/-! ### Every step is a step of the protocol -/

/-- No call of `start` makes `started_` wrap around to 0. -/
def FewStarts (w : ThreadedServer θ) : ThreadedAction θ → Prop
  | .start _ => w.started + 1 ≠ 0
  | _ => True

instance (w : ThreadedServer θ) : (action : ThreadedAction θ) → Decidable (w.FewStarts action)
  | .start _ => inferInstanceAs (Decidable (_ ≠ _))
  | .send .. | .sendFile .. | .shutdown .. | .queueInLoop .. | .destroyServer | .destroyItem _
  | .frame .. | .poll .. | .dispatch .. | .doPendingFunctors _ | .runFunctor .. | .endBatch _
  | .exit _ | .destroy _ => inferInstanceAs (Decidable True)

section Follows

variable [DecidableEq θ] {file : Nat → List Byte} {config : ServerConfig} {numThreads : Nat}
  {w w' : ThreadedServer θ} {thread : ServerThread θ} {loop : Nat}

/-- The protocol comes from the one state to the other. -/
def Follows (numThreads : Nat) (s s' : Startup θ) : Prop :=
  ∃ actions, (Startup.system numThreads).RunUnder Startup.Few s actions s'

theorem follows_of_eq {s s' : Startup θ} (heq : s' = s) : Follows numThreads s s' :=
  ⟨[], by rw [heq]; exact .nil s⟩

theorem follows_step {s s' : Startup θ} {a : StartupAction θ} (hfew : s.Few a)
    (hstep : s.step numThreads a = some s') : Follows numThreads s s' :=
  ⟨[a], .single hfew hstep⟩

/-- The topmost frame of a thread that has come to `start`. -/
theorem follows_startFrame {frame : ThreadFrame} {rest : List ThreadFrame}
    {read : Except Errno (List Byte)} {write : Except Errno Nat}
    (hstack : w.stack thread = frame :: rest) (hstarts : frame.starts = true)
    (hrun : (w.popFrame thread).runFrame file thread read write frame = some w') :
    Follows numThreads w.startup w'.startup := by
  have hframes : w.startup.frames thread = frame :: rest.filter ThreadFrame.starts := by
    simp only [startup]
    rw [hstack, List.filter_cons_of_pos hstarts]
  have hpop : (w.popFrame thread).startup =
      w.startup.setFrames thread (rest.filter ThreadFrame.starts) := startup_popFrame hstack
  have habandon : Follows numThreads w.startup (w.popFrame thread).startup := by
    refine follows_step (a := .abandon thread) trivial ?_
    rw [hpop, Startup.step, hframes, List.tail_cons]
  have hadvance : ∀ {s' : Startup θ},
      w.startup.advance thread (rest.filter ThreadFrame.starts) frame = some s' →
      Follows numThreads w.startup s' := by
    intro s' hstep
    refine follows_step (a := .advance thread) trivial ?_
    simp only [Startup.step, hframes]
    exact hstep
  cases frame with
  | startPool left =>
      obtain rfl := Option.some.inj hrun
      split
      · exact habandon
      · cases left with
        | zero =>
            refine hadvance ?_
            dsimp only
            rw [startup_pushFrames, hpop, Startup.setFrames_frames_self,
              Startup.setFrames_setFrames]
            rfl
        | succ left =>
            refine hadvance ?_
            have hgrown : ({ w.popFrame thread with loopsStarted := w.loopsStarted + 1 } :
                ThreadedServer θ).startup =
                { w.startup with loopsStarted := w.loopsStarted + 1 }.setFrames thread
                  (rest.filter ThreadFrame.starts) := by
              ext : 1
              case frames =>
                have hframes := congrArg Startup.frames hpop
                exact hframes
              all_goals rfl
            dsimp only
            rw [startup_pushFrames]
            refine congrArg some (Eq.symm ?_)
            refine (congrArg (fun s : Startup θ => s.setFrames thread
              ([ThreadFrame.startPool left].filter ThreadFrame.starts ++ s.frames thread))
                hgrown).trans ?_
            rw [Startup.setFrames_frames_self, Startup.setFrames_setFrames]
            rfl
  | listen =>
      obtain rfl := Option.some.inj hrun
      split
      · exact habandon
      · rename_i hdestroyed
        unfold runInLoop
        split
        · rename_i hmain
          refine hadvance ?_
          simp only [callFunctor]
          rw [if_neg hdestroyed, startup_listen, hpop, Startup.advance, if_pos hmain]
        · rename_i hother
          by_cases hexited : ((w.popFrame thread).loops 0).exited = true
          · rw [queueInLoop, if_pos hexited]
            exact habandon
          · refine hadvance ?_
            rw [startup_queueListen (Bool.eq_false_iff.mpr hexited), hpop, Startup.advance,
              if_neg hother]
            rfl
  | _ => cases hstarts

theorem follows_frame {read : Except Errno (List Byte)} {write : Except Errno Nat}
    (hstep : w.move file config numThreads (.frame thread read write) = some w') :
    Follows numThreads w.startup w'.startup := by
  obtain ⟨frame, rest, hstack, hrun⟩ := move_frame hstep
  by_cases hstarts : frame.starts = true
  · exact follows_startFrame hstack hstarts hrun
  -- every other frame leaves the start of the server alone
  have hpop : (w.popFrame thread).startup = w.startup :=
    startup_popQuiet hstack (Bool.eq_false_iff.mpr hstarts)
  have hpush : ∀ (v : ThreadedServer θ) {frame : ThreadFrame}, frame.starts = false →
      (v.pushFrames thread [frame]).startup = v.startup := by
    intro v frame hquiet
    refine startup_pushQuiet v ?_
    intro other hother
    rw [List.mem_singleton.mp hother]
    exact hquiet
  refine follows_of_eq (Eq.trans ?_ hpop)
  cases frame with
  | frame frame =>
      cases frame with
      | removeConnection conn =>
          obtain rfl := Option.some.inj hrun
          exact startup_removeConnection _ thread
      | userCode =>
          obtain rfl := Option.some.inj hrun
          rfl
      | _ =>
          obtain rfl := Option.some.inj hrun
          exact startup_callMember _ thread _
  | send conn data =>
      obtain rfl := Option.some.inj hrun
      exact startup_call _ thread rfl
  | sendFile conn fileDescriptor offset count =>
      obtain rfl := Option.some.inj hrun
      exact startup_call _ thread rfl
  | shutdown conn =>
      obtain rfl := Option.some.inj hrun
      split
      · rw [hpush _ rfl]
        rfl
      · exact startup_dangling _
  | setState conn =>
      obtain rfl := Option.some.inj hrun
      exact startup_call _ thread rfl
  | startPool left => exact absurd rfl hstarts
  | listen => exact absurd rfl hstarts
  | destructor =>
      obtain ⟨-, rfl⟩ := guarded_eq_some.mp hrun
      exact hpush _ rfl
  | joinPool loop =>
      simp only [runFrame] at hrun
      split at hrun
      · obtain rfl := Option.some.inj hrun
        rfl
      · split at hrun
        · obtain rfl := Option.some.inj hrun
          exact hpush _ rfl
        · obtain rfl := Option.some.inj hrun
          exact (hpush _ rfl).trans (startup_modifyQuiet _ rfl rfl)

theorem follows_dispatch {accepted : Option Nat}
    (hstep : w.move file config numThreads (.dispatch loop accepted) = some w') :
    Follows numThreads w.startup w'.startup := by
  obtain ⟨a, rest, hactive, -, rfl⟩ := move_dispatch hstep
  have htaken : (w.modifyLoop loop fun l => { l with activeChannels := rest }).startup =
      w.startup.setActive loop (rest.countP ActiveChannel.accepts) :=
    startup_modifyActive w rfl
  have hcount : w.startup.active loop = (a :: rest).countP ActiveChannel.accepts := by
    simp only [startup, hactive]
  have hless : rest.countP ActiveChannel.accepts ≤ w.startup.active loop := by
    rw [hcount, List.countP_cons]
    exact Nat.le_add_right _ _
  have htake : Follows numThreads w.startup
      (w.modifyLoop loop fun l => { l with activeChannels := rest }).startup := by
    rw [htaken]
    exact follows_step (a := .report loop (rest.countP ActiveChannel.accepts)) trivial
      (guarded_eq_some.mpr ⟨.inl hless, rfl⟩)
  cases a with
  | connection conn revents =>
      simp only [handleEvent]
      split
      · rw [startup_pushQuiet]
        · exact htake
        · intro frame hframe
          obtain ⟨handler, -, rfl⟩ := List.mem_map.mp hframe
          rfl
      · exact htake
  | acceptor =>
      simp only [handleEvent]
      split
      · exact htake
      · cases accepted with
        | none => exact htake
        | some sockfd =>
            rw [startup_newConnection, htaken]
            have hone : w.startup.active loop = rest.countP ActiveChannel.accepts + 1 := by
              rw [hcount, List.countP_cons_of_pos rfl]
            refine follows_step (a := .accept loop) trivial (guarded_eq_some.mpr ⟨?_, ?_⟩)
            · rw [hone]
              exact Nat.succ_pos _
            · rw [hone]
              rfl
  | wakeup => exact htake

/-- The batch of a loop gives up what it has left, if there is anything left. -/
theorem follows_loop {f : IoLoop → IoLoop}
    (hqueue : (f (w.loops loop)).queue.waiting.countP LoopFunctor.listens ≤
      (w.loops loop).queue.waiting.countP LoopFunctor.listens)
    (hactive : (f (w.loops loop)).activeChannels = (w.loops loop).activeChannels) :
    Follows numThreads w.startup (w.modifyLoop loop f).startup := by
  rw [startup_modifyQueue w hactive]
  exact follows_step (a := .discard loop _) trivial (guarded_eq_some.mpr ⟨hqueue, rfl⟩)

theorem follows_runFunctor {write : Except Errno Nat}
    (hstep : w.move file config numThreads (.runFunctor loop write) = some w') :
    Follows numThreads w.startup w'.startup := by
  obtain ⟨functor, rest, htodo, -, rfl⟩ := move_runFunctor hstep
  have hwaiting := BatchQueue.waiting_next htodo
  have htaken : Follows numThreads w.startup
      (w.modifyLoop loop fun l => { l with queue := l.queue.next }).startup := by
    apply follows_loop
    · rw [hwaiting, List.countP_cons]
      exact Nat.le_add_right _ _
    · rfl
  by_cases hlistens : functor.listens = true
  · cases functor with
    | listen =>
        have hone : w.startup.queued loop =
            (w.loops loop).queue.next.waiting.countP LoopFunctor.listens + 1 := by
          rw [← List.countP_cons_of_pos (a := LoopFunctor.listen) (p := LoopFunctor.listens) rfl,
            ← hwaiting]
          rfl
        have hnext : (w.modifyLoop loop fun l => { l with queue := l.queue.next }).startup =
            w.startup.setQueued loop (w.startup.queued loop - 1) := by
          rw [startup_modifyQueue w rfl, hone]
          rfl
        simp only [callFunctor]
        split
        · exact htaken
        · rw [startup_listen, hnext]
          refine follows_step (a := .run loop) trivial (guarded_eq_some.mpr ⟨?_, rfl⟩)
          rw [hone]
          exact Nat.succ_pos _
    | _ => cases hlistens
  · rw [startup_callFunctor _ _ (Bool.eq_false_iff.mpr hlistens)]
    exact htaken

theorem follows_start
    (hfew : w.started + 1 ≠ 0) (hstep : w.move file config numThreads (.start thread) = some w') :
    Follows numThreads w.startup w'.startup := by
  obtain ⟨-, rfl⟩ := guarded_eq_some.mp hstep
  refine follows_step (a := .start thread) hfew (congrArg some ?_)
  have hframes : (startFrames numThreads).filter ThreadFrame.starts = [.startPool numThreads] := by
    unfold startFrames
    split
    · rename_i hnone
      rw [hnone]
      rfl
    · rfl
  by_cases hzero : w.started = 0
  · rw [if_pos hzero, startup_pushFrames, hframes]
    exact if_pos hzero
  · rw [if_neg hzero]
    exact if_neg hzero

theorem follows_poll {active : List ActiveChannel}
    (hstep : w.move file config numThreads (.poll loop active) = some w') :
    Follows numThreads w.startup w'.startup := by
  obtain ⟨⟨-, -, -, hreports⟩, rfl⟩ := guarded_eq_some.mp hstep
  rw [startup_modifyActive w rfl]
  refine follows_step (a := .report loop _) trivial (guarded_eq_some.mpr ⟨?_, rfl⟩)
  by_cases hmem : .acceptor ∈ active
  · exact .inr (hreports .acceptor hmem).2.1
  · left
    have hnone : active.countP ActiveChannel.accepts = 0 := by
      rw [List.countP_eq_zero]
      intro a ha haccepts
      cases a with
      | acceptor => exact hmem ha
      | _ => cases haccepts
    exact hnone.trans_le (Nat.zero_le _)

theorem follows_move {action : ThreadedAction θ} (hfew : w.FewStarts action)
    (hstep : w.move file config numThreads action = some w') :
    Follows numThreads w.startup w'.startup := by
  have hpush : ∀ (thread : ServerThread θ) {frame : ThreadFrame}, frame.starts = false →
      (w.pushFrames thread [frame]).startup = w.startup := by
    intro thread frame hquiet
    refine startup_pushQuiet w ?_
    intro other hother
    rw [List.mem_singleton.mp hother]
    exact hquiet
  cases action with
  | start thread => exact follows_start hfew hstep
  | send thread conn data =>
      obtain ⟨-, rfl⟩ := guarded_eq_some.mp hstep
      split
      · exact follows_of_eq (hpush thread rfl)
      · exact follows_of_eq rfl
  | sendFile thread conn fileDescriptor offset count =>
      obtain ⟨-, rfl⟩ := guarded_eq_some.mp hstep
      split
      · exact follows_of_eq (hpush thread rfl)
      · exact follows_of_eq rfl
  | shutdown thread conn =>
      obtain ⟨-, rfl⟩ := guarded_eq_some.mp hstep
      split
      · exact follows_of_eq (hpush thread rfl)
      · exact follows_of_eq rfl
  | queueInLoop thread loop =>
      obtain ⟨-, rfl⟩ := guarded_eq_some.mp hstep
      refine follows_of_eq (startup_queueInLoop w ?_)
      intro functor hfunctor
      rw [List.mem_singleton.mp hfunctor]
      rfl
  | destroyServer =>
      obtain ⟨-, rfl⟩ := guarded_eq_some.mp hstep
      exact follows_of_eq (hpush (.loop 0) rfl)
  | destroyItem conn =>
      obtain ⟨-, rfl⟩ := guarded_eq_some.mp hstep
      exact follows_of_eq (startup_runInLoop _ (.loop 0) _ rfl)
  | frame thread read write => exact follows_frame hstep
  | poll loop active => exact follows_poll hstep
  | dispatch loop accepted => exact follows_dispatch hstep
  | doPendingFunctors loop =>
      obtain ⟨-, rfl⟩ := guarded_eq_some.mp hstep
      apply follows_loop
      · have hsublist : (w.loops loop).queue.start.waiting.Sublist
            (w.loops loop).queue.waiting := by
          rw [BatchQueue.waiting, BatchQueue.start, List.append_nil]
          exact List.sublist_append_right ..
        exact hsublist.countP_le
      · rfl
  | runFunctor loop write => exact follows_runFunctor hstep
  | endBatch loop =>
      obtain ⟨⟨-, -, htodo⟩, rfl⟩ := guarded_eq_some.mp hstep
      refine follows_loop ?_ rfl
      dsimp only
      rw [BatchQueue.waiting_finish htodo]
  | exit loop =>
      obtain ⟨-, rfl⟩ := guarded_eq_some.mp hstep
      exact follows_of_eq (startup_modifyQuiet w rfl rfl)
  | destroy conn =>
      obtain rfl := Option.some.inj hstep
      exact follows_of_eq (startup_modifyQuiet _ rfl rfl)

end Follows

/-! ### What follows for the server -/

section Runs

variable [DecidableEq θ] {file : Nat → List Byte} {config : ServerConfig} {numThreads : Nat}

theorem simulates_startup :
    Simulates (system file config numThreads) (FewStarts (θ := θ)) (Startup.system numThreads)
      Startup.Few fun w s => s = w.startup := by
  refine ⟨?_, ?_⟩
  · rintro w rfl
    exact ⟨Startup.new, rfl, rfl⟩
  · rintro w s action w' rfl hfew hstep
    have hmove : w.move file config numThreads action = some w' := by
      simp only [system, step] at hstep
      split at hstep
      · cases hstep
      · exact hstep
    obtain ⟨actions, hrun⟩ := follows_move hfew hmove
    exact ⟨actions, w'.startup, hrun, rfl⟩

theorem startup_inv {w : ThreadedServer θ}
    (hreach : (system file config numThreads).ReachableUnder FewStarts w) :
    w.startup.Inv numThreads := by
  obtain ⟨s, hs, rfl⟩ := simulates_startup.reachable hreach
  exact Startup.reachable_inv hs

/-- **The server starts once.** However many threads call `start`, as long as `started_` does not wrap
around: `listen` is executed at most once, the acceptor listens only when the pool is complete, and
the pool grows only as long as no connection is accepted and none can be. -/
theorem starts_once {w : ThreadedServer θ}
    (hreach : (system file config numThreads).ReachableUnder FewStarts w) :
    w.log.countP (fun entry => entry.execution = .listen) ≤ 1 ∧
      (w.listening = true → w.loopsStarted = numThreads) ∧
      (0 < w.accepted → w.listening = true) ∧
      ∀ action w', w.FewStarts action → (system file config numThreads).step w action = some w' →
        w'.loopsStarted ≠ w.loopsStarted → w.accepted = 0 ∧ w.listening = false := by
  have hinv := startup_inv hreach
  refine ⟨?_, hinv.complete, hinv.accepted, ?_⟩
  · obtain ⟨stage, hat⟩ := hinv.stage
    have hlistens : (fun entry : LogEntry θ => decide (entry.execution = .listen)) =
        fun entry => entry.execution.listens := by
      funext entry
      cases entry.execution <;> rfl
    have hcount := hat.listens_eq
    simp only [startup] at hcount
    rw [hlistens, hcount]
    split
    · exact Nat.le_refl 1
    · exact Nat.zero_le 1
  · intro action w' hfew hstep hgrows
    have hquiet : w.listening = false := by
      by_contra hlistening
      rw [Bool.not_eq_false] at hlistening
      obtain ⟨actions, s', hrun, rfl⟩ := simulates_startup.step w _ action w' rfl hfew hstep
      have hstill : w'.startup.listening = true := hrun.invariant
        (I := fun s : Startup θ => s.listening = true) hlistening
        fun _ _ _ hs _ hstep => Startup.step_listening hstep hs
      have hinv' := startup_inv (hreach.step hfew hstep)
      exact hgrows ((hinv'.complete hstill).trans (hinv.complete hlistening).symm)
    refine ⟨?_, hquiet⟩
    by_contra haccepted
    have hlistening := hinv.accepted (Nat.pos_of_ne_zero haccepted)
    rw [startup, hquiet] at hlistening
    cases hlistening

/-- Another thread starts the server, and so does the main loop while that goes on. -/
theorem starts_once_twice :
    ∃ w : ThreadedServer Unit,
      (system (fun _ => []) Server.echoServer 1).exec new
        [.start (.user ()), .frame (.user ()) (.ok []) (.ok 0), .start (.loop 0),
          .frame (.user ()) (.ok []) (.ok 0), .frame (.user ()) (.ok []) (.ok 0),
          .frame (.loop 0) (.ok []) (.ok 0), .poll 0 [.wakeup], .dispatch 0 none,
          .doPendingFunctors 0, .runFunctor 0 (.ok 0)] = some w ∧
      (w.started = 2 ∧ w.listening = true) ∧
      (w.log.countP (fun entry => entry.execution = .listen) ≤ 1 ∧ w.loopsStarted = 1) := by
  apply System.exists_execUnder fun w action => w.FewStarts action
  · exact ⟨_, rfl, rfl, rfl⟩
  · intro w hw ⟨_, hlistening⟩
    have honce := starts_once (System.reachableUnder_of_execUnder rfl hw)
    exact ⟨honce.1, honce.2.1 hlistening⟩

/-- **Connections take the sub loops in turn.** The loop of a connection depends only on its number and
on that of the threads, `next_` stays an index of `loops_`, and no sub loop is ever given two
connections more than another. -/
theorem loops_in_turn {w : ThreadedServer θ}
    (hreach : (system file config numThreads).ReachableUnder FewStarts w) :
    (∀ conn < w.accepted, w.loopOf conn = Startup.turn numThreads conn) ∧
      w.next < max 1 numThreads ∧
      ∀ i j, 0 < i → i ≤ numThreads → 0 < j → j ≤ numThreads →
        Nat.count (fun conn => w.loopOf conn = i) w.accepted ≤
          Nat.count (fun conn => w.loopOf conn = j) w.accepted + 1 := by
  have hinv := startup_inv hreach
  have hloopOf : ∀ conn < w.accepted, w.loopOf conn = Startup.turn numThreads conn := hinv.loopOf_eq
  refine ⟨hloopOf, ?_, ?_⟩
  · have hnext : w.next = if numThreads = 0 then 0 else w.accepted % numThreads := hinv.next_eq
    rw [hnext]
    split
    · omega
    · rename_i hsome
      have hlt := Nat.mod_lt w.accepted (Nat.pos_of_ne_zero hsome)
      omega
  · have hshare : ∀ i, 0 < i → i ≤ numThreads →
        Nat.count (fun conn => w.loopOf conn = i) w.accepted =
          Nat.count (fun conn => conn % numThreads = i - 1) w.accepted := by
      intro i hpos hle
      have hturn : ∀ conn < w.accepted, w.loopOf conn = i ↔ conn % numThreads = i - 1 := by
        intro conn hconn
        rw [hloopOf conn hconn, Startup.turn, if_neg (by omega)]
        omega
      exact le_antisymm (Nat.count_mono_left fun conn hconn => (hturn conn hconn).mp)
        (Nat.count_mono_left fun conn hconn => (hturn conn hconn).mpr)
    intro i j hi hilast hj hjlast
    rw [hshare i hi hilast, hshare j hj hjlast]
    exact RoundRobin.count_mod_le (by omega) (by omega) w.accepted

/-- Three connections for two sub loops. -/
theorem loops_in_turn_three :
    ∃ w : ThreadedServer Unit,
      (system (fun _ => []) Server.echoServer 2).exec new
        [.start (.loop 0), .frame (.loop 0) (.ok []) (.ok 0), .frame (.loop 0) (.ok []) (.ok 0),
          .frame (.loop 0) (.ok []) (.ok 0), .frame (.loop 0) (.ok []) (.ok 0),
          .frame (.loop 0) (.ok []) (.ok 0), .poll 0 [.acceptor, .acceptor, .acceptor],
          .dispatch 0 (some 7), .dispatch 0 (some 8), .dispatch 0 (some 9)] = some w ∧
      (w.accepted = 3 ∧ w.loopOf 2 = 1) ∧
      Nat.count (fun conn => w.loopOf conn = 1) w.accepted ≤
        Nat.count (fun conn => w.loopOf conn = 2) w.accepted + 1 := by
  apply System.exists_execUnder fun w action => w.FewStarts action
  · exact ⟨_, rfl, rfl, rfl⟩
  · intro w hw _
    have hturn := loops_in_turn (System.reachableUnder_of_execUnder rfl hw)
    exact hturn.2.2 1 2 (by decide) (by decide) (by decide) (by decide)

end Runs

end ThreadedServer

end MuduoCore
