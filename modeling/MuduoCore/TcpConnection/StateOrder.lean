import MuduoCore.TcpConnection.Close
import MuduoCore.TcpConnection.Registration
import Mathlib.Data.Fintype.Option

/-!
# The order of the states

`state_` is atomic, but `shutdown` and `connectDestroyed` test it and set it in two accesses. Here each
access is a step of its own: `shutdown` may be called by any thread, the other functions run on the
thread of the loop.
-/

namespace MuduoCore

namespace StateE

/-- The place of a state in the life of a connection. -/
def rank : StateE → Nat
  | kConnecting => 0
  | kConnected => 1
  | kDisconnecting => 2
  | kDisconnected => 3

theorem rank_le (state : StateE) : state.rank ≤ kDisconnected.rank := by
  cases state <;> decide

theorem rank_le_kDisconnecting {state : StateE} (h : state ≠ .kDisconnected) :
    state.rank ≤ kDisconnecting.rank := by
  cases state <;> simp_all [rank]

theorem eq_kDisconnected_of_rank {state : StateE} (h : 3 ≤ state.rank) :
    state = .kDisconnected := by
  cases state <;> simp_all [rank]

end StateE

/-- What a step of the loop makes of `state_`. -/
def Step.nextState (state : StateE) : Step → StateE
  | .shutdown => if state = .kConnected then .kDisconnecting else state
  | .connectDestroyed => if state = .kConnected then .kDisconnected else state
  | .handleRead (.ok []) | .handleClose => .kDisconnected
  | _ => state

theorem Step.nextState_handleRead {answer : Except Errno (List Byte)} (hdata : answer ≠ .ok [])
    (state : StateE) : nextState state (.handleRead answer) = state := by
  unfold nextState
  split
  · rename_i heq
    cases heq
  · rename_i heq
    cases heq
  · rename_i heq
    cases heq
    exact absurd rfl hdata
  · rename_i heq
    cases heq
  · rfl

namespace Session

variable {κ : Type*} (s : Session κ)

theorem sendInLoop_state (data : List Byte) (answer : Except Errno Nat) :
    (s.sendInLoop data answer).conn.state = s.conn.state := by
  obtain ⟨wrote, hattempt⟩ := s.attemptWrite_spec data answer
  unfold sendInLoop
  split
  · rfl
  · dsimp only
    split
    · rw [(bufferRest_spec _ _).1, hattempt.conn_eq]
    · rw [hattempt.conn_eq]

theorem handleWrite_state (answer : Except Errno Nat) :
    (s.handleWrite answer).conn.state = s.conn.state := by
  rcases s.handleWrite_cases answer with ⟨-, heq⟩ | ⟨-, ⟨errno, heq⟩ | heq | ⟨n, ⟨-, heq⟩ | ⟨-, heq⟩⟩⟩
  · rw [heq]
  · rw [heq, emit_conn]
  · rw [heq, emit_conn]
  · rw [heq, (finishWrite_spec _).1]
    rfl
  · rw [heq]
    rfl

end Session

theorem Running.step_state {κ : Type*} (file : Nat → List Byte) {r r' : Running κ} {step : Step}
    (hstep : Running.step file r step = some r') :
    r'.session.conn.state = step.nextState r.session.conn.state := by
  cases step with
  | send data answer =>
      obtain rfl := Option.some.inj hstep
      simp only [Session.send, Step.nextState]
      split
      · exact (r.session.emit _).sendInLoop_state data answer
      · rfl
  | sendFile fileDescriptor offset count answer =>
      obtain rfl := Option.some.inj hstep
      simp only [Session.sendFile, Step.nextState]
      split
      · rw [Session.sendFileInLoop_conn, Session.emit_conn]
      · rfl
  | shutdown =>
      obtain rfl := Option.some.inj hstep
      simp only [Session.shutdown, Step.nextState]
      split
      · rw [Session.shutdownInLoop_conn, Session.setState_conn]
      · rfl
  | handleRead answer =>
      obtain rfl := Option.some.inj hstep
      by_cases heof : answer = .ok []
      · subst heof
        exact r.session.handleRead_eof_closed.state_eq
      · obtain ⟨events, -, -, -, hconn⟩ := r.session.handleRead_of_data heof
        rw [Step.nextState_handleRead heof]
        change (r.session.handleRead answer).conn.state = _
        rw [hconn]
  | handleWrite answer =>
      obtain rfl := Option.some.inj hstep
      exact r.session.handleWrite_state answer
  | handleClose =>
      obtain rfl := Option.some.inj hstep
      exact r.session.handleClose_closed.state_eq
  | handleError =>
      obtain rfl := Option.some.inj hstep
      rfl
  | connectDestroyed =>
      obtain rfl := Option.some.inj hstep
      exact connectDestroyed_state r.session
  | doPendingFunctors =>
      obtain ⟨-, rfl⟩ := Running.step_doPendingFunctors hstep
      rfl
  | runFunctor answer =>
      obtain ⟨task, rest, htasks, rfl⟩ := Running.step_runFunctor hstep
      cases task with
      | sendFileInLoop fileDescriptor offset count =>
          exact congrArg TcpConnection.state (Session.sendFileInLoop_conn ..)
      | writeCompleteCallback => rfl
      | highWaterMarkCallback _ => rfl

/-- `state_` between the threads; `none` is the thread of the loop. `setting` is what a thread stores
next, having passed its test, and `values` are the values of `state_` so far. -/
structure SharedState (θ : Type*) where
  state : StateE
  setting : Option θ → Option StateE
  established : Bool
  values : List StateE

inductive StateAccess (θ : Type*) where
  | connectEstablished
  | shutdown (thread : Option θ)
  | handleClose
  | connectDestroyed
  | setState (thread : Option θ)

namespace SharedState

variable {θ : Type*}

def new : SharedState θ where
  state := .kConnecting
  setting _ := none
  established := false
  values := [.kConnecting]

def store (w : SharedState θ) (state : StateE) : SharedState θ :=
  { w with state := state, values := w.values ++ [state] }

section

variable [DecidableEq θ]

/-- `if (state_ == kConnected)`, with a store of `state` to follow. -/
def test (w : SharedState θ) (thread : Option θ) (state : StateE) : SharedState θ :=
  if w.state = .kConnected then
    { w with setting := Function.update w.setting thread (some state) }
  else w

def step (w : SharedState θ) : StateAccess θ → Option (SharedState θ)
  | .connectEstablished =>
      guarded (w.established = false ∧ w.setting none = none)
        { w.store .kConnected with established := true }
  | .shutdown thread => guarded (w.setting thread = none) (w.test thread .kDisconnecting)
  | .handleClose =>
      guarded (w.established = true ∧ w.setting none = none) (w.store .kDisconnected)
  | .connectDestroyed =>
      guarded (w.established = true ∧ w.setting none = none) (w.test none .kDisconnected)
  | .setState thread =>
      (w.setting thread).map fun state =>
        { w.store state with setting := Function.update w.setting thread none }

def system : System (SharedState θ) (StateAccess θ) where
  init w := w = new
  step := step

end

/-- The values follow one another in the order of `StateE.rank`. -/
def Forward (values : List StateE) : Prop := values.Pairwise fun u v => u.rank ≤ v.rank

instance (values : List StateE) : Decidable (Forward values) :=
  inferInstanceAs (Decidable (values.Pairwise _))

/-- No thread stands between the test and the store of its `shutdown`. -/
def NoShutdown (w : SharedState θ) : Prop := ∀ thread, w.setting thread ≠ some .kDisconnecting

/-- `state_` becomes `kDisconnected` only where no `shutdown` has passed its test. -/
def Undisturbed (w : SharedState θ) : StateAccess θ → Prop
  | .handleClose => w.NoShutdown
  | .setState thread => w.setting thread = some .kDisconnected → w.NoShutdown
  | .connectEstablished | .shutdown _ | .connectDestroyed => True

instance [Fintype θ] (w : SharedState θ) : Decidable w.NoShutdown :=
  inferInstanceAs (Decidable (∀ thread, w.setting thread ≠ some .kDisconnecting))

instance [Fintype θ] (w : SharedState θ) : (access : StateAccess θ) → Decidable (w.Undisturbed access)
  | .handleClose => inferInstanceAs (Decidable w.NoShutdown)
  | .setState _ => inferInstanceAs (Decidable (_ → _))
  | .connectEstablished | .shutdown _ | .connectDestroyed => inferInstanceAs (Decidable True)

/-- What a thread is about to store is not behind `state_`. -/
structure Ordered (w : SharedState θ) : Prop where
  forward : Forward w.values
  bounded : ∀ value ∈ w.values, value.rank ≤ w.state.rank
  setting : ∀ thread state, w.setting thread = some state →
    state = .kDisconnecting ∨ state = .kDisconnected
  ahead : w.state = .kDisconnected → w.NoShutdown
  connecting : w.established = false → w.state = .kConnecting ∧ ∀ thread, w.setting thread = none

theorem Ordered.store {w : SharedState θ} (h : w.Ordered) {state : StateE}
    (hrank : w.state.rank ≤ state.rank) :
    Forward (w.store state).values ∧ ∀ value ∈ (w.store state).values, value.rank ≤ state.rank := by
  have hold : ∀ value ∈ w.values, value.rank ≤ state.rank :=
    fun value hmem => (h.bounded value hmem).trans hrank
  constructor
  · apply List.pairwise_append.mpr
    refine ⟨h.forward, List.pairwise_singleton _ _, ?_⟩
    intro value hmem last hlast
    obtain rfl := List.mem_singleton.mp hlast
    exact hold value hmem
  · intro value hmem
    rcases List.mem_append.mp hmem with hmem | hlast
    · exact hold value hmem
    · obtain rfl := List.mem_singleton.mp hlast
      exact le_rfl

theorem Forward.terminal {values before after : List StateE} (h : Forward values)
    (hvalues : values = before ++ .kDisconnected :: after) :
    ∀ value ∈ after, value = .kDisconnected := by
  intro value hmem
  rw [Forward, hvalues, List.pairwise_append] at h
  exact StateE.eq_kDisconnected_of_rank ((List.pairwise_cons.mp h.2.1).1 value hmem)

variable [DecidableEq θ]

theorem Ordered.test {w : SharedState θ} (h : w.Ordered) {thread : Option θ} {state : StateE}
    (hstate : state = .kDisconnecting ∨ state = .kDisconnected) : (w.test thread state).Ordered := by
  unfold SharedState.test
  split
  · rename_i hconnected
    refine ⟨h.forward, h.bounded, ?_, ?_, ?_⟩
    · intro t u hset
      change Function.update w.setting thread (some state) t = some u at hset
      by_cases heq : t = thread
      · subst heq
        rw [Function.update_self] at hset
        exact Option.some.inj hset ▸ hstate
      · rw [Function.update_of_ne heq] at hset
        exact h.setting t u hset
    · intro hdisconnected
      exact absurd (hconnected.symm.trans hdisconnected) (by decide)
    · intro hnew
      exact absurd (hconnected.symm.trans (h.connecting hnew).1) (by decide)
  · exact h

theorem update_none {w : SharedState θ} {thread t : Option θ} {state : StateE}
    (hset : Function.update w.setting thread none t = some state) : w.setting t = some state := by
  by_cases heq : t = thread
  · subst heq
    rw [Function.update_self] at hset
    cases hset
  · rwa [Function.update_of_ne heq] at hset

theorem ordered_step {w w' : SharedState θ} {access : StateAccess θ} (h : w.Ordered)
    (hok : w.Undisturbed access) (hstep : w.step access = some w') : w'.Ordered := by
  cases access with
  | connectEstablished =>
      obtain ⟨⟨hnew, -⟩, rfl⟩ := guarded_eq_some.mp hstep
      obtain ⟨hstate, -⟩ := h.connecting hnew
      have hrank : w.state.rank ≤ StateE.kConnected.rank := by
        rw [hstate]
        decide
      obtain ⟨hforward, hbounded⟩ := h.store hrank
      refine ⟨hforward, hbounded, h.setting, ?_, ?_⟩
      · intro hstate
        cases hstate
      · intro hnew
        cases hnew
  | shutdown thread =>
      obtain ⟨-, rfl⟩ := guarded_eq_some.mp hstep
      exact h.test (.inl rfl)
  | handleClose =>
      obtain ⟨⟨hestablished, -⟩, rfl⟩ := guarded_eq_some.mp hstep
      obtain ⟨hforward, hbounded⟩ := h.store w.state.rank_le
      refine ⟨hforward, hbounded, h.setting, fun _ => hok, ?_⟩
      intro hnew
      exact absurd (hestablished.symm.trans hnew) (by decide)
  | connectDestroyed =>
      obtain ⟨-, rfl⟩ := guarded_eq_some.mp hstep
      exact h.test (.inr rfl)
  | setState thread =>
      obtain ⟨state, hset, rfl⟩ := Option.map_eq_some_iff.mp hstep
      have hrank : w.state.rank ≤ state.rank := by
        rcases h.setting thread state hset with rfl | rfl
        · -- `shutdown` stores: `state_` is not yet `kDisconnected`
          exact StateE.rank_le_kDisconnecting fun hstate => h.ahead hstate thread hset
        · exact w.state.rank_le
      obtain ⟨hforward, hbounded⟩ := h.store hrank
      refine ⟨hforward, hbounded, fun t u hafter => h.setting t u (update_none hafter), ?_, ?_⟩
      · rintro rfl t hafter
        exact hok hset t (update_none hafter)
      · intro hnew
        exact absurd (((h.connecting hnew).2 thread).symm.trans hset) (by simp)

theorem ordered_of_reachable {w : SharedState θ}
    (hreach : (system (θ := θ)).ReachableUnder Undisturbed w) : w.Ordered := by
  refine hreach.invariant ?_ fun _ _ _ => ordered_step
  rintro w rfl
  refine ⟨List.pairwise_singleton _ _, ?_, ?_, ?_, fun _ => ⟨rfl, fun _ => rfl⟩⟩
  · intro value hmem
    obtain rfl := List.mem_singleton.mp hmem
    exact le_rfl
  · intro thread state hset
    cases hset
  · intro hstate
    cases hstate

/-- **States follow their order** in every run in which nothing disconnects the connection while a
thread stands between the two accesses of its `shutdown`. -/
theorem state_moves_forward {w : SharedState θ}
    (hreach : (system (θ := θ)).ReachableUnder Undisturbed w) :
    Forward w.values ∧ ∀ before after, w.values = before ++ .kDisconnected :: after →
      ∀ value ∈ after, value = .kDisconnected := by
  have hforward := (ordered_of_reachable hreach).forward
  exact ⟨hforward, fun before after hvalues => hforward.terminal hvalues⟩

/-- Two threads in `shutdown` at once, and the close after both. -/
theorem state_moves_forward_two_threads :
    ∃ w : SharedState Bool,
      system.execUnder Undisturbed new [.connectEstablished, .shutdown (some true),
        .shutdown (some false), .setState (some true), .setState (some false),
        .handleClose] = some w ∧
      Forward w.values ∧ ∀ before after, w.values = before ++ .kDisconnected :: after →
        ∀ value ∈ after, value = .kDisconnected := by
  obtain ⟨w, hexec⟩ : ∃ w : SharedState Bool,
      system.execUnder Undisturbed new [.connectEstablished, .shutdown (some true),
        .shutdown (some false), .setState (some true), .setState (some false),
        .handleClose] = some w :=
    ⟨_, rfl⟩
  exact ⟨w, hexec, state_moves_forward (System.reachableUnder_of_execUnder rfl hexec)⟩

/-- A thread passes the test of `shutdown`, the peer closes, and the thread stores. -/
theorem kDisconnected_is_left :
    ∃ w : SharedState Unit,
      (system (θ := Unit)).Reachable w ∧
        w.values = [.kConnecting, .kConnected, .kDisconnected, .kDisconnecting] ∧
        ¬Forward w.values := by
  obtain ⟨w, hexec, hvalues⟩ :
      ∃ w : SharedState Unit,
        system.exec new [.connectEstablished, .shutdown (some ()), .handleClose,
          .setState (some ())] = some w ∧
        w.values = [.kConnecting, .kConnected, .kDisconnected, .kDisconnecting] :=
    ⟨_, rfl, rfl⟩
  refine ⟨w, System.reachable_of_exec rfl hexec, hvalues, ?_⟩
  rw [hvalues]
  decide

theorem step_setState {w : SharedState θ} {thread : Option θ} {state : StateE}
    (hset : w.setting thread = some state) :
    w.step (.setState thread)
      = some { w.store state with setting := Function.update w.setting thread none } := by
  rw [step, hset, Option.map_some]

/-- Where the condition fails, a thread that stands in its `shutdown` can take `state_` back. -/
theorem back_of_disturbed {w v : SharedState θ} {access : StateAccess θ}
    (hdisturbed : ¬w.Undisturbed access) (hstep : w.step access = some v) :
    ∃ thread u, v.step (.setState thread) = some u ∧ ¬Forward u.values := by
  have hback : ∀ (v : SharedState θ) thread, .kDisconnected ∈ v.values →
      v.setting thread = some .kDisconnecting →
      ∃ thread u, v.step (.setState thread) = some u ∧ ¬Forward u.values := by
    intro v thread hmem hset
    refine ⟨thread, _, step_setState hset, ?_⟩
    intro hforward
    have hrank := (List.pairwise_append.mp hforward).2.2 _ hmem _ (List.mem_singleton_self _)
    exact absurd hrank (by decide)
  cases access with
  | handleClose =>
      obtain ⟨-, rfl⟩ := guarded_eq_some.mp hstep
      obtain ⟨thread, hset⟩ := not_forall.mp hdisturbed
      exact hback _ thread (List.mem_append_right _ (List.mem_singleton_self _)) (not_not.mp hset)
  | setState thread =>
      obtain ⟨state, hset, rfl⟩ := Option.map_eq_some_iff.mp hstep
      obtain ⟨hlast, hnot⟩ := Classical.not_imp.mp hdisturbed
      obtain ⟨other, hother⟩ := not_forall.mp hnot
      obtain rfl : state = .kDisconnected := Option.some.inj (hset.symm.trans hlast)
      refine hback _ other (List.mem_append_right _ (List.mem_singleton_self _)) ?_
      have hne : other ≠ thread := by
        rintro rfl
        exact hother (by rw [hlast]; decide)
      exact (Function.update_of_ne hne ..).trans (not_not.mp hother)
  | connectEstablished => exact absurd trivial hdisturbed
  | shutdown _ => exact absurd trivial hdisturbed
  | connectDestroyed => exact absurd trivial hdisturbed

/-! ### The accesses of the loop -/

/-- The thread of the loop is between two calls, and sees the state of the connection. -/
def Shows {κ : Type*} (w : SharedState θ) (s : Session κ) : Prop :=
  w.state = s.conn.state ∧ w.established = true ∧ w.setting none = none

/-- A test of the loop, and the store after it when the test passes. -/
theorem test_run {w : SharedState θ} {access : StateAccess θ} {state : StateE}
    (hest : w.established = true) (hidle : w.setting none = none)
    (hstep : w.step access = some (w.test none state)) :
    ∃ accesses v, (system (θ := θ)).Run w accesses v ∧ v.established = true ∧
      v.setting none = none ∧ v.state = if w.state = .kConnected then state else w.state := by
  have htest : (system (θ := θ)).Run w [access] (w.test none state) := .single trivial hstep
  by_cases hstate : w.state = .kConnected
  · have hpass : w.test none state
        = { w with setting := Function.update w.setting none (some state) } := if_pos hstate
    have hset : (w.test none state).setting none = some state := by
      rw [hpass]
      simp
    have hstore : (system (θ := θ)).step (w.test none state) (.setState none) = some _ :=
      step_setState hset
    refine ⟨_, _, htest.snoc trivial hstore, ?_, by simp, (if_pos hstate).symm⟩
    rw [hpass]
    exact hest
  · have hfail : w.test none state = w := if_neg hstate
    rw [hfail] at htest
    exact ⟨_, _, htest, hest, hidle, (if_neg hstate).symm⟩

/-- What the loop does to `state_` in one of its steps is a run of these accesses, with no thread in
between. -/
theorem loop_step_accesses {κ : Type*} (file : Nat → List Byte) {r r' : Running κ} {step : Step}
    {w : SharedState θ} (h : w.Shows r.session) (hstep : Running.step file r step = some r') :
    ∃ accesses v, (system (θ := θ)).Run w accesses v ∧ v.Shows r'.session := by
  obtain ⟨hstate, hest, hidle⟩ := h
  have hafter := Running.step_state file hstep
  rw [← hstate] at hafter
  have hnone : step.nextState w.state = w.state →
      ∃ accesses v, (system (θ := θ)).Run w accesses v ∧ v.Shows r'.session :=
    fun hsame => ⟨[], w, .nil w, (hafter.trans hsame).symm, hest, hidle⟩
  have hclose : step.nextState w.state = .kDisconnected →
      ∃ accesses v, (system (θ := θ)).Run w accesses v ∧ v.Shows r'.session := by
    intro hclosed
    have hstore : (system (θ := θ)).step w .handleClose = some (w.store .kDisconnected) :=
      guarded_eq_some.mpr ⟨⟨hest, hidle⟩, rfl⟩
    exact ⟨_, _, .single trivial hstore, (hafter.trans hclosed).symm, hest, hidle⟩
  cases step with
  | shutdown =>
      have htest : w.step (.shutdown none) = some (w.test none .kDisconnecting) :=
        guarded_eq_some.mpr ⟨hidle, rfl⟩
      obtain ⟨accesses, v, hrun, hv, hloop, hvalue⟩ := test_run hest hidle htest
      exact ⟨accesses, v, hrun, hvalue.trans hafter.symm, hv, hloop⟩
  | connectDestroyed =>
      have htest : w.step .connectDestroyed = some (w.test none .kDisconnected) :=
        guarded_eq_some.mpr ⟨⟨hest, hidle⟩, rfl⟩
      obtain ⟨accesses, v, hrun, hv, hloop, hvalue⟩ := test_run hest hidle htest
      exact ⟨accesses, v, hrun, hvalue.trans hafter.symm, hv, hloop⟩
  | handleClose => exact hclose rfl
  | handleRead answer =>
      by_cases heof : answer = .ok []
      · subst heof
        exact hclose rfl
      · exact hnone (Step.nextState_handleRead heof _)
  | _ => exact hnone rfl

end SharedState

end MuduoCore
