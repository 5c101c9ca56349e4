import MuduoCore.TcpConnection.Threads

/-!
# Functors without a holder

The functors of `send` and `shutdown` do not hold the connection, and the batch with
`connectDestroyed`, which is the last to hold it for the server, outlasts only the functors that were
pushed before it was swapped out. A functor that comes later is left to the pointers of the user.
-/

namespace MuduoCore

/-- A functor among these does not hold the connection that it is bound to. -/
def RawWaits (functors : List SharedFunctor) : Prop :=
  ∃ functor ∈ functors, functor.holdsConnection = false

def SomeHolds (functors : List SharedFunctor) : Prop :=
  ∃ functor ∈ functors, functor.holdsConnection = true

instance (functors : List SharedFunctor) : Decidable (RawWaits functors) :=
  inferInstanceAs (Decidable (∃ functor ∈ functors, _))

instance (functors : List SharedFunctor) : Decidable (SomeHolds functors) :=
  inferInstanceAs (Decidable (∃ functor ∈ functors, _))

theorem rawWaits_append {l r : List SharedFunctor} :
    RawWaits (l ++ r) ↔ RawWaits l ∨ RawWaits r := by
  simp only [RawWaits, List.mem_append, or_and_right, exists_or]

theorem not_rawWaits_tasks (tasks : List Task) : ¬RawWaits (tasks.map .task) := by
  rintro ⟨functor, hmem, hraw⟩
  obtain ⟨task, -, rfl⟩ := List.mem_map.mp hmem
  cases hraw

namespace SharedConnection

variable {θ κ : Type*}

/-- The server holds the connection until the functors that wait have been executed: it has not been
removed, or a functor holds it that no waiting functor outlasts. -/
def ServerHolds (w : SharedConnection θ κ) : Prop :=
  w.mapped = true ∨ w.closing = true ∨ SomeHolds w.main.waiting ∨ SomeHolds w.io.pending ∨
    ¬RawWaits w.io.pending ∧ SomeHolds w.io.batch

/-- The user gives up the last pointer only where the server still holds the connection for the
functors of `send` and `shutdown` that wait. -/
def KeepsPointer [DecidableEq θ] (w : SharedConnection θ κ) : SharedAction θ → Prop
  | .drop thread => w.holders.erase thread = [] → RawWaits w.io.waiting → w.ServerHolds
  | _ => True

instance (w : SharedConnection θ κ) : Decidable w.ServerHolds :=
  inferInstanceAs (Decidable (_ ∨ _))

instance [DecidableEq θ] (w : SharedConnection θ κ) (action : SharedAction θ) :
    Decidable (w.KeepsPointer action) := by
  unfold KeepsPointer
  split <;> infer_instance

/-- The connection is there for the functors that wait. -/
structure Sheltered (w : SharedConnection θ κ) : Prop where
  alive : w.held = true → w.alive = true
  covered : RawWaits w.io.waiting → w.holders ≠ [] ∨ w.ServerHolds
  calling : ∀ thread, w.calls thread ≠ .idle → thread ∈ w.holders
  removals : ∀ functor ∈ w.main.stored, functor.holdsConnection = true
  undefined : w.undefined = false

variable {w w' : SharedConnection θ κ}

/-! ### Who holds the connection -/

theorem held_of_stored {functor : SharedFunctor} (hmem : functor ∈ w.io.stored)
    (hholds : functor.holdsConnection = true) : w.held = true := by
  have hany : w.io.stored.any (·.holdsConnection) = true := List.any_eq_true.mpr ⟨_, hmem, hholds⟩
  simp [held, hany]

theorem held_of_main {functor : SharedFunctor} (hmem : functor ∈ w.main.stored)
    (hholds : functor.holdsConnection = true) : w.held = true := by
  have hany : w.main.stored.any (·.holdsConnection) = true := List.any_eq_true.mpr ⟨_, hmem, hholds⟩
  simp [held, hany]

theorem held_of_holders (h : w.holders ≠ []) : w.held = true := by
  have hsome : w.holders.isEmpty = false := by simpa using h
  simp [held, hsome]

theorem ServerHolds.held (h : w.ServerHolds) : w.held = true := by
  obtain hmapped | hclosing | ⟨f, hmem, hf⟩ | ⟨f, hmem, hf⟩ | ⟨-, f, hmem, hf⟩ := h
  · simp [SharedConnection.held, hmapped]
  · simp [SharedConnection.held, hclosing]
  · exact held_of_main (BatchQueue.mem_stored_of_mem_waiting hmem) hf
  · exact held_of_stored (List.mem_append_right _ hmem) hf
  · exact held_of_stored (List.mem_append_left _ hmem) hf

/-- What holds the connection afterwards has held it before. -/
theorem held_mono (h : w'.held = true) (hmapped : w'.mapped = true → w.mapped = true)
    (hclosing : w'.closing = true → w.closing = true)
    (hio : SomeHolds w'.io.stored → SomeHolds w.io.stored)
    (hmain : SomeHolds w'.main.stored → SomeHolds w.main.stored)
    (hholders : w'.holders ≠ [] → w.holders ≠ []) : w.held = true := by
  simp only [held, Bool.or_eq_true, List.any_eq_true, Bool.not_eq_true', List.isEmpty_eq_false_iff]
    at h ⊢
  obtain (((h | h) | h) | h) | h := h
  · exact .inl (.inl (.inl (.inl (hmapped h))))
  · exact .inl (.inl (.inl (.inr (hclosing h))))
  · exact .inl (.inl (.inr (hio h)))
  · exact .inl (.inr (hmain h))
  · exact .inr (hholders h)

/-! ### What the steps do -/

/-- A step that leaves the queues and the holders alone. -/
theorem Sheltered.of_same (h : w.Sheltered) (hio : w'.io = w.io) (hmain : w'.main = w.main)
    (hmapped : w'.mapped = w.mapped) (hclosing : w'.closing = w.closing)
    (hholders : w'.holders = w.holders) (halive : w'.alive = w.alive)
    (hundefined : w'.undefined = w.undefined)
    (hcalling : ∀ thread, w'.calls thread ≠ .idle → thread ∈ w.holders) : w'.Sheltered := by
  have hheld : w'.held = w.held := by rw [held, held, hio, hmain, hmapped, hclosing, hholders]
  have hserver : w'.ServerHolds ↔ w.ServerHolds := by
    rw [ServerHolds, ServerHolds, hio, hmain, hmapped, hclosing]
  refine ⟨?_, ?_, ?_, ?_, ?_⟩
  · rw [hheld, halive]
    exact h.alive
  · rw [hio, hholders, hserver]
    exact h.covered
  · rw [hholders]
    exact hcalling
  · rw [hmain]
    exact h.removals
  · rw [hundefined]
    exact h.undefined

/-- Functors without a holder come only from a thread with a pointer. -/
theorem Sheltered.push (h : w.Sheltered) (halive : w.alive = true) (functors : List SharedFunctor)
    (hraw : RawWaits functors → w.holders ≠ []) :
    ({ w with io := w.io.push functors } : SharedConnection θ κ).Sheltered := by
  refine ⟨fun _ => halive, ?_, h.calling, h.removals, h.undefined⟩
  intro hwaits
  by_cases hnew : RawWaits functors
  · exact .inl (hraw hnew)
  · rw [BatchQueue.waiting_push, rawWaits_append] at hwaits
    apply (h.covered (hwaits.resolve_right hnew)).imp_right
    rintro (hmapped | hclosing | hmain | ⟨f, hmem, hf⟩ | ⟨hpending, hbatch⟩)
    · exact .inl hmapped
    · exact .inr (.inl hclosing)
    · exact .inr (.inr (.inl hmain))
    · exact .inr (.inr (.inr (.inl ⟨f, List.mem_append_left _ hmem, hf⟩)))
    · refine .inr (.inr (.inr (.inr ⟨?_, hbatch⟩)))
      rw [show (w.io.push functors).pending = w.io.pending ++ functors from rfl, rawWaits_append]
      exact not_or_intro hpending hnew

theorem Sheltered.collect (h : w.Sheltered) (halive : w.alive = true) (s : Session κ) :
    (w.collect s).Sheltered := by
  have hsession : ({ w with session := { s with pendingFunctors := [] } } :
      SharedConnection θ κ).Sheltered :=
    h.of_same rfl rfl rfl rfl rfl rfl rfl h.calling
  exact hsession.push halive _ fun hraw => absurd hraw (not_rawWaits_tasks _)

/-- The erased entry of `connections_` leaves `connectDestroyed` behind. -/
theorem sheltered_removeConnectionInLoop (halive : w.alive = true)
    (hcalling : ∀ thread, w.calls thread ≠ .idle → thread ∈ w.holders)
    (hremovals : ∀ functor ∈ w.main.stored, functor.holdsConnection = true)
    (hundefined : w.undefined = false) : w.removeConnectionInLoop.Sheltered := by
  refine ⟨fun _ => halive, fun _ => ?_, hcalling, hremovals, hundefined⟩
  exact .inr (.inr (.inr (.inr (.inl ⟨_, List.mem_append_right _ (List.mem_singleton_self _), rfl⟩))))

theorem Sheltered.removeConnection (h : w.Sheltered) (hclosing : w.closing = true) :
    ({ w with closing := false }.removeConnection : SharedConnection θ κ).Sheltered := by
  have halive : w.alive = true := h.alive (ServerHolds.held (.inr (.inl hclosing)))
  unfold SharedConnection.removeConnection
  split
  · refine ⟨fun _ => halive, fun _ => ?_, h.calling, ?_, h.undefined⟩
    · refine .inr (.inr (.inr (.inl ⟨.removeConnectionInLoop, ?_, rfl⟩)))
      rw [BatchQueue.waiting_push]
      exact List.mem_append_right _ (List.mem_singleton_self _)
    · intro functor hmem
      rw [BatchQueue.stored_push] at hmem
      obtain hold | hnew := List.mem_append.mp hmem
      · exact h.removals functor hold
      · rw [List.mem_singleton.mp hnew]
        rfl
  · exact sheltered_removeConnectionInLoop halive h.calling h.removals h.undefined

theorem Sheltered.handled (h : w.Sheltered) (hhandle : w.MayHandle) (s : Session κ) :
    (w.handled s).Sheltered := by
  obtain ⟨⟨-, hclosing⟩, -, halive, -⟩ := hhandle
  have hcollect := h.collect halive s
  refine ⟨fun _ => halive, ?_, h.calling, h.removals, h.undefined⟩
  intro hwaits
  apply (hcollect.covered hwaits).imp_right
  rintro (hmapped | hopen | hrest)
  · exact .inl hmapped
  · exact absurd (hclosing.symm.trans hopen) (by decide)
  · exact .inr (.inr hrest)

theorem Sheltered.call (h : w.Sheltered) (halive : w.alive = true) (file : Nat → List Byte)
    (answer : Except Errno Nat) (functor : SharedFunctor) :
    (w.call file answer functor).Sheltered := by
  cases functor with
  | sendInLoop ticket data =>
      exact (h.collect halive _).of_same rfl rfl rfl rfl rfl rfl rfl h.calling
  | shutdownInLoop => exact h.collect halive _
  | task task => exact h.collect halive _
  | connectDestroyed => exact h.collect halive _
  | removeConnectionInLoop =>
      exact sheltered_removeConnectionInLoop halive h.calling h.removals h.undefined

/-- A call of `runInLoop` comes from a thread that holds the connection. -/
theorem Sheltered.runInLoop (h : w.Sheltered) (hholders : w.holders ≠ []) (file : Nat → List Byte)
    (thread : Option θ) (answer : Except Errno Nat) (functor : SharedFunctor) :
    (w.runInLoop file thread answer functor).Sheltered := by
  have halive := h.alive (held_of_holders hholders)
  cases thread with
  | none => exact h.call halive file answer functor
  | some thread => exact h.push halive [functor] fun _ => hholders

/-- A functor that waits holds the connection, or is covered. -/
theorem Sheltered.alive_of_todo (h : w.Sheltered) {functor : SharedFunctor}
    {rest : List SharedFunctor} (htodo : w.io.todo = functor :: rest) : w.alive = true := by
  have hmem : functor ∈ w.io.waiting := by
    rw [BatchQueue.waiting_next htodo]
    exact List.mem_cons_self
  apply h.alive
  cases hholds : functor.holdsConnection with
  | true => exact held_of_stored (BatchQueue.mem_stored_of_mem_waiting hmem) hholds
  | false =>
      obtain hholders | hserver := h.covered ⟨functor, hmem, hholds⟩
      · exact held_of_holders hholders
      · exact hserver.held

theorem Sheltered.next (h : w.Sheltered) {functor : SharedFunctor} {rest : List SharedFunctor}
    (htodo : w.io.todo = functor :: rest) :
    ({ w with io := w.io.next } : SharedConnection θ κ).Sheltered := by
  refine ⟨h.alive, ?_, h.calling, h.removals, h.undefined⟩
  rintro ⟨raw, hmem, hraw⟩
  apply h.covered
  refine ⟨raw, ?_, hraw⟩
  rw [BatchQueue.waiting_next htodo]
  exact List.mem_cons_of_mem functor hmem

/-- Whatever waits at the swap waits in the batch, together with its holder. -/
theorem Sheltered.start (h : w.Sheltered) (hrunning : w.io.running = false) :
    ({ w with io := w.io.start } : SharedConnection θ κ).Sheltered := by
  refine ⟨?_, ?_, h.calling, h.removals, h.undefined⟩
  · intro hheld
    apply h.alive
    refine held_mono hheld id id ?_ id id
    rw [BatchQueue.stored_start hrunning]
    exact id
  · rw [BatchQueue.waiting_start hrunning]
    intro hwaits
    apply (h.covered hwaits).imp_right
    rintro (hmapped | hclosing | hmain | hpending | ⟨-, f, hmem, -⟩)
    · exact .inl hmapped
    · exact .inr (.inl hclosing)
    · exact .inr (.inr (.inl hmain))
    · refine .inr (.inr (.inr (.inr ⟨?_, hpending⟩)))
      rintro ⟨f, hmem, -⟩
      cases hmem
    · rw [w.io.idle hrunning] at hmem
      cases hmem

/-- The batch is released when none of its functors waits any more. -/
theorem Sheltered.finish (h : w.Sheltered) (htodo : w.io.todo = []) :
    ({ w with io := w.io.finish } : SharedConnection θ κ).Sheltered := by
  refine ⟨?_, ?_, h.calling, h.removals, h.undefined⟩
  · intro hheld
    apply h.alive
    refine held_mono hheld id id ?_ id id
    rintro ⟨f, hmem, hf⟩
    exact ⟨f, List.mem_append_right _ hmem, hf⟩
  · rw [BatchQueue.waiting_finish htodo]
    intro hwaits
    apply (h.covered hwaits).imp_right
    rintro (hmapped | hclosing | hmain | hpending | ⟨hpending, -⟩)
    · exact .inl hmapped
    · exact .inr (.inl hclosing)
    · exact .inr (.inr (.inl hmain))
    · exact .inr (.inr (.inr (.inl hpending)))
    · rw [BatchQueue.waiting, htodo] at hwaits
      exact absurd hwaits hpending

/-- The queue of the main loop holds removals, which hold the connection. -/
theorem Sheltered.mainQueue (h : w.Sheltered) {main : BatchQueue SharedFunctor}
    (hstored : ∀ functor ∈ main.stored, functor ∈ w.main.stored)
    (hwaiting : main.waiting = w.main.waiting) :
    ({ w with main := main } : SharedConnection θ κ).Sheltered := by
  refine ⟨?_, ?_, h.calling, ?_, h.undefined⟩
  · intro hheld
    apply h.alive
    refine held_mono hheld id id id ?_ id
    rintro ⟨f, hmem, hf⟩
    exact ⟨f, hstored f hmem, hf⟩
  · rw [ServerHolds, hwaiting]
    exact h.covered
  · exact fun functor hmem => h.removals functor (hstored functor hmem)

theorem Sheltered.mainNext (h : w.Sheltered) {functor : SharedFunctor} {rest : List SharedFunctor}
    (htodo : w.main.todo = functor :: rest) :
    ({ w with main := w.main.next }.removeConnectionInLoop : SharedConnection θ κ).Sheltered := by
  have hmem : functor ∈ w.main.stored := by
    apply BatchQueue.mem_stored_of_mem_waiting
    apply List.mem_append_left
    rw [htodo]
    exact List.mem_cons_self
  have halive := h.alive (held_of_main hmem (h.removals functor hmem))
  exact sheltered_removeConnectionInLoop halive h.calling h.removals h.undefined

variable [DecidableEq θ]

theorem calls_setCall {thread t : Option θ} {point : CallPoint}
    (h : (w.setCall thread point).calls t ≠ .idle) :
    t = thread ∨ w.calls t ≠ .idle := by
  by_cases heq : t = thread
  · exact .inl heq
  · change Function.update w.calls thread point t ≠ .idle at h
    rw [Function.update_of_ne heq] at h
    exact .inr h

theorem Sheltered.setCall (h : w.Sheltered) {thread : Option θ} (hthread : thread ∈ w.holders)
    (point : CallPoint) : (w.setCall thread point).Sheltered := by
  refine h.of_same rfl rfl rfl rfl rfl rfl rfl fun t hcall => ?_
  obtain rfl | hbusy := calls_setCall hcall
  · exact hthread
  · exact h.calling t hbusy

theorem Sheltered.drop (h : w.Sheltered) {thread : Option θ} (hidle : w.calls thread = .idle)
    (hkeeps : w.KeepsPointer (.drop thread)) :
    ({ w with holders := w.holders.erase thread } : SharedConnection θ κ).Sheltered := by
  refine ⟨?_, ?_, ?_, h.removals, h.undefined⟩
  · intro hheld
    apply h.alive
    refine held_mono hheld id id id id ?_
    rintro hsome hnone
    rw [hnone] at hsome
    exact hsome rfl
  · intro hwaits
    by_cases hlast : w.holders.erase thread = []
    · exact .inr (hkeeps hlast hwaits)
    · exact .inl hlast
  · intro t hbusy
    have hne : t ≠ thread := by
      rintro rfl
      exact hbusy hidle
    exact (List.mem_erase_of_ne hne).mpr (h.calling t hbusy)

theorem move_sheltered {file : Nat → List Byte} {action : SharedAction θ} (h : w.Sheltered)
    (hkeeps : w.KeepsPointer action) (hmove : w.move file action = some w') : w'.Sheltered := by
  cases action with
  | send thread data =>
      obtain ⟨⟨-, hthread⟩, rfl⟩ := guarded_eq_some.mp hmove
      split
      · exact h.setCall hthread _
      · exact h
  | sendFile thread fileDescriptor offset count =>
      obtain ⟨⟨-, hthread⟩, rfl⟩ := guarded_eq_some.mp hmove
      split
      · exact h.setCall hthread _
      · exact h
  | shutdown thread =>
      obtain ⟨⟨-, hthread⟩, rfl⟩ := guarded_eq_some.mp hmove
      split
      · have hcall := h.setCall hthread .shutdown
        exact hcall.of_same rfl rfl rfl rfl rfl rfl rfl hcall.calling
      · exact h
  | setState thread =>
      obtain ⟨hshutdown, rfl⟩ := guarded_eq_some.mp hmove
      have hthread : thread ∈ w.holders := by
        apply h.calling
        rw [hshutdown]
        decide
      have hcall := h.setCall hthread .setState
      exact hcall.of_same rfl rfl rfl rfl rfl rfl rfl hcall.calling
  | runInLoop thread answer =>
      have hreturns : w.calls thread ≠ .idle →
          (w.setCall thread .idle).Sheltered ∧ w.holders ≠ [] := by
        intro hbusy
        have hthread := h.calling thread hbusy
        exact ⟨h.setCall hthread .idle, List.ne_nil_of_mem hthread⟩
      obtain ⟨data, hcall, rfl⟩ | ⟨fileDescriptor, offset, count, hcall, rfl⟩ | ⟨hcall, rfl⟩ :=
        move_runInLoop hmove
      · obtain ⟨hidle, hholders⟩ := hreturns (by rw [hcall]; simp)
        have hreturned : ({ w.setCall thread .idle with returned := w.returned ++ [data] } :
            SharedConnection θ κ).Sheltered :=
          hidle.of_same rfl rfl rfl rfl rfl rfl rfl hidle.calling
        exact hreturned.runInLoop hholders file thread answer _
      · obtain ⟨hidle, hholders⟩ := hreturns (by rw [hcall]; simp)
        exact hidle.runInLoop hholders file thread answer _
      · obtain ⟨hidle, hholders⟩ := hreturns (by rw [hcall]; simp)
        exact hidle.runInLoop hholders file thread answer _
  | hold thread =>
      obtain ⟨halive, rfl⟩ := guarded_eq_some.mp hmove
      refine ⟨fun _ => halive, fun _ => .inl (List.cons_ne_nil _ _), ?_, h.removals, h.undefined⟩
      exact fun t hbusy => List.mem_cons_of_mem thread (h.calling t hbusy)
  | drop thread =>
      obtain ⟨⟨-, hidle⟩, rfl⟩ := guarded_eq_some.mp hmove
      exact h.drop hidle hkeeps
  | handleRead answer =>
      obtain ⟨hhandle, rfl⟩ := guarded_eq_some.mp hmove
      exact h.handled hhandle _
  | handleWrite answer =>
      obtain ⟨hhandle, rfl⟩ := guarded_eq_some.mp hmove
      exact h.handled hhandle _
  | handleClose =>
      obtain ⟨hhandle, rfl⟩ := guarded_eq_some.mp hmove
      exact h.handled hhandle _
  | handleError =>
      obtain ⟨hhandle, rfl⟩ := guarded_eq_some.mp hmove
      exact h.handled hhandle _
  | closeCallback =>
      obtain ⟨⟨-, hclosing⟩, rfl⟩ := guarded_eq_some.mp hmove
      exact h.removeConnection hclosing
  | doPendingFunctors =>
      obtain ⟨⟨-, hrunning⟩, rfl⟩ := guarded_eq_some.mp hmove
      exact h.start hrunning
  | runFunctor answer =>
      obtain ⟨functor, rest, htodo, rfl⟩ := move_runFunctor hmove
      have halive := h.alive_of_todo htodo
      rw [if_pos (by rw [halive, Bool.or_true])]
      exact (h.next htodo).call halive file answer functor
  | release =>
      obtain ⟨⟨-, -, htodo⟩, rfl⟩ := guarded_eq_some.mp hmove
      exact h.finish htodo
  | mainDoPendingFunctors =>
      obtain ⟨hrunning, rfl⟩ := guarded_eq_some.mp hmove
      apply h.mainQueue _ (BatchQueue.waiting_start hrunning)
      rw [BatchQueue.stored_start hrunning]
      exact fun _ => id
  | mainRunFunctor =>
      obtain ⟨functor, rest, htodo, rfl⟩ := move_mainRunFunctor hmove
      exact h.mainNext htodo
  | mainRelease =>
      obtain ⟨⟨-, htodo⟩, rfl⟩ := guarded_eq_some.mp hmove
      exact h.mainQueue (fun _ hmem => List.mem_append_right _ hmem) (BatchQueue.waiting_finish htodo)

/-! ### Runs -/

omit [DecidableEq θ] in
theorem Sheltered.reap (h : w.Sheltered) : w.reap.Sheltered := by
  refine ⟨?_, h.covered, h.calling, h.removals, h.undefined⟩
  intro hheld
  exact Bool.and_eq_true_iff.mpr ⟨h.alive hheld, hheld⟩

theorem step_sheltered {file : Nat → List Byte} {action : SharedAction θ} (h : w.Sheltered)
    (hkeeps : w.KeepsPointer action) (hstep : w.step file action = some w') : w'.Sheltered := by
  obtain ⟨v, hmove, rfl⟩ := step_eq_some hstep
  exact (move_sheltered h hkeeps hmove).reap

omit [DecidableEq θ] in
theorem Initial.sheltered (h : w.Initial) : w.Sheltered := by
  refine ⟨fun _ => h.alive, ?_, ?_, ?_, h.undefined⟩
  · rw [h.io_eq]
    rintro ⟨functor, hmem, -⟩
    cases hmem
  · exact fun thread hbusy => absurd (h.calls_eq thread) hbusy
  · rw [h.main_eq]
    intro functor hmem
    cases hmem

/-- **Functors within the life of the connection** in every run in which the user gives up the last
pointer only where the server still holds the connection for the functors that wait: whenever a functor
of the loop is executed, the connection has not been destroyed. -/
theorem functors_within_lifetime (file : Nat → List Byte)
    (hreach : (system file).ReachableUnder KeepsPointer w) :
    w.undefined = false ∧
      ∀ functor rest, w.io.todo = functor :: rest → w.alive = true := by
  have hsheltered : w.Sheltered := by
    apply hreach.invariant (I := Sheltered)
    · exact fun _ hinit => hinit.sheltered
    · exact fun _ _ _ h hkeeps hstep => step_sheltered h hkeeps hstep
  exact ⟨hsheltered.undefined, fun _ _ htodo => hsheltered.alive_of_todo htodo⟩

/-- `send` passes its test before the peer closes, and its functor is pushed while `connectDestroyed`
waits. -/
theorem functors_within_lifetime_late_send :
    ∃ w : SharedConnection Unit Unit,
      (system fun _ => []).execUnder KeepsPointer (established Running.sample.session true)
        [.hold (some ()), .send (some ()) [7], .handleRead (.ok []), .closeCallback,
          .mainDoPendingFunctors, .mainRunFunctor, .mainRelease, .runInLoop (some ()) (.ok 0),
          .drop (some ()), .doPendingFunctors, .runFunctor (.ok 0)] = some w ∧
      w.io.todo = [.sendInLoop 0 [7]] ∧ w.alive = true := by
  obtain ⟨w, hexec, htodo⟩ : ∃ w : SharedConnection Unit Unit,
      (system fun _ => []).execUnder KeepsPointer (established Running.sample.session true)
        [.hold (some ()), .send (some ()) [7], .handleRead (.ok []), .closeCallback,
          .mainDoPendingFunctors, .mainRunFunctor, .mainRelease, .runInLoop (some ()) (.ok 0),
          .drop (some ()), .doPendingFunctors, .runFunctor (.ok 0)] = some w ∧
      w.io.todo = [.sendInLoop 0 [7]] :=
    ⟨_, rfl, rfl⟩
  have hinit := initial_established (θ := Unit) Running.established_sample true
  have hreach := System.reachableUnder_of_execUnder hinit hexec
  exact ⟨w, hexec, htodo, (functors_within_lifetime _ hreach).2 _ _ htodo⟩

/-- The same with the push after the swap: `connectDestroyed` is executed and released before the
functor of `send`, and the thread drops its pointer in between. -/
theorem functor_after_destruction :
    ∃ w w' : SharedConnection Unit Unit,
      (established Running.sample.session true : SharedConnection Unit Unit).Initial ∧
      (system fun _ => []).exec (established Running.sample.session true)
        [.hold (some ()), .send (some ()) [7], .handleRead (.ok []), .closeCallback,
          .mainDoPendingFunctors, .mainRunFunctor, .mainRelease, .doPendingFunctors,
          .runInLoop (some ()) (.ok 0), .runFunctor (.ok 0), .release, .drop (some ()),
          .doPendingFunctors] = some w ∧
      w.io.todo = [.sendInLoop 0 [7]] ∧ w.alive = false ∧
      w.step (fun _ => []) (.runFunctor (.ok 0)) = some w' ∧ w'.undefined = true :=
  ⟨_, _, initial_established Running.established_sample true, rfl, rfl, rfl, rfl, rfl⟩

end SharedConnection

end MuduoCore
