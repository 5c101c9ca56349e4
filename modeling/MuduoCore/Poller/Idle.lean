import MuduoCore.Poller.Coherence

/-!
# Channels without interest in the kernel's list

`updateChannel` looks at the interest only for a channel that is registered. A channel that is not is
added whatever it waits for, so an operation that leaves such a channel without interest registers
it for `EPOLLHUP` and `EPOLLERR`, which the kernel reports unasked.
-/

namespace MuduoCore

/-- The operation leaves its channel without interest. -/
def ChannelOp.leavesNone (c : Channel) : ChannelOp → Bool
  | disableReading => c.events &&& ~~~Channel.kReadEvent == Channel.kNoneEvent
  | disableWriting => c.events &&& ~~~Channel.kWriteEvent == Channel.kNoneEvent
  | disableAll => true
  | enableReading | enableWriting | remove => false

namespace Registry

open EPollPoller

variable {κ : Type*} {r r' : Registry κ}

/-- No channel without interest is in the kernel's list. -/
def NoIdle (r : Registry κ) : Prop :=
  ∀ k, (r.chan k).isNoneEvent = true → r.poller.epollfd (r.chan k).fd = none

/-- An operation that leaves its channel without interest finds it registered. -/
def Registered (r : Registry κ) (op : κ × ChannelOp) : Prop :=
  op.2.leavesNone (r.chan op.1) = true → (r.chan op.1).index = .kAdded

instance (r : Registry κ) (op : κ × ChannelOp) : Decidable (r.Registered op) :=
  inferInstanceAs (Decidable (_ → _))

theorem or_ne_kNoneEvent {events mask : EventMask} (hmask : mask ≠ 0#32) :
    events ||| mask ≠ Channel.kNoneEvent := by
  intro hnone
  apply hmask
  have hand : (events ||| mask) &&& mask = mask := by
    ext i hi
    simp only [BitVec.getElem_and, BitVec.getElem_or]
    cases events[i] <;> simp
  rw [← hand, hnone]
  exact BitVec.zero_and

/-- What an operation leaves of its channel: registered without interest exactly when it took the
interest away from a channel that was not registered. -/
theorem apply_idle_iff (p : EPollPoller κ) (k : κ) (c : Channel) (op : ChannelOp) :
    ((op.apply p k c).2.isNoneEvent = true ∧ (op.apply p k c).2.index = .kAdded) ↔
      op.leavesNone c = true ∧ c.index ≠ .kAdded := by
  have hset : ∀ events : EventMask,
      ((c.setEvents p k events).2.isNoneEvent = true ∧ (c.setEvents p k events).2.index = .kAdded) ↔
        (events == Channel.kNoneEvent) = true ∧ c.index ≠ .kAdded := by
    intro events
    rw [Channel.setEvents, updateChannel_channel]
    simp only [nextIndex, Channel.isNoneEvent]
    by_cases hnone : (events == Channel.kNoneEvent) = true
    · by_cases hindex : c.index = .kAdded <;> simp [hnone, hindex]
    · simp [hnone]
  cases op with
  | enableReading =>
      have hne : (c.events ||| Channel.kReadEvent == Channel.kNoneEvent) = false :=
        beq_eq_false_iff_ne.mpr (or_ne_kNoneEvent (by decide))
      rw [ChannelOp.apply, Channel.enableReading, hset, hne]
      rfl
  | enableWriting =>
      have hne : (c.events ||| Channel.kWriteEvent == Channel.kNoneEvent) = false :=
        beq_eq_false_iff_ne.mpr (or_ne_kNoneEvent (by decide))
      rw [ChannelOp.apply, Channel.enableWriting, hset, hne]
      rfl
  | disableReading => exact hset _
  | disableWriting => exact hset _
  | disableAll => exact hset _
  | remove => simp [ChannelOp.apply, Channel.remove, removeChannel, ChannelOp.leavesNone]

/-- In terms of the indices: the kernel's list holds a channel exactly when its index says so. -/
theorem noIdle_iff_index (h : r.Inv) :
    r.NoIdle ↔ ∀ k, ¬((r.chan k).isNoneEvent = true ∧ (r.chan k).index = .kAdded) := by
  constructor
  · rintro hidle k ⟨hnone, hadded⟩
    have habsent := hidle k hnone
    rw [h.coherent.registered k hadded] at habsent
    cases habsent
  · intro hindex k hnone
    exact h.coherent.epollfd_eq_none (h.fdFree k) fun hadded => hindex k ⟨hnone, hadded⟩

variable [DecidableEq κ]

theorem step_noIdle_iff {op : κ × ChannelOp} (hinv : r.Inv) (hidle : r.NoIdle)
    (hstep : system.step r op = some r') : r'.NoIdle ↔ r.Registered op := by
  have hinv' := step_inv hinv hstep
  have hafter : r'.chan = Function.update r.chan op.1
      (op.2.apply r.poller op.1 (r.chan op.1)).2 := by
    simp only [system] at hstep
    split at hstep
    · cases hstep
    · rw [← Option.some.inj hstep]
  have hown : r'.chan op.1 = (op.2.apply r.poller op.1 (r.chan op.1)).2 := by
    rw [hafter, Function.update_self]
  rw [noIdle_iff_index hinv] at hidle
  rw [noIdle_iff_index hinv']
  have happly := apply_idle_iff r.poller op.1 (r.chan op.1) op.2
  rw [← hown] at happly
  constructor
  · intro hnone hleaves
    by_contra hindex
    exact hnone op.1 (happly.mpr ⟨hleaves, hindex⟩)
  · intro hregistered k
    by_cases heq : k = op.1
    · rw [heq, happly]
      rintro ⟨hleaves, hindex⟩
      exact hindex (hregistered hleaves)
    · rw [hafter, Function.update_of_ne heq]
      exact hidle k

/-- **When idle channels stay out of the kernel's list.** In every run in which interest is only ever
taken away from registered channels, no channel without interest is registered, and the next
operation keeps it so exactly when it is such an operation too. -/
theorem noIdle_iff_registered (h : system.ReachableUnder Registered r) :
    r.NoIdle ∧ ∀ op r', system.step r op = some r' → (r'.NoIdle ↔ r.Registered op) := by
  have hboth : r.Inv ∧ r.NoIdle := by
    refine h.invariant (I := fun r => r.Inv ∧ r.NoIdle) ?_ ?_
    · rintro r ⟨hpoller, hnew, hdistinct⟩
      refine ⟨⟨by rw [hpoller]; exact coherent_new hnew, hdistinct⟩, fun k _ => ?_⟩
      rw [hpoller]
      rfl
    · intro r op r' hr hregistered hstep
      exact ⟨step_inv hr.1 hstep, (step_noIdle_iff hr.1 hr.2 hstep).mpr hregistered⟩
  exact ⟨hboth.2, fun op r' hstep => step_noIdle_iff hboth.1 hboth.2 hstep⟩

def twoNew : Registry Bool := ⟨EPollPoller.new, fun k => Channel.new (if k then 7 else 5)⟩

theorem init_twoNew : system.init twoNew := by
  refine ⟨rfl, fun _ => rfl, ?_⟩
  intro j k hfd
  revert hfd
  cases j <;> cases k <;> decide

/-- A connection's channel is enabled and closed once, the other one is only ever enabled. -/
theorem noIdle_iff_registered_closeOnce :
    ∃ r : Registry Bool,
      system.exec twoNew [(true, .enableReading), (false, .enableReading), (true, .disableAll)]
        = some r ∧ (r.chan true).index = .kDeleted ∧ r.NoIdle := by
  apply System.exists_execUnder Registered
  · exact ⟨_, rfl, rfl⟩
  · intro r hr _
    exact (noIdle_iff_registered (System.reachableUnder_of_execUnder init_twoNew hr)).1

/-- `~Acceptor` before `listen()`: its `disableAll` adds the channel that was never enabled. And a
second `handleClose`: its `disableAll` adds the channel that the first one took out. -/
theorem idle_registered :
    (∃ r : Registry Bool, system.exec twoNew [(true, .disableAll)] = some r ∧
      (r.chan true).isNoneEvent = true ∧ r.poller.epollfd 7 = some ⟨0#32, true⟩ ∧ ¬r.NoIdle) ∧
    (∃ r : Registry Bool,
      system.exec twoNew [(true, .enableReading), (true, .disableAll), (true, .disableAll)]
        = some r ∧
      (r.chan true).isNoneEvent = true ∧ r.poller.epollfd 7 = some ⟨0#32, true⟩ ∧ ¬r.NoIdle) := by
  refine ⟨⟨_, rfl, rfl, rfl, ?_⟩, ⟨_, rfl, rfl, rfl, ?_⟩⟩ <;>
  · intro hidle
    cases hidle true rfl

end Registry

end MuduoCore
