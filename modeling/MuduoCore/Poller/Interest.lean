import MuduoCore.Poller.Basic

/-!
# What an operation does to its channel

Whatever the poller answers, an operation leaves the channel with the interest it asked for and with
an index that depends on the channel alone.
-/

namespace MuduoCore

variable {κ : Type*} (p : EPollPoller κ) (ptr : κ) (c : Channel)

namespace EPollPoller

/-- The index after `updateChannel`: a channel without interest leaves the kernel's list only when it
was in it. -/
def nextIndex (c : Channel) : Index :=
  if c.index = .kAdded ∧ c.isNoneEvent = true then .kDeleted else .kAdded

theorem nextIndex_ne_kNew : nextIndex c ≠ .kNew := by
  unfold nextIndex
  split <;> decide

theorem updateChannel_channel :
    (p.updateChannel ptr c).2 = { c with index := nextIndex c } := by
  cases hindex : c.index with
  | kAdded =>
      by_cases hnone : c.isNoneEvent = true
      · simp [updateChannel, hindex, nextIndex, hnone]
      · simp only [updateChannel, hindex, nextIndex, hnone]
        rw [← hindex]
        rfl
  | _ => simp [updateChannel, hindex, nextIndex]

end EPollPoller

namespace Channel

@[simp]
theorem setEvents_fd (events : EventMask) : (setEvents p ptr c events).2.fd = c.fd := by
  rw [setEvents, EPollPoller.updateChannel_channel]

@[simp]
theorem setEvents_events (events : EventMask) : (setEvents p ptr c events).2.events = events := by
  rw [setEvents, EPollPoller.updateChannel_channel]

@[simp]
theorem new_isWriting (fd : Nat) : (Channel.new fd).isWriting = false := by
  simp [isWriting, Channel.new, kNoneEvent]

@[simp]
theorem enableReading_isWriting : (c.enableReading p ptr).2.isWriting = c.isWriting := by
  have hmask : (c.events ||| kReadEvent) &&& kWriteEvent = c.events &&& kWriteEvent := by
    rw [BitVec.and_or_distrib_right, show kReadEvent &&& kWriteEvent = 0#32 from rfl,
      BitVec.or_zero]
  simp only [isWriting, enableReading, setEvents_events, hmask]

@[simp]
theorem enableWriting_isWriting : (c.enableWriting p ptr).2.isWriting = true := by
  have hmask : (c.events ||| kWriteEvent) &&& kWriteEvent = kWriteEvent := by
    ext i hi
    simp only [BitVec.getElem_and, BitVec.getElem_or]
    cases c.events[i] <;> simp
  simp only [isWriting, enableWriting, setEvents_events, hmask]
  decide

@[simp]
theorem disableWriting_isWriting : (c.disableWriting p ptr).2.isWriting = false := by
  have hmask : (c.events &&& ~~~kWriteEvent) &&& kWriteEvent = 0#32 := by
    rw [BitVec.and_assoc, BitVec.and_comm (~~~kWriteEvent), BitVec.and_not_self]
    exact BitVec.and_zero
  simp only [isWriting, disableWriting, setEvents_events, hmask]
  decide

@[simp]
theorem disableAll_isWriting : (c.disableAll p ptr).2.isWriting = false := by
  simp [isWriting, disableAll, kNoneEvent]

end Channel

end MuduoCore
