import MuduoCore.Poller.Interest

/-!
# The three stores of a registration agree

`Coherent` says what `index_`, `channels_` and the kernel's interest list have to do with each other.
An operation of a channel writes one entry of each, and writes them so that they agree again; the
only thing it needs from its environment is that no other registered channel has its fd.
-/

namespace MuduoCore

variable {κ : Type*}

namespace EPollPoller

/-- `chan ptr` is the channel that `ptr` points to. -/
structure Coherent (p : EPollPoller κ) (chan : κ → Channel) : Prop where
  logged_nil : p.logged = []
  registered : ∀ k, (chan k).index = .kAdded → p.epollfd (chan k).fd = some ⟨(chan k).events, k⟩
  owner : ∀ fd event, p.epollfd fd = some event →
    (chan event.ptr).fd = fd ∧ (chan event.ptr).index = .kAdded
  mapped : ∀ k, (chan k).index ≠ .kNew → p.channels (chan k).fd = some k
  mapped_owner : ∀ fd k, p.channels fd = some k → (chan k).fd = fd ∧ (chan k).index ≠ .kNew

/-- No other channel with the fd of `k` is known to the poller. -/
def FdFree (chan : κ → Channel) (k : κ) : Prop :=
  ∀ other, other ≠ k → (chan other).index ≠ .kNew → (chan other).fd ≠ (chan k).fd

variable {p : EPollPoller κ} {chan : κ → Channel} {k : κ}

theorem coherent_new (hnew : ∀ k, (chan k).index = .kNew) : Coherent (new : EPollPoller κ) chan := by
  refine ⟨rfl, ?_, ?_, ?_, ?_⟩
  · intro k hk
    rw [hnew k] at hk
    cases hk
  · intro fd event hset
    cases hset
  · intro k hk
    exact absurd (hnew k) hk
  · intro fd k hmap
    cases hmap

theorem Coherent.epollfd_eq_none (h : Coherent p chan) (hfree : FdFree chan k)
    (hindex : (chan k).index ≠ .kAdded) : p.epollfd (chan k).fd = none := by
  cases hset : p.epollfd (chan k).fd with
  | none => rfl
  | some event =>
      obtain ⟨hfd, hadded⟩ := h.owner _ _ hset
      by_cases heq : event.ptr = k
      · rw [heq] at hadded
        exact absurd hadded hindex
      · exact absurd hfd (hfree _ heq (by rw [hadded]; decide))

/-- What an operation on `k` leaves behind: one entry written in each store, and the three entries
say the same. -/
structure Wrote (p p' : EPollPoller κ) (k : κ) (c c' : Channel) : Prop where
  fd_eq : c'.fd = c.fd
  logged_eq : p'.logged = p.logged
  epollfd_eq : p'.epollfd = Function.update p.epollfd c.fd
    (if c'.index = .kAdded then some ⟨c'.events, k⟩ else none)
  channels_eq : p'.channels = Function.update p.channels c.fd
    (if c'.index = .kNew then none else some k)

theorem Coherent.of_wrote [DecidableEq κ] {p' : EPollPoller κ} {c' : Channel}
    (h : Coherent p chan) (hfree : FdFree chan k) (hwrote : Wrote p p' k (chan k) c') :
    Coherent p' (Function.update chan k c') := by
  have hfd := hwrote.fd_eq
  refine ⟨hwrote.logged_eq.trans h.logged_nil, ?_, ?_, ?_, ?_⟩
  · intro j hj
    rw [hwrote.epollfd_eq]
    by_cases heq : j = k
    · subst heq
      rw [Function.update_self] at hj ⊢
      rw [hfd, Function.update_self, if_pos hj]
    · rw [Function.update_of_ne heq] at hj ⊢
      rw [Function.update_of_ne (hfree j heq (by rw [hj]; decide))]
      exact h.registered j hj
  · intro fd event hset
    rw [hwrote.epollfd_eq] at hset
    by_cases hat : fd = (chan k).fd
    · subst hat
      rw [Function.update_self] at hset
      split at hset
      · rename_i hadded
        obtain rfl := Option.some.inj hset
        rw [Function.update_self]
        exact ⟨hfd, hadded⟩
      · cases hset
    · rw [Function.update_of_ne hat] at hset
      obtain ⟨hown, hadded⟩ := h.owner fd event hset
      have hne : event.ptr ≠ k := fun heq => hat (by rw [← heq, hown])
      rw [Function.update_of_ne hne]
      exact ⟨hown, hadded⟩
  · intro j hj
    rw [hwrote.channels_eq]
    by_cases heq : j = k
    · subst heq
      rw [Function.update_self] at hj ⊢
      rw [hfd, Function.update_self, if_neg hj]
    · rw [Function.update_of_ne heq] at hj ⊢
      rw [Function.update_of_ne (hfree j heq hj)]
      exact h.mapped j hj
  · intro fd j hmap
    rw [hwrote.channels_eq] at hmap
    by_cases hat : fd = (chan k).fd
    · subst hat
      rw [Function.update_self] at hmap
      split at hmap
      · cases hmap
      · rename_i hindex
        obtain rfl := Option.some.inj hmap
        rw [Function.update_self]
        exact ⟨hfd, hindex⟩
    · rw [Function.update_of_ne hat] at hmap
      obtain ⟨hown, hindex⟩ := h.mapped_owner fd j hmap
      have hne : j ≠ k := fun heq => hat (by rw [← heq, hown])
      rw [Function.update_of_ne hne]
      exact ⟨hown, hindex⟩

/-! ### What `updateChannel` and `removeChannel` write -/

/-- `c` is the channel of `k` with its interest changed. -/
theorem updateChannel_eq {c : Channel} (h : Coherent p chan) (hfree : FdFree chan k)
    (hfd : c.fd = (chan k).fd) (hindex : c.index = (chan k).index) :
    p.updateChannel k c =
      ({ p with
          channels := Function.update p.channels c.fd (some k)
          epollfd := Function.update p.epollfd c.fd
            (if nextIndex c = .kAdded then some ⟨c.events, k⟩ else none) },
        { c with index := nextIndex c }) := by
  cases hcase : c.index with
  | kNew =>
      have habsent := h.epollfd_eq_none hfree (by rw [← hindex, hcase]; decide)
      rw [← hfd] at habsent
      simp [updateChannel, hcase, nextIndex, update, epollCtl, habsent]
  | kDeleted =>
      have habsent := h.epollfd_eq_none hfree (by rw [← hindex, hcase]; decide)
      have hmapped := h.mapped k (by rw [← hindex, hcase]; decide)
      rw [← hfd] at habsent hmapped
      simp [updateChannel, hcase, nextIndex, update, epollCtl, habsent, ← hmapped]
  | kAdded =>
      have hpresent := h.registered k (by rw [← hindex, hcase])
      have hmapped := h.mapped k (by rw [← hindex, hcase]; decide)
      rw [← hfd] at hpresent hmapped
      by_cases hnone : c.isNoneEvent = true
      · simp [updateChannel, hcase, hnone, nextIndex, update, epollCtl, hpresent, ← hmapped]
      · simp [updateChannel, hcase, hnone, nextIndex, update, epollCtl, hpresent, ← hmapped]
        rw [← hcase]

theorem updateChannel_wrote {c : Channel} (h : Coherent p chan) (hfree : FdFree chan k)
    (hfd : c.fd = (chan k).fd) (hindex : c.index = (chan k).index) :
    Wrote p (p.updateChannel k c).1 k (chan k) (p.updateChannel k c).2 := by
  have hnext : nextIndex c ≠ .kNew := by
    unfold nextIndex
    split <;> decide
  rw [updateChannel_eq h hfree hfd hindex]
  refine ⟨hfd, rfl, ?_, ?_⟩
  · rw [hfd]
  · simp only [hfd, if_neg hnext]

theorem removeChannel_eq (h : Coherent p chan) (hfree : FdFree chan k) :
    p.removeChannel k (chan k) =
      ({ p with
          channels := Function.update p.channels (chan k).fd none
          epollfd := Function.update p.epollfd (chan k).fd none },
        { chan k with index := .kNew }) := by
  by_cases hadded : (chan k).index = .kAdded
  · have hpresent := h.registered k hadded
    simp [removeChannel, hadded, update, epollCtl, hpresent]
  · have habsent := h.epollfd_eq_none hfree hadded
    simp [removeChannel, hadded, ← habsent]

theorem removeChannel_wrote (h : Coherent p chan) (hfree : FdFree chan k) :
    Wrote p (p.removeChannel k (chan k)).1 k (chan k) (p.removeChannel k (chan k)).2 := by
  rw [removeChannel_eq h hfree]
  exact ⟨rfl, rfl, rfl, rfl⟩

theorem Coherent.setEvents [DecidableEq κ] (h : Coherent p chan) (hfree : FdFree chan k)
    (events : EventMask) :
    Coherent (Channel.setEvents p k (chan k) events).1
      (Function.update chan k (Channel.setEvents p k (chan k) events).2) :=
  h.of_wrote hfree (updateChannel_wrote h hfree rfl rfl)

theorem Coherent.remove [DecidableEq κ] (h : Coherent p chan) (hfree : FdFree chan k) :
    Coherent (Channel.remove p k (chan k)).1
      (Function.update chan k (Channel.remove p k (chan k)).2) :=
  h.of_wrote hfree (removeChannel_wrote h hfree)

end EPollPoller

/-! ### Every run of the operations -/

inductive ChannelOp where
  | enableReading
  | disableReading
  | enableWriting
  | disableWriting
  | disableAll
  | remove
  deriving DecidableEq, Repr

def ChannelOp.apply (p : EPollPoller κ) (ptr : κ) (c : Channel) :
    ChannelOp → EPollPoller κ × Channel
  | enableReading => c.enableReading p ptr
  | disableReading => c.disableReading p ptr
  | enableWriting => c.enableWriting p ptr
  | disableWriting => c.disableWriting p ptr
  | disableAll => c.disableAll p ptr
  | remove => c.remove p ptr

/-- One loop: its poller and the channels it may be asked to watch. -/
structure Registry (κ : Type*) where
  poller : EPollPoller κ
  chan : κ → Channel

namespace Registry

open EPollPoller

variable [DecidableEq κ]

/-- Channels with distinct fds that no poller has seen, and then any operation on any of them, as
long as the process has not exited. -/
def system : System (Registry κ) (κ × ChannelOp) where
  init r := r.poller = EPollPoller.new ∧ (∀ k, (r.chan k).index = .kNew) ∧
    Function.Injective fun k => (r.chan k).fd
  step r op :=
    if r.poller.exited then none
    else
      let result := op.2.apply r.poller op.1 (r.chan op.1)
      some { poller := result.1, chan := Function.update r.chan op.1 result.2 }

structure Inv (r : Registry κ) : Prop where
  coherent : Coherent r.poller r.chan
  distinct : Function.Injective fun k => (r.chan k).fd

omit [DecidableEq κ] in
theorem Inv.fdFree {r : Registry κ} (h : r.Inv) (k : κ) : FdFree r.chan k :=
  fun _ hne _ hfd => hne (h.distinct hfd)

theorem apply_inv {r : Registry κ} (h : r.Inv) (k : κ) (op : ChannelOp) :
    Coherent (op.apply r.poller k (r.chan k)).1
        (Function.update r.chan k (op.apply r.poller k (r.chan k)).2) ∧
      (op.apply r.poller k (r.chan k)).2.fd = (r.chan k).fd := by
  have hset : ∀ events, (Channel.setEvents r.poller k (r.chan k) events).2.fd = (r.chan k).fd :=
    fun events => (updateChannel_wrote (c := { r.chan k with events := events }) h.coherent
      (h.fdFree k) rfl rfl).fd_eq
  cases op with
  | remove => exact ⟨h.coherent.remove (h.fdFree k), rfl⟩
  | _ => exact ⟨h.coherent.setEvents (h.fdFree k) _, hset _⟩

theorem step_inv {r r' : Registry κ} {op : κ × ChannelOp} (h : r.Inv)
    (hstep : system.step r op = some r') : r'.Inv := by
  simp only [system] at hstep
  split at hstep
  · cases hstep
  · obtain rfl := Option.some.inj hstep
    obtain ⟨hcoherent, hfd⟩ := apply_inv h op.1 op.2
    refine ⟨hcoherent, ?_⟩
    have hsame : (fun k => (Function.update r.chan op.1
        (op.2.apply r.poller op.1 (r.chan op.1)).2 k).fd) = fun k => (r.chan k).fd := by
      funext k
      by_cases heq : k = op.1
      · rw [heq, Function.update_self, hfd]
      · rw [Function.update_of_ne heq]
    rw [hsame]
    exact h.distinct

theorem reachable_inv {r : Registry κ} (h : system.Reachable r) : r.Inv := by
  refine h.invariant ?_ fun _ _ _ hinv _ hstep => step_inv hinv hstep
  rintro r ⟨hpoller, hnew, hdistinct⟩
  exact ⟨by rw [hpoller]; exact coherent_new hnew, hdistinct⟩

/-- **The poller and the kernel agree.** In every state of every run no `epoll_ctl` has failed, and
for each channel the kernel's list and `channels_` hold just what its index says. -/
theorem poller_kernel_coherent {r : Registry κ} (h : system.Reachable r) :
    r.poller.logged = [] ∧ r.poller.exited = false ∧
      ∀ k : κ,
        ((r.poller.epollfd (r.chan k).fd).isSome = true ↔ (r.chan k).index = .kAdded) ∧
        ((r.chan k).index = .kAdded →
          r.poller.epollfd (r.chan k).fd = some ⟨(r.chan k).events, k⟩) ∧
        (r.poller.channels (r.chan k).fd = some k ↔
          (r.chan k).index = .kAdded ∨ (r.chan k).index = .kDeleted) ∧
        (r.poller.hasChannel k (r.chan k) = true ↔ (r.chan k).index ≠ .kNew) := by
  have hinv := reachable_inv h
  have hcoherent := hinv.coherent
  have hmap : ∀ k, r.poller.channels (r.chan k).fd = some k ↔ (r.chan k).index ≠ .kNew :=
    fun k => ⟨fun hmap => (hcoherent.mapped_owner _ _ hmap).2, hcoherent.mapped k⟩
  refine ⟨hcoherent.logged_nil, by simp [exited, hcoherent.logged_nil], fun k => ⟨?_, ?_, ?_, ?_⟩⟩
  · constructor
    · intro hsome
      by_contra hindex
      rw [hcoherent.epollfd_eq_none (hinv.fdFree k) hindex] at hsome
      cases hsome
    · intro hadded
      rw [hcoherent.registered k hadded]
      rfl
  · exact hcoherent.registered k
  · rw [hmap k]
    cases (r.chan k).index <;> simp
  · rw [hasChannel, beq_iff_eq, hmap k]

/-- A channel that was removed while it was enabled, and enabled again. -/
theorem poller_kernel_coherent_reenable :
    ∃ r : Registry Bool,
      system.exec ⟨EPollPoller.new, fun k => Channel.new (if k then 7 else 5)⟩
        [(true, .enableReading), (true, .remove), (false, .disableAll), (true, .enableWriting)]
        = some r ∧
      (r.chan true).index = .kAdded ∧
      r.poller.epollfd (r.chan true).fd = some ⟨(r.chan true).events, true⟩ := by
  have hinit : system.init
      (⟨EPollPoller.new, fun k => Channel.new (if k then 7 else 5)⟩ : Registry Bool) := by
    refine ⟨rfl, fun _ => rfl, ?_⟩
    intro j k hfd
    revert hfd
    cases j <;> cases k <;> decide
  apply System.exists_exec
  · exact ⟨_, rfl, rfl⟩
  · intro r hr hindex
    have hcoherent := poller_kernel_coherent (System.reachable_of_exec hinit hr)
    exact (hcoherent.2.2 true).2.1 hindex

end Registry

end MuduoCore
