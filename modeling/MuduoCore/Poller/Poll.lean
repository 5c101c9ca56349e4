import MuduoCore.Lib.RoundRobin
import MuduoCore.Poller.Idle
import MuduoCore.Buffer.Basic
import Mathlib.Data.Fintype.Card

/-!
# Polling

`src/EPollPoller.cpp`, with the part of `EventLoop::loop()` that goes through `activeChannels_`. The
kernel keeps the registered descriptors that have something to report in a queue, and
`::epoll_wait` goes through it round robin when there are more of them than it may store.
-/

namespace MuduoCore

/-- Initial size of `events_`. -/
def kInitEventListSize : Nat := 16

def EINTR : Errno := 4

/-- `registry` with what `poll` and the dispatch loop of the same thread use beside it. `events` is
`events_.size()` and `activeChannels` the part of the list that is still to be dispatched; `errors`
are the `errno`s that `poll` logged. `readiness` and `readyList` belong to the kernel. -/
structure PollLoop (κ : Type*) where
  registry : Registry κ
  events : Nat
  activeChannels : List κ
  errors : List Errno
  readiness : Nat → EventMask
  readyList : List Nat

namespace PollLoop

variable {κ : Type*} [DecidableEq κ]

def new (registry : Registry κ) : PollLoop κ where
  registry := registry
  events := kInitEventListSize
  activeChannels := []
  errors := []
  readiness _ := 0#32
  readyList := []

/-! ### The kernel -/

/-- What the kernel has to say of `fd`. Errors and hang-ups are reported unasked. -/
def event (s : PollLoop κ) (fd : Nat) : Option (EpollEvent κ) :=
  (s.registry.poller.epollfd fd).map fun event =>
    ⟨s.readiness fd &&& (event.events ||| EPOLLERR ||| EPOLLHUP), event.ptr⟩

def ready (s : PollLoop κ) (fd : Nat) : Bool :=
  match s.event fd with
  | some event => event.events != 0#32
  | none => false

/-- A descriptor that has something to report joins the queue unless it is there, and one that is
not registered leaves it. -/
def requeue (s : PollLoop κ) (fd : Nat) : PollLoop κ :=
  if (s.registry.poller.epollfd fd).isNone then { s with readyList := s.readyList.erase fd }
  else if s.ready fd && !s.readyList.contains fd then { s with readyList := s.readyList ++ [fd] }
  else s

/-- `::epoll_wait` with room for `events` entries, as it stores them. -/
def epollWait (s : PollLoop κ) : PollLoop κ × List (EpollEvent κ) :=
  ({ s with readyList := RoundRobin.rotate s.ready s.events s.readyList },
    (RoundRobin.serve s.ready s.events s.readyList).1.filterMap s.event)

/-! ### The poller -/

/-- The channels and `activeChannels` after each of the events is passed on. -/
def fillActiveChannels (chan : κ → Channel) (activeChannels : List κ) :
    List (EpollEvent κ) → (κ → Channel) × List κ
  | [] => (chan, activeChannels)
  | event :: events =>
      let channel := { chan event.ptr with revents := event.events }
      fillActiveChannels (Function.update chan event.ptr channel) (activeChannels ++ [event.ptr])
        events

/-- `EPollPoller::poll` after `::epoll_wait` has returned, with the events that it stored or its
`errno`. -/
def poll (s : PollLoop κ) : Except Errno (List (EpollEvent κ)) → PollLoop κ
  | .ok [] => s
  | .ok events =>
      let filled := fillActiveChannels s.registry.chan s.activeChannels events
      { s with
        registry := { s.registry with chan := filled.1 }
        activeChannels := filled.2
        events := if events.length = s.events then s.events * 2 else s.events }
  | .error saveErrno =>
      if saveErrno = EINTR then s else { s with errors := s.errors ++ [saveErrno] }

/-! ### The runs of one loop -/

inductive Action (κ : Type*) where
  /-- Data arrive, buffers drain, peers hang up: the readiness of a descriptor changes. -/
  | become (fd : Nat) (mask : EventMask)
  | channel (op : κ × ChannelOp)
  | poll
  | pollFails (errno : Errno)
  /-- The dispatch of the next active channel. What its callbacks do are steps of their own. -/
  | handleEvent
  deriving DecidableEq

/-- `poll` is entered with `activeChannels_` cleared, after the last round was dispatched. -/
def system : System (PollLoop κ) (Action κ) where
  init s := ∃ registry, Registry.system.init registry ∧ s = new registry
  step s
    | .become fd mask =>
        some (requeue { s with readiness := Function.update s.readiness fd mask } fd)
    | .channel op =>
        (Registry.system.step s.registry op).map fun registry =>
          requeue { s with registry := registry } (s.registry.chan op.1).fd
    | .poll =>
        (guarded (s.activeChannels = []) s).map fun s => s.epollWait.1.poll (.ok s.epollWait.2)
    | .pollFails errno =>
        (guarded (s.activeChannels = []) s).map fun s => s.poll (.error errno)
    | .handleEvent =>
        match s.activeChannels with
        | [] => none
        | _ :: channels => some { s with activeChannels := channels }

/-! ### What a poll stores and passes on -/

omit [DecidableEq κ] in
theorem event_eq_some {s : PollLoop κ} {fd : Nat} {e : EpollEvent κ} (hevent : s.event fd = some e) :
    ∃ interest, s.registry.poller.epollfd fd = some ⟨interest, e.ptr⟩ ∧
      e.events = s.readiness fd &&& (interest ||| EPOLLERR ||| EPOLLHUP) := by
  obtain ⟨registered, hset, rfl⟩ := Option.map_eq_some_iff.mp hevent
  exact ⟨registered.events, hset, rfl⟩

omit [DecidableEq κ] in
theorem ready_iff {s : PollLoop κ} {fd : Nat} :
    s.ready fd = true ↔ ∃ e, s.event fd = some e ∧ e.events ≠ 0#32 := by
  unfold ready
  cases s.event fd <;> simp

theorem fillActiveChannels_snd (chan : κ → Channel) (active : List κ)
    (events : List (EpollEvent κ)) :
    (fillActiveChannels chan active events).2 = active ++ events.map EpollEvent.ptr := by
  induction events generalizing chan active with
  | nil => simp [fillActiveChannels]
  | cons event events ih =>
      rw [fillActiveChannels, ih, List.map_cons, List.append_assoc]
      rfl

theorem fillActiveChannels_of_notMem (chan : κ → Channel) (active : List κ)
    {events : List (EpollEvent κ)} {k : κ} (hk : k ∉ events.map EpollEvent.ptr) :
    (fillActiveChannels chan active events).1 k = chan k := by
  induction events generalizing chan active with
  | nil => rfl
  | cons event events ih =>
      rw [List.map_cons, List.mem_cons, not_or] at hk
      rw [fillActiveChannels, ih _ _ hk.2, Function.update_of_ne hk.1]

/-- Each of the distinct channels gets the events stored for it. -/
theorem fillActiveChannels_of_mem (chan : κ → Channel) (active : List κ)
    {events : List (EpollEvent κ)} (hdistinct : (events.map EpollEvent.ptr).Nodup)
    {event : EpollEvent κ} (hmem : event ∈ events) :
    (fillActiveChannels chan active events).1 event.ptr =
      { chan event.ptr with revents := event.events } := by
  induction events generalizing chan active with
  | nil => cases hmem
  | cons head events ih =>
      rw [List.map_cons, List.nodup_cons] at hdistinct
      rw [fillActiveChannels]
      rcases List.mem_cons.mp hmem with heq | htail
      · subst heq
        rw [fillActiveChannels_of_notMem _ _ hdistinct.1, Function.update_self]
      · have hne : event.ptr ≠ head.ptr := by
          intro heq
          exact hdistinct.1 (heq ▸ List.mem_map_of_mem htail)
        rw [ih _ _ hdistinct.2 htail, Function.update_of_ne hne]

/-- Only the events that occurred differ between the two channels. -/
def SameBut (c c' : Channel) : Prop := ∃ mask, c' = { c with revents := mask }

theorem fillActiveChannels_sameBut (chan : κ → Channel) (active : List κ)
    (events : List (EpollEvent κ)) (k : κ) :
    SameBut (chan k) ((fillActiveChannels chan active events).1 k) := by
  induction events generalizing chan active with
  | nil => exact ⟨(chan k).revents, rfl⟩
  | cons event events ih =>
      rw [fillActiveChannels]
      obtain ⟨mask, heq⟩ := ih (Function.update chan event.ptr
        { chan event.ptr with revents := event.events }) (active ++ [event.ptr])
      by_cases hk : k = event.ptr
      · subst hk
        exact ⟨mask, by rw [heq, Function.update_self]⟩
      · exact ⟨mask, by rw [heq, Function.update_of_ne hk]⟩

omit [DecidableEq κ] in
/-- No store of a registration holds the events that occurred. -/
theorem inv_of_sameBut {r : Registry κ} {chan : κ → Channel} (h : r.Inv)
    (hsame : ∀ k, SameBut (r.chan k) (chan k)) : ({ r with chan := chan } : Registry κ).Inv := by
  have hfd : ∀ k, (chan k).fd = (r.chan k).fd := by
    intro k
    obtain ⟨mask, heq⟩ := hsame k
    rw [heq]
  have hindex : ∀ k, (chan k).index = (r.chan k).index := by
    intro k
    obtain ⟨mask, heq⟩ := hsame k
    rw [heq]
  have hevents : ∀ k, (chan k).events = (r.chan k).events := by
    intro k
    obtain ⟨mask, heq⟩ := hsame k
    rw [heq]
  have hcoherent := h.coherent
  refine ⟨⟨hcoherent.logged_nil, ?_, ?_, ?_, ?_⟩, ?_⟩
  · intro k hadded
    rw [hindex] at hadded
    rw [hfd, hevents]
    exact hcoherent.registered k hadded
  · intro fd event hset
    rw [hfd, hindex]
    exact hcoherent.owner fd event hset
  · intro k hnew
    rw [hindex] at hnew
    rw [hfd]
    exact hcoherent.mapped k hnew
  · intro fd k hmap
    rw [hfd, hindex]
    exact hcoherent.mapped_owner fd k hmap
  · intro j k heq
    exact h.distinct ((hfd j).symm.trans (heq.trans (hfd k)))

/-! ### The invariant of the loop -/

/-- The kernel's queue holds registered descriptors, each once, and all that have something to
report. -/
structure Queued (s : PollLoop κ) : Prop where
  nodup : s.readyList.Nodup
  registered : ∀ fd ∈ s.readyList, s.registry.poller.epollfd fd ≠ none
  complete : ∀ fd, s.ready fd = true → fd ∈ s.readyList

structure Inv (s : PollLoop κ) : Prop where
  registry : s.registry.Inv
  queued : s.Queued
  size : ∃ n, s.events = kInitEventListSize * 2 ^ n
  distinct : s.activeChannels.Nodup
  occurred : ∀ k ∈ s.activeChannels, (s.registry.chan k).revents ≠ 0#32

section Requeue

variable {s : PollLoop κ} {fd : Nat}

omit [DecidableEq κ] in
/-- `requeue` writes the queue only. -/
theorem requeue_eq (s : PollLoop κ) (fd : Nat) :
    ∃ readyList, s.requeue fd = { s with readyList := readyList } := by
  unfold requeue
  split
  · exact ⟨_, rfl⟩
  · split
    · exact ⟨_, rfl⟩
    · exact ⟨s.readyList, rfl⟩

omit [DecidableEq κ] in
/-- A queue that is right for all descriptors but one is right once that one is requeued. -/
theorem requeue_queued (hnodup : s.readyList.Nodup)
    (hregistered : ∀ other ∈ s.readyList, other ≠ fd → s.registry.poller.epollfd other ≠ none)
    (hcomplete : ∀ other, other ≠ fd → s.ready other = true → other ∈ s.readyList) :
    (s.requeue fd).Queued := by
  unfold requeue
  split
  · rename_i habsent
    have habsent := Option.isNone_iff_eq_none.mp habsent
    refine ⟨hnodup.erase fd, ?_, ?_⟩
    · intro other hmem
      have hother := hnodup.mem_erase_iff.mp hmem
      exact hregistered other hother.2 hother.1
    · intro other hready
      have hne : other ≠ fd := by
        rintro rfl
        obtain ⟨event, hevent, -⟩ := ready_iff.mp hready
        obtain ⟨_, hset, -⟩ := event_eq_some hevent
        rw [habsent] at hset
        cases hset
      exact hnodup.mem_erase_iff.mpr ⟨hne, hcomplete other hne hready⟩
  · rename_i hpresent
    rw [Option.isNone_iff_eq_none] at hpresent
    split
    · rename_i hjoins
      obtain ⟨-, hout⟩ := Bool.and_eq_true_iff.mp hjoins
      have hout : fd ∉ s.readyList := by simpa using hout
      refine ⟨?_, ?_, ?_⟩
      · refine List.nodup_append.mpr ⟨hnodup, List.nodup_singleton fd, ?_⟩
        intro other hother joined hjoined heq
        rw [List.mem_singleton] at hjoined
        exact hout (hjoined ▸ heq ▸ hother)
      · intro other hmem
        by_cases heq : other = fd
        · rw [heq]
          exact hpresent
        · refine hregistered other ?_ heq
          simpa [heq] using hmem
      · intro other hready
        by_cases heq : other = fd
        · rw [heq]
          exact List.mem_append_right _ (List.mem_singleton_self fd)
        · exact List.mem_append_left _ (hcomplete other heq hready)
    · rename_i hstays
      refine ⟨hnodup, ?_, ?_⟩
      · intro other hmem
        by_cases heq : other = fd
        · rw [heq]
          exact hpresent
        · exact hregistered other hmem heq
      · intro other hready
        by_cases heq : other = fd
        · subst heq
          by_contra hout
          refine hstays (Bool.and_eq_true_iff.mpr ⟨hready, ?_⟩)
          simpa using hout
        · exact hcomplete other heq hready

omit [DecidableEq κ] in
/-- The place of a descriptor that stays ready does not get worse when another one is requeued. -/
theorem idxOf_requeue_le {other : Nat} (hmem : fd ∈ s.readyList)
    (hregistered : s.registry.poller.epollfd fd ≠ none) :
    (s.requeue other).readyList.idxOf fd ≤ s.readyList.idxOf fd := by
  unfold requeue
  split
  · rename_i habsent
    refine RoundRobin.idxOf_erase_le ?_
    rintro rfl
    exact hregistered (Option.isNone_iff_eq_none.mp habsent)
  · split
    · exact (RoundRobin.idxOf_append_singleton hmem).le
    · exact Nat.le_refl _

end Requeue

/-! ### What `::epoll_wait` stores -/

section Answer

variable {s : PollLoop κ}

omit [DecidableEq κ] in
/-- Each entry is about one channel: registered, with one of its events. -/
theorem mem_answer (h : s.Inv) {e : EpollEvent κ} (hmem : e ∈ s.epollWait.2) :
    (s.registry.chan e.ptr).index = .kAdded ∧ e.events ≠ 0#32 ∧
      s.event (s.registry.chan e.ptr).fd = some e ∧
      (s.registry.chan e.ptr).fd ∈ (RoundRobin.serve s.ready s.events s.readyList).1 := by
  obtain ⟨fd, hserved, hevent⟩ := List.mem_filterMap.mp hmem
  obtain ⟨interest, hset, -⟩ := event_eq_some hevent
  obtain ⟨hfd, hadded⟩ := h.registry.coherent.owner _ _ hset
  obtain ⟨e', hevent', hne⟩ := ready_iff.mp (RoundRobin.ready_of_mem_serve hserved)
  obtain rfl := Option.some.inj (hevent.symm.trans hevent')
  dsimp only at hfd hadded
  rw [hfd]
  exact ⟨hadded, hne, hevent, hserved⟩

omit [DecidableEq κ] in
theorem answer_fds (h : s.Inv) :
    (s.epollWait.2.map fun e => (s.registry.chan e.ptr).fd) =
      (RoundRobin.serve s.ready s.events s.readyList).1 := by
  have hall : ∀ fd ∈ (RoundRobin.serve s.ready s.events s.readyList).1,
      ∃ e, s.event fd = some e ∧ (s.registry.chan e.ptr).fd = fd := by
    intro fd hserved
    obtain ⟨e, hevent, -⟩ := ready_iff.mp (RoundRobin.ready_of_mem_serve hserved)
    obtain ⟨interest, hset, -⟩ := event_eq_some hevent
    exact ⟨e, hevent, (h.registry.coherent.owner _ _ hset).1⟩
  rw [epollWait]
  generalize (RoundRobin.serve s.ready s.events s.readyList).1 = served at hall
  induction served with
  | nil => rfl
  | cons fd served ih =>
      obtain ⟨e, hevent, hfd⟩ := hall fd List.mem_cons_self
      have htail := ih fun other hother => hall other (List.mem_cons_of_mem fd hother)
      rw [List.filterMap_cons_some hevent, List.map_cons, hfd, htail]

omit [DecidableEq κ] in
theorem answer_length (h : s.Inv) :
    s.epollWait.2.length = (RoundRobin.serve s.ready s.events s.readyList).1.length := by
  rw [← answer_fds h, List.length_map]

omit [DecidableEq κ] in
theorem answer_distinct (h : s.Inv) : (s.epollWait.2.map EpollEvent.ptr).Nodup := by
  refine List.Nodup.of_map (fun k => (s.registry.chan k).fd) ?_
  rw [List.map_map]
  have hfds := answer_fds h
  have hserved : (RoundRobin.serve s.ready s.events s.readyList).1.Nodup :=
    RoundRobin.nodup_serve h.queued.nodup
  rw [← hfds] at hserved
  exact hserved

/-- What a successful poll leaves, whether it timed out or not. -/
theorem poll_answer (h : s.Inv) (hidle : s.activeChannels = []) :
    s.epollWait.1.poll (.ok s.epollWait.2) =
      { s with
        registry :=
          { s.registry with chan := (fillActiveChannels s.registry.chan [] s.epollWait.2).1 }
        activeChannels := s.epollWait.2.map EpollEvent.ptr
        events := if s.epollWait.2.length = s.events then s.events * 2 else s.events
        readyList := RoundRobin.rotate s.ready s.events s.readyList } := by
  cases hanswer : s.epollWait.2 with
  | nil =>
      obtain ⟨n, hsize⟩ := h.size
      have hroom : s.events ≠ 0 := by
        rw [hsize, kInitEventListSize]
        have := Nat.two_pow_pos n
        omega
      simp only [poll, epollWait, fillActiveChannels, List.length_nil, List.map_nil,
        if_neg hroom.symm, hidle]
  | cons e events =>
      have hactive := fillActiveChannels_snd s.registry.chan [] (e :: events)
      rw [List.nil_append] at hactive
      simp only [poll, epollWait, hidle, hactive]

/-- A poll that fails writes the log only. -/
theorem poll_error (s : PollLoop κ) (errno : Errno) :
    ∃ errors, s.poll (.error errno) = { s with errors := errors } := by
  simp only [poll]
  split
  · exact ⟨s.errors, rfl⟩
  · exact ⟨_, rfl⟩

end Answer

/-! ### Every step keeps the invariant -/

section Step

variable {s t : PollLoop κ} {k : κ}

omit [DecidableEq κ] in
theorem apply_wrote {r : Registry κ} (h : r.Inv) (k : κ) (op : ChannelOp) :
    EPollPoller.Wrote r.poller (op.apply r.poller k (r.chan k)).1 k (r.chan k)
      (op.apply r.poller k (r.chan k)).2 := by
  cases op with
  | remove => exact EPollPoller.removeChannel_wrote h.coherent (h.fdFree k)
  | _ => exact EPollPoller.updateChannel_wrote h.coherent (h.fdFree k) rfl rfl

omit [DecidableEq κ] in
theorem apply_revents (p : EPollPoller κ) (k : κ) (c : Channel) (op : ChannelOp) :
    (op.apply p k c).2.revents = c.revents := by
  cases op with
  | remove => rfl
  | _ =>
      simp only [ChannelOp.apply, Channel.enableReading, Channel.disableReading,
        Channel.enableWriting, Channel.disableWriting, Channel.disableAll, Channel.setEvents,
        EPollPoller.updateChannel_channel]

/-- A channel operation as it shows from here. -/
theorem registry_step {r r' : Registry κ} {op : κ × ChannelOp} (h : r.Inv)
    (hstep : Registry.system.step r op = some r') :
    r'.Inv ∧ (∀ k, (r'.chan k).fd = (r.chan k).fd) ∧
      (∀ k, (r'.chan k).revents = (r.chan k).revents) ∧
      ∀ fd, fd ≠ (r.chan op.1).fd → r'.poller.epollfd fd = r.poller.epollfd fd := by
  have hinv := Registry.step_inv h hstep
  simp only [Registry.system] at hstep
  split at hstep
  · cases hstep
  · obtain rfl := Option.some.inj hstep
    have hwrote := apply_wrote h op.1 op.2
    refine ⟨hinv, ?_, ?_, ?_⟩
    · intro k
      dsimp only
      by_cases heq : k = op.1
      · rw [heq, Function.update_self, hwrote.fd_eq]
      · rw [Function.update_of_ne heq]
    · intro k
      dsimp only
      by_cases heq : k = op.1
      · rw [heq, Function.update_self, apply_revents]
      · rw [Function.update_of_ne heq]
    · intro fd hne
      dsimp only
      rw [hwrote.epollfd_eq, Function.update_of_ne hne]

omit [DecidableEq κ] in
theorem event_congr {fd : Nat}
    (hset : t.registry.poller.epollfd fd = s.registry.poller.epollfd fd)
    (hreadiness : t.readiness fd = s.readiness fd) : t.event fd = s.event fd := by
  rw [event, event, hset, hreadiness]

omit [DecidableEq κ] in
theorem ready_congr {fd : Nat} (hevent : t.event fd = s.event fd) : t.ready fd = s.ready fd := by
  rw [ready, ready, hevent]

theorem poll_step (h : s.Inv) (hstep : system.step s .poll = some t) :
    s.activeChannels = [] ∧
      t = { s with
        registry :=
          { s.registry with chan := (fillActiveChannels s.registry.chan [] s.epollWait.2).1 }
        activeChannels := s.epollWait.2.map EpollEvent.ptr
        events := if s.epollWait.2.length = s.events then s.events * 2 else s.events
        readyList := RoundRobin.rotate s.ready s.events s.readyList } := by
  obtain ⟨u, hguard, rfl⟩ := Option.map_eq_some_iff.mp hstep
  obtain ⟨hidle, rfl⟩ := guarded_eq_some.mp hguard
  exact ⟨hidle, poll_answer h hidle⟩

/-- What a step that is not a successful poll writes. -/
inductive Moves (s : PollLoop κ) : Action κ → PollLoop κ → Prop where
  | become {fd : Nat} {mask : EventMask} {readyList : List Nat}
      (hqueue : (requeue { s with readiness := Function.update s.readiness fd mask } fd).readyList
        = readyList) :
      Moves s (.become fd mask)
        { s with readiness := Function.update s.readiness fd mask, readyList := readyList }
  | channel {op : κ × ChannelOp} {registry : Registry κ} {readyList : List Nat}
      (hop : Registry.system.step s.registry op = some registry)
      (hqueue : (requeue { s with registry := registry } (s.registry.chan op.1).fd).readyList
        = readyList) :
      Moves s (.channel op) { s with registry := registry, readyList := readyList }
  | pollFails {errno : Errno} {errors : List Errno} :
      Moves s (.pollFails errno) { s with errors := errors }
  | handleEvent {k : κ} {channels : List κ} (hactive : s.activeChannels = k :: channels) :
      Moves s .handleEvent { s with activeChannels := channels }

theorem moves_of_step {a : Action κ} (hstep : system.step s a = some t) (hpoll : a ≠ .poll) :
    Moves s a t := by
  cases a with
  | become fd mask =>
      obtain rfl := Option.some.inj hstep
      obtain ⟨readyList, heq⟩ :=
        requeue_eq { s with readiness := Function.update s.readiness fd mask } fd
      rw [heq]
      exact .become (congrArg PollLoop.readyList heq)
  | channel op =>
      obtain ⟨registry, hop, rfl⟩ := Option.map_eq_some_iff.mp hstep
      obtain ⟨readyList, heq⟩ :=
        requeue_eq { s with registry := registry } (s.registry.chan op.1).fd
      rw [heq]
      exact .channel hop (congrArg PollLoop.readyList heq)
  | poll => exact absurd rfl hpoll
  | pollFails errno =>
      obtain ⟨u, hguard, rfl⟩ := Option.map_eq_some_iff.mp hstep
      obtain ⟨-, rfl⟩ := guarded_eq_some.mp hguard
      obtain ⟨errors, heq⟩ := poll_error s errno
      rw [heq]
      exact .pollFails
  | handleEvent =>
      simp only [system] at hstep
      split at hstep
      · cases hstep
      · rename_i k channels hactive
        obtain rfl := Option.some.inj hstep
        exact .handleEvent hactive

omit [DecidableEq κ] in
theorem Queued.become (h : s.Queued) (fd : Nat) (mask : EventMask) :
    (requeue { s with readiness := Function.update s.readiness fd mask } fd).Queued := by
  refine requeue_queued h.nodup (fun other hmem _ => h.registered other hmem) ?_
  intro other hne hready
  refine h.complete other ?_
  rw [← hready]
  exact ready_congr (event_congr rfl (Function.update_of_ne hne _ _).symm)

omit [DecidableEq κ] in
theorem Queued.channel (h : s.Queued) {registry : Registry κ} {fd : Nat}
    (hset : ∀ other, other ≠ fd →
      registry.poller.epollfd other = s.registry.poller.epollfd other) :
    (requeue { s with registry := registry } fd).Queued := by
  refine requeue_queued h.nodup ?_ ?_
  · intro other hmem hne
    have hpresent := h.registered other hmem
    rw [← hset other hne] at hpresent
    exact hpresent
  · intro other hne hready
    refine h.complete other ?_
    rw [← hready]
    exact ready_congr (event_congr (hset other hne).symm rfl)

theorem Inv.moves {a : Action κ} (h : s.Inv) (hmoves : Moves s a t) : t.Inv := by
  cases hmoves with
  | @become fd mask readyList hqueue =>
      have hqueued := h.queued.become fd mask
      obtain ⟨_, heq⟩ :=
        requeue_eq { s with readiness := Function.update s.readiness fd mask } fd
      rw [heq] at hqueued hqueue
      rw [← hqueue]
      exact ⟨h.registry, hqueued, h.size, h.distinct, h.occurred⟩
  | @channel op registry readyList hop hqueue =>
      obtain ⟨hinv, -, hrevents, hset⟩ := registry_step h.registry hop
      have hqueued := h.queued.channel hset
      obtain ⟨_, heq⟩ := requeue_eq { s with registry := registry } (s.registry.chan op.1).fd
      rw [heq] at hqueued hqueue
      rw [← hqueue]
      refine ⟨hinv, hqueued, h.size, h.distinct, ?_⟩
      intro k hmem
      rw [hrevents k]
      exact h.occurred k hmem
  | pollFails =>
      exact ⟨h.registry, ⟨h.queued.nodup, h.queued.registered, h.queued.complete⟩, h.size,
        h.distinct, h.occurred⟩
  | @handleEvent k channels hactive =>
      have hdistinct := h.distinct
      rw [hactive, List.nodup_cons] at hdistinct
      refine ⟨h.registry, ⟨h.queued.nodup, h.queued.registered, h.queued.complete⟩, h.size,
        hdistinct.2, ?_⟩
      intro other hmem
      exact h.occurred other (hactive ▸ List.mem_cons_of_mem k hmem)

theorem Inv.poll (h : s.Inv) (hidle : s.activeChannels = []) :
    (s.epollWait.1.poll (.ok s.epollWait.2)).Inv := by
  rw [poll_answer h hidle]
  have hdistinct := answer_distinct h
  refine ⟨?_, ⟨?_, ?_, ?_⟩, ?_, hdistinct, ?_⟩
  · exact inv_of_sameBut h.registry (fillActiveChannels_sameBut s.registry.chan [] s.epollWait.2)
  · exact RoundRobin.nodup_rotate h.queued.nodup
  · intro fd hmem
    exact h.queued.registered fd (RoundRobin.mem_of_mem_rotate hmem)
  · intro fd hready
    exact RoundRobin.mem_rotate_of_ready hready (h.queued.complete fd hready)
  · obtain ⟨n, hsize⟩ := h.size
    split
    · refine ⟨n + 1, ?_⟩
      rw [hsize, Nat.pow_succ, Nat.mul_assoc]
    · exact ⟨n, hsize⟩
  · intro k hmem
    obtain ⟨e, he, rfl⟩ := List.mem_map.mp hmem
    dsimp only
    rw [fillActiveChannels_of_mem _ _ hdistinct he]
    exact (mem_answer h he).2.1

theorem step_inv {a : Action κ} (h : s.Inv) (hstep : system.step s a = some t) : t.Inv := by
  by_cases hpoll : a = .poll
  · subst hpoll
    obtain ⟨hidle, rfl⟩ := poll_step h hstep
    exact poll_answer h hidle ▸ h.poll hidle
  · exact h.moves (moves_of_step hstep hpoll)

theorem reachable_inv (h : system.Reachable s) : s.Inv := by
  refine h.invariant ?_ fun _ _ _ hinv _ hstep => step_inv hinv hstep
  rintro s ⟨registry, hinit, rfl⟩
  have hset : ∀ fd, registry.poller.epollfd fd = none := by
    intro fd
    rw [hinit.1]
    rfl
  refine ⟨Registry.reachable_inv ⟨registry, [], hinit, .nil _⟩, ⟨List.nodup_nil, ?_, ?_⟩, ⟨0, rfl⟩,
    List.nodup_nil, ?_⟩
  · intro fd hmem
    cases hmem
  · intro fd hready
    obtain ⟨e, hevent, -⟩ := ready_iff.mp hready
    obtain ⟨_, habsent, -⟩ := event_eq_some hevent
    have hnone : (new registry).registry.poller.epollfd fd = none := hset fd
    rw [hnone] at habsent
    cases habsent
  · intro k hmem
    cases hmem

end Step

/-! ### What a poll reports -/

/-- The events of `k` that the kernel has to report. -/
def pending (s : PollLoop κ) (k : κ) : EventMask :=
  s.readiness (s.registry.chan k).fd &&& ((s.registry.chan k).events ||| EPOLLERR ||| EPOLLHUP)

def Waiting (s : PollLoop κ) (k : κ) : Prop :=
  (s.registry.chan k).index = .kAdded ∧ s.pending k ≠ 0#32

instance (s : PollLoop κ) (k : κ) : Decidable (s.Waiting k) :=
  inferInstanceAs (Decidable (_ ∧ _))

/-- At most `n` channels are registered. -/
def AtMost (n : Nat) (s : PollLoop κ) : Prop :=
  ∀ channels : List κ, channels.Nodup →
    (∀ k ∈ channels, (s.registry.chan k).index = .kAdded) → channels.length ≤ n

section Reports

variable {s t : PollLoop κ} {k : κ}

omit [DecidableEq κ] in
theorem event_of_kAdded (h : s.Inv) (hadded : (s.registry.chan k).index = .kAdded) :
    s.event (s.registry.chan k).fd = some ⟨s.pending k, k⟩ := by
  rw [event, h.registry.coherent.registered k hadded]
  rfl

omit [DecidableEq κ] in
theorem Waiting.ready (h : s.Inv) (hwaits : s.Waiting k) : s.ready (s.registry.chan k).fd = true :=
  ready_iff.mpr ⟨_, event_of_kAdded h hwaits.1, hwaits.2⟩

omit [DecidableEq κ] in
theorem Waiting.queued (h : s.Inv) (hwaits : s.Waiting k) :
    (s.registry.chan k).fd ∈ s.readyList :=
  h.queued.complete _ (hwaits.ready h)

omit [DecidableEq κ] in
/-- A channel is in the answer when its descriptor is served. -/
theorem mem_answer_of_served (h : s.Inv) (hwaits : s.Waiting k)
    (hserved : (s.registry.chan k).fd ∈ (RoundRobin.serve s.ready s.events s.readyList).1) :
    k ∈ s.epollWait.2.map EpollEvent.ptr := by
  have hmem : (⟨s.pending k, k⟩ : EpollEvent κ) ∈ s.epollWait.2 :=
    List.mem_filterMap.mpr ⟨_, hserved, event_of_kAdded h hwaits.1⟩
  exact List.mem_map_of_mem hmem

/-- **What a poll reports.** In every run, each reported channel is registered, known to
`channels_`, reported once and with all its pending events, and nothing else of any channel changes.
A poll that does not fill `events_` reports every channel that has pending events, and one that does
doubles it. -/
theorem poll_reports (h : system.Reachable s) (hstep : system.step s .poll = some t) :
    t.activeChannels.Nodup ∧ t.activeChannels.length ≤ s.events ∧
      (∀ k ∈ t.activeChannels, s.Waiting k ∧
        t.registry.poller.hasChannel k (t.registry.chan k) = true ∧
        t.registry.chan k = { s.registry.chan k with revents := s.pending k }) ∧
      (∀ k, k ∉ t.activeChannels → t.registry.chan k = s.registry.chan k) ∧
      (t.activeChannels.length < s.events → ∀ k, s.Waiting k → k ∈ t.activeChannels) ∧
      t.events = if t.activeChannels.length = s.events then s.events * 2 else s.events := by
  have hinv := reachable_inv h
  have hdistinct := answer_distinct hinv
  obtain ⟨-, rfl⟩ := poll_step hinv hstep
  refine ⟨hdistinct, ?_, ?_, ?_, ?_, ?_⟩
  · rw [List.length_map, answer_length hinv]
    exact RoundRobin.length_serve_le
  · intro k hmem
    obtain ⟨e, he, rfl⟩ := List.mem_map.mp hmem
    obtain ⟨hadded, hne, hevent, -⟩ := mem_answer hinv he
    have hpending : s.pending e.ptr = e.events := by
      have hboth := (event_of_kAdded hinv hadded).symm.trans hevent
      exact congrArg EpollEvent.events (Option.some.inj hboth)
    have hafter := fillActiveChannels_of_mem s.registry.chan [] hdistinct he
    refine ⟨⟨hadded, by rw [hpending]; exact hne⟩, ?_, ?_⟩
    · have hmapped := hinv.registry.coherent.mapped e.ptr (by rw [hadded]; decide)
      dsimp only
      rw [hafter, EPollPoller.hasChannel, hmapped, beq_iff_eq]
    · dsimp only
      rw [hafter, hpending]
  · intro k hnot
    exact fillActiveChannels_of_notMem s.registry.chan [] hnot
  · intro hroom k hwaits
    by_contra hnot
    have hunserved : (s.registry.chan k).fd ∉
        (RoundRobin.serve s.ready s.events s.readyList).1 :=
      fun hserved => hnot (mem_answer_of_served hinv hwaits hserved)
    have hfull := RoundRobin.length_serve_of_passed (hwaits.ready hinv) (hwaits.queued hinv)
      hunserved
    rw [List.length_map, answer_length hinv, hfull] at hroom
    exact absurd hroom (Nat.lt_irrefl _)
  · rw [List.length_map]

/-- Data for one of two channels. -/
theorem poll_reports_readable :
    ∃ s t : PollLoop Bool,
      system.exec (new Registry.twoNew)
        [.channel (true, .enableReading), .channel (false, .enableReading), .become 7 EPOLLIN]
        = some s ∧
      system.step s .poll = some t ∧ t.activeChannels = [true] ∧
      t.registry.chan true = { s.registry.chan true with revents := s.pending true } := by
  refine ⟨_, _, rfl, rfl, rfl, ?_⟩
  have hreports := poll_reports ⟨new Registry.twoNew, [.channel (true, .enableReading),
    .channel (false, .enableReading), .become 7 EPOLLIN], ⟨_, Registry.init_twoNew, rfl⟩,
    System.run_of_exec rfl⟩ rfl
  exact (hreports.2.2.1 true (List.mem_singleton_self true)).2.2

omit [DecidableEq κ] in
/-- A full poll reports as many registered channels as `events_` has entries. -/
theorem events_le_of_full (h : s.Inv) {n : Nat} (hmost : s.AtMost n)
    (hfull : s.epollWait.2.length = s.events) : s.events ≤ n := by
  have hlength : (s.epollWait.2.map EpollEvent.ptr).length = s.events := by
    rw [List.length_map, hfull]
  rw [← hlength]
  refine hmost _ (answer_distinct h) ?_
  intro k hmem
  obtain ⟨e, he, rfl⟩ := List.mem_map.mp hmem
  exact (mem_answer h he).1

theorem Moves.events_eq {a : Action κ} (hmoves : Moves s a t) : t.events = s.events := by
  cases hmoves <;> rfl

theorem step_events_le {a : Action κ} {n : Nat} (h : s.Inv) (hmost : s.AtMost n)
    (hsize : s.events ≤ max kInitEventListSize (2 * n)) (hstep : system.step s a = some t) :
    t.events ≤ max kInitEventListSize (2 * n) := by
  by_cases hpoll : a = .poll
  · subst hpoll
    obtain ⟨-, rfl⟩ := poll_step h hstep
    dsimp only
    split
    · rename_i hfull
      have hroom := events_le_of_full h hmost hfull
      omega
    · exact hsize
  · rw [(moves_of_step hstep hpoll).events_eq]
    exact hsize

/-- **How far `events_` grows.** Its size is the initial one doubled some number of times, and never
more than twice the number of channels that were registered at once. -/
theorem events_bounded {n : Nat} (h : system.ReachableUnder (fun s _ => s.AtMost n) s) :
    (∃ m, s.events = kInitEventListSize * 2 ^ m) ∧
      s.events ≤ max kInitEventListSize (2 * n) := by
  have hboth : s.Inv ∧ s.events ≤ max kInitEventListSize (2 * n) := by
    refine h.invariant (I := fun s => s.Inv ∧ s.events ≤ max kInitEventListSize (2 * n)) ?_ ?_
    · rintro s hinit
      have hinv := reachable_inv ⟨s, [], hinit, .nil _⟩
      obtain ⟨registry, -, rfl⟩ := hinit
      exact ⟨hinv, Nat.le_max_left _ _⟩
    · intro s a t hs hmost hstep
      exact ⟨step_inv hs.1 hstep, step_events_le hs.1 hmost hs.2 hstep⟩
  exact ⟨hboth.1.size, hboth.2⟩

/-- Two channels never fill the list. -/
theorem events_bounded_two :
    ∃ s : PollLoop Bool,
      system.exec (new Registry.twoNew)
        [.channel (true, .enableReading), .become 7 EPOLLIN, .poll, .handleEvent] = some s ∧
      s.activeChannels = [] ∧ s.events ≤ max kInitEventListSize (2 * 2) := by
  have hmost : ∀ s : PollLoop Bool, s.AtMost 2 := fun s channels hdistinct _ =>
    hdistinct.length_le_card
  refine ⟨_, rfl, rfl, ?_⟩
  exact (events_bounded ⟨_, [.channel (true, .enableReading), .become 7 EPOLLIN, .poll,
    .handleEvent], ⟨_, Registry.init_twoNew, rfl⟩,
    System.runUnder_of_exec (fun _ _ s => hmost s) rfl⟩).2

end Reports

end PollLoop

end MuduoCore
