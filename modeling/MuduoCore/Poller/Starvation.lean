import MuduoCore.Poller.Poll

/-!
# No channel starves

A channel whose events stay pending is passed over only by polls that are full. Such a poll moves it
forward in the kernel's queue by the whole of `events_`, and doubles `events_` for the next one. So
the number of polls that can pass it over is logarithmic in the number of descriptors before it.
-/

namespace MuduoCore.PollLoop

variable {κ : Type*} [DecidableEq κ]

/-- What happened: a poll with the channels it reported, or the call of a channel's
`handleEvent`. -/
inductive Past (κ : Type*) where
  | polled (report : List κ)
  | handled (channel : κ)
  deriving DecidableEq

def record (s : PollLoop κ) : Action κ → PollLoop κ → List (Past κ)
  | .poll, t => [.polled t.activeChannels]
  | .handleEvent, _ => (s.activeChannels.take 1).map .handled
  | _, _ => []

def reports (past : List (Past κ)) : List (List κ) :=
  past.filterMap fun entry => match entry with
    | .polled report => some report
    | .handled _ => none

def handled (past : List (Past κ)) : List κ :=
  past.filterMap fun entry => match entry with
    | .polled _ => none
    | .handled channel => some channel

section Step

variable {s t : PollLoop κ} {k : κ} {a : Action κ}

theorem Moves.fd_eq (h : s.Inv) (hmoves : Moves s a t) :
    (t.registry.chan k).fd = (s.registry.chan k).fd := by
  cases hmoves with
  | channel hop hqueue => exact (registry_step h.registry hop).2.1 k
  | _ => rfl

theorem step_fd (h : s.Inv) (hstep : system.step s a = some t) :
    (t.registry.chan k).fd = (s.registry.chan k).fd := by
  by_cases hpoll : a = .poll
  · subst hpoll
    obtain ⟨-, rfl⟩ := poll_step h hstep
    obtain ⟨mask, heq⟩ := fillActiveChannels_sameBut s.registry.chan [] s.epollWait.2 k
    dsimp only
    rw [heq]
  · exact (moves_of_step hstep hpoll).fd_eq h

/-- Between two polls nothing gets ahead of a channel that waits. -/
theorem Moves.place (h : s.Inv) (hmoves : Moves s a t) (ht : t.Inv) (hwaits : s.Waiting k)
    (hstill : t.Waiting k) :
    t.readyList.idxOf (s.registry.chan k).fd ≤ s.readyList.idxOf (s.registry.chan k).fd := by
  have hmem := hwaits.queued h
  have hregistered : t.registry.poller.epollfd (s.registry.chan k).fd ≠ none := by
    rw [← hmoves.fd_eq h]
    exact ht.queued.registered _ (hstill.queued ht)
  cases hmoves with
  | become hqueue =>
      rw [← hqueue]
      exact idxOf_requeue_le hmem hregistered
  | channel hop hqueue =>
      rw [← hqueue]
      exact idxOf_requeue_le hmem hregistered
  | pollFails => exact Nat.le_refl _
  | handleEvent hactive => exact Nat.le_refl _

/-- A poll that passes a waiting channel over is full. -/
theorem poll_place (h : s.Inv) (hwaits : s.Waiting k) (hstep : system.step s .poll = some t)
    (hpassed : k ∉ t.activeChannels) :
    t.events = s.events * 2 ∧
      t.readyList.idxOf (s.registry.chan k).fd + s.events ≤
        s.readyList.idxOf (s.registry.chan k).fd := by
  have hready := hwaits.ready h
  have hmem := hwaits.queued h
  obtain ⟨-, rfl⟩ := poll_step h hstep
  have hunserved : (s.registry.chan k).fd ∉
      (RoundRobin.serve s.ready s.events s.readyList).1 :=
    fun hserved => hpassed (mem_answer_of_served h hwaits hserved)
  have hfull : s.epollWait.2.length = s.events := by
    rw [answer_length h]
    exact RoundRobin.length_serve_of_passed hready hmem hunserved
  refine ⟨?_, RoundRobin.idxOf_rotate_add hready hmem hunserved⟩
  dsimp only
  rw [if_pos hfull]

/-- What a step calls and leaves to be called is what was to be called and what it reports. -/
theorem step_dispatch (h : s.Inv) (hstep : system.step s a = some t) :
    handled (record s a t) ++ t.activeChannels =
      s.activeChannels ++ (reports (record s a t)).flatten := by
  by_cases hpoll : a = .poll
  · subst hpoll
    obtain ⟨hidle, rfl⟩ := poll_step h hstep
    rw [hidle]
    exact (List.append_nil _).symm
  · cases moves_of_step hstep hpoll with
    | handleEvent hactive =>
        rw [record, hactive]
        exact (List.append_nil _).symm
    | _ => exact (List.append_nil s.activeChannels).symm

omit [DecidableEq κ] in
theorem reports_record (hpoll : a ≠ .poll) : reports (record s a t) = [] := by
  cases a with
  | poll => exact absurd rfl hpoll
  | handleEvent =>
      rw [record]
      cases s.activeChannels <;> rfl
  | _ => rfl

end Step

/-- Where a channel stands that waits since `s` and has not been reported yet. -/
structure PassedOver (s t : PollLoop κ) (k : κ) (polls : Nat) : Prop where
  events : t.events = s.events * 2 ^ polls
  behind : s.events * (2 ^ polls - 1) ≤ s.readyList.idxOf (s.registry.chan k).fd
  place : t.Waiting k → t.readyList.idxOf (s.registry.chan k).fd + s.events * (2 ^ polls - 1) ≤
    s.readyList.idxOf (s.registry.chan k).fd

theorem PassedOver.poll {s t u : PollLoop κ} {k : κ} {polls : Nat} (h : PassedOver s t k polls)
    (ht : t.Inv) (hwaits : t.Waiting k) (hfd : (t.registry.chan k).fd = (s.registry.chan k).fd)
    (hstep : system.step t .poll = some u) (hpassed : k ∉ u.activeChannels) :
    PassedOver s u k (polls + 1) := by
  obtain ⟨hevents, hplace⟩ := poll_place ht hwaits hstep hpassed
  rw [hfd] at hplace
  have hbefore := h.place hwaits
  have hsum : s.events * (2 ^ (polls + 1) - 1) = t.events + s.events * (2 ^ polls - 1) := by
    have hpos := Nat.two_pow_pos polls
    calc s.events * (2 ^ (polls + 1) - 1)
        = s.events * (2 ^ polls + (2 ^ polls - 1)) := by congr 1; omega
      _ = s.events * 2 ^ polls + s.events * (2 ^ polls - 1) := Nat.mul_add _ _ _
      _ = t.events + s.events * (2 ^ polls - 1) := by rw [h.events]
  refine ⟨?_, by omega, fun _ => by omega⟩
  rw [hevents, h.events, Nat.pow_succ, Nat.mul_assoc]

/-- What is known of a run from `s` through states in which `k` waits. -/
structure Tracks (s : PollLoop κ) (k : κ) (v : PollLoop κ × List (Past κ)) : Prop where
  inv : v.1.Inv
  fd_eq : (v.1.registry.chan k).fd = (s.registry.chan k).fd
  dispatched : handled v.2 ++ v.1.activeChannels = s.activeChannels ++ (reports v.2).flatten
  passed : k ∈ (reports v.2).flatten ∨ PassedOver s v.1 k (reports v.2).length

theorem Tracks.step {s : PollLoop κ} {k : κ} {v w : PollLoop κ × List (Past κ)} {a : Action κ}
    (h : Tracks s k v) (hwaits : v.1.Waiting k)
    (hstep : (system.recording record).step v a = some w) : Tracks s k w := by
  obtain ⟨hstep, hpast⟩ := System.recording_step hstep
  have hreports : reports w.2 = reports v.2 ++ reports (record v.1 a w.1) := by
    rw [hpast]
    exact List.filterMap_append
  have hhandled : handled w.2 = handled v.2 ++ handled (record v.1 a w.1) := by
    rw [hpast]
    exact List.filterMap_append
  refine ⟨step_inv h.inv hstep, (step_fd h.inv hstep).trans h.fd_eq, ?_, ?_⟩
  · calc handled w.2 ++ w.1.activeChannels
        = handled v.2 ++ (handled (record v.1 a w.1) ++ w.1.activeChannels) := by
          rw [hhandled, List.append_assoc]
      _ = (handled v.2 ++ v.1.activeChannels) ++ (reports (record v.1 a w.1)).flatten := by
          rw [step_dispatch h.inv hstep, List.append_assoc]
      _ = s.activeChannels ++ (reports w.2).flatten := by
          rw [h.dispatched, hreports, List.flatten_append, List.append_assoc]
  · rcases h.passed with hreported | hpassed
    · left
      rw [hreports, List.flatten_append]
      exact List.mem_append_left _ hreported
    · by_cases hpoll : a = .poll
      · subst hpoll
        have hone : reports (record v.1 .poll w.1) = [w.1.activeChannels] := rfl
        rw [hone] at hreports
        by_cases hmem : k ∈ w.1.activeChannels
        · left
          rw [hreports, List.flatten_append]
          exact List.mem_append_right _ (by simpa using hmem)
        · right
          rw [hreports, List.length_append]
          exact hpassed.poll h.inv hwaits h.fd_eq hstep hmem
      · right
        rw [hreports, reports_record hpoll, List.append_nil]
        have hmoves := moves_of_step hstep hpoll
        refine ⟨hmoves.events_eq.trans hpassed.events, hpassed.behind, ?_⟩
        intro hstill
        have hplace := hmoves.place h.inv (step_inv h.inv hstep) hwaits hstill
        rw [h.fd_eq] at hplace
        exact (Nat.add_le_add_right hplace _).trans (hpassed.place hwaits)

/-- **No channel starves.** A channel that waits throughout a run has had its `handleEvent` called
once the reports of the run are dispatched and the polls are more than the binary logarithm of the
kernel's queue, counted in sizes of `events_`. -/
theorem not_starved {s t : PollLoop κ} {k : κ} {as : List (Action κ)} {past : List (Past κ)}
    (h : system.Reachable s) (hwaits : s.Waiting k)
    (hrun : (system.recording record).RunUnder (fun v _ => v.1.Waiting k) (s, []) as (t, past))
    (hdispatched : t.activeChannels = [])
    (hpolls : s.readyList.length ≤ s.events * (2 ^ (reports past).length - 1)) :
    k ∈ handled past := by
  have hinv := reachable_inv h
  have hstart : Tracks s k (s, []) :=
    ⟨hinv, rfl, (List.append_nil s.activeChannels).symm, .inr ⟨(Nat.mul_one _).symm, Nat.zero_le _,
      fun _ => Nat.le_refl _⟩⟩
  have htracks : Tracks s k (t, past) :=
    hrun.invariant (I := Tracks s k) hstart fun _ _ _ hv hwaits hstep => hv.step hwaits hstep
  have hcalled : handled past = s.activeChannels ++ (reports past).flatten := by
    rw [← htracks.dispatched, hdispatched, List.append_nil]
  rw [hcalled]
  refine List.mem_append_right _ (htracks.passed.resolve_right fun hpassed => ?_)
  have hplace := List.idxOf_lt_length_of_mem (hwaits.queued hinv)
  exact absurd (hplace.trans_le (hpolls.trans hpassed.behind)) (Nat.lt_irrefl _)

/-- Two channels with pending events. -/
def twoReady : PollLoop Bool :=
  (system.exec (new Registry.twoNew) [.channel (true, .enableReading),
    .channel (false, .enableReading), .become 5 EPOLLIN, .become 7 EPOLLIN]).getD
      (new Registry.twoNew)

/-- One poll is enough for two channels. -/
theorem not_starved_two :
    ∃ v : PollLoop Bool × List (Past Bool),
      (system.recording record).exec (twoReady, [])
        [.poll, .handleEvent, .become 5 0#32, .handleEvent] = some v ∧
      (v.1.activeChannels = [] ∧ (reports v.2).length = 1) ∧ true ∈ handled v.2 := by
  have hreach : system.Reachable twoReady :=
    ⟨new Registry.twoNew, [.channel (true, .enableReading), .channel (false, .enableReading),
      .become 5 EPOLLIN, .become 7 EPOLLIN], ⟨_, Registry.init_twoNew, rfl⟩, System.run_of_exec rfl⟩
  apply System.exists_execUnder fun v _ => v.1.Waiting true
  · exact ⟨_, rfl, rfl, rfl⟩
  · rintro ⟨t, past⟩ hexec ⟨hdispatched, hpolls⟩
    refine not_starved hreach ⟨rfl, by decide⟩ (System.runUnder_of_execUnder hexec) hdispatched ?_
    rw [hpolls]
    decide

end MuduoCore.PollLoop
