import MuduoCore.TcpConnection.FileShutdown
import MuduoCore.TcpConnection.Notifications

/-!
# How a file ends

`sendFileInLoop` queues itself for the rest of its range until nothing is left or the socket is gone.
It looks at the count alone: a call of `::sendfile` that moved nothing, be it at the end of the file
or for an errno other than `EPIPE` and `ECONNRESET`, leaves the count as it was.
-/

namespace MuduoCore

variable {κ : Type*}

def Task.fileRequest : Task → Option (Nat × Nat)
  | sendFileInLoop _ offset count => some (offset, count)
  | _ => none

/-- A connection and the offset and count of the `sendFileInLoop` that runs next, if one does. -/
structure FileChain (κ : Type*) where
  session : Session κ
  next : Option (Nat × Nat)

namespace FileChain

/-- The loop swaps its functors and runs `sendFileInLoop`; what that queues runs in a later round. -/
def execute (file : Nat → List Byte) (fileDescriptor : Nat) (chain : FileChain κ)
    (answer : Except Errno Nat) : FileChain κ :=
  match chain.next with
  | none => chain
  | some (offset, count) =>
      let swapped := { chain.session with pendingFunctors := [] }
      let after := swapped.sendFileInLoop file fileDescriptor offset count answer
      { session := after, next := after.pendingFunctors.findSome? Task.fileRequest }

/-- The chain after `m` executions, the `i`-th of them with the answer `answers i` of `::sendfile`. -/
def run (file : Nat → List Byte) (fileDescriptor : Nat) (start : FileChain κ)
    (answers : Nat → Except Errno Nat) : Nat → FileChain κ
  | 0 => start
  | m + 1 => (run file fileDescriptor start answers m).execute file fileDescriptor (answers m)

end FileChain

/-- The bytes that the socket is ready to take. -/
def accepts : Except Errno Nat → Nat
  | .ok n => n
  | .error _ => 0

/-- An errno other than `EAGAIN` and `EWOULDBLOCK`. -/
def Fails : Except Errno Nat → Prop
  | .ok _ => False
  | .error errno => errno ≠ EAGAIN ∧ errno ≠ EWOULDBLOCK

def FailsFatally : Except Errno Nat → Prop
  | .ok _ => False
  | .error errno => IsFatal errno

instance : DecidablePred Fails
  | .ok _ => inferInstanceAs (Decidable False)
  | .error _ => inferInstanceAs (Decidable (_ ∧ _))

instance : DecidablePred FailsFatally
  | .ok _ => inferInstanceAs (Decidable False)
  | .error errno => inferInstanceAs (Decidable (IsFatal errno))

theorem FailsFatally.fails {answer : Except Errno Nat} (h : FailsFatally answer) : Fails answer := by
  cases answer with
  | ok n => exact h
  | error errno => constructor <;> rcases h with rfl | rfl <;> decide

/-- The bytes that the socket is ready to take in the first `m` calls. -/
def granted (answers : Nat → Except Errno Nat) : Nat → Nat
  | 0 => 0
  | m + 1 => granted answers m + accepts (answers m)

/-- A call that neither moves a byte nor fails is one that is told to come back. -/
theorem accepts_pos {answer : Except Errno Nat} (hprogress : answer ≠ .ok 0)
    (hagain : answer ≠ .error EAGAIN) (hfails : ¬Fails answer) : 0 < accepts answer := by
  cases answer with
  | ok n =>
      apply Nat.pos_of_ne_zero
      rintro rfl
      exact hprogress rfl
  | error errno =>
      exact absurd ⟨fun heq => hagain (by rw [heq]), fun heq => hagain (by rw [heq]; rfl)⟩ hfails

/-- Where `EAGAIN` comes finitely often and nothing fails, the socket takes any number of bytes. -/
theorem granted_unbounded {answers : Nat → Except Errno Nat} (hprogress : ∀ i, answers i ≠ .ok 0)
    {N : Nat} (hagain : ∀ i, N ≤ i → answers i ≠ .error EAGAIN) (hfails : ∀ i, ¬Fails (answers i))
    (k : Nat) : k ≤ granted answers (N + k) := by
  induction k with
  | zero => exact Nat.zero_le _
  | succ k ih =>
      have hpos := accepts_pos (hprogress (N + k)) (hagain (N + k) (Nat.le_add_right _ _))
        (hfails (N + k))
      have hstep : granted answers (N + (k + 1)) = granted answers (N + k) + accepts (answers (N + k)) :=
        rfl
      omega

/-! ### One execution -/

namespace Session

/-- The bytes that one call of `::sendfile` moves: no more than asked for, and none behind the end of
the file. -/
def moved (length offset count : Nat) (answer : Except Errno Nat) : Nat :=
  min (min (accepts answer) count) (length - offset)

variable {s : Session κ}

/-- What `sendFileInLoop` makes of its range on an idle connection: it moves what it can, and comes
back for the rest unless the socket is gone. -/
theorem sendFileInLoop_chain (file : Nat → List Byte) (fileDescriptor offset count : Nat)
    (answer : Except Errno Nat) (hstate : s.conn.state = .kConnected)
    (hdirect : s.mayWriteDirectly = true) (hpending : s.pendingFunctors = []) :
    let after := s.sendFileInLoop file fileDescriptor offset count answer
    let sent := moved (file fileDescriptor).length offset count answer
    (sentBytes after.trace).length = (sentBytes s.trace).length + sent ∧
      after.pendingFunctors.findSome? Task.fileRequest =
        if FailsFatally answer ∨ count ≤ sent then none else some (offset + sent, count - sent) := by
  have hopen : s.conn.state ≠ .kDisconnecting := by rw [hstate]; decide
  cases answer with
  | ok n =>
      have hlength : (slice (file fileDescriptor) offset (min n count)).length
          = moved (file fileDescriptor).length offset count (.ok n) := by
        simp only [slice, List.length_take, List.length_drop, moved, accepts]
      refine ⟨?_, ?_⟩
      · simp [sendFileInLoop, hopen, hdirect, sentBytes, Event.sentBytes, hlength]
      · set sent := moved (file fileDescriptor).length offset count (.ok n)
        by_cases hdone : count ≤ sent
        · have hzero : count - sent = 0 := Nat.sub_eq_zero_of_le hdone
          cases hcallback : s.conn.writeCompleteCallback <;>
            simp [sendFileInLoop, hopen, hdirect, hlength, hdone, hzero, hpending, hcallback,
              queueWhen, queueInLoop, emit, Task.fileRequest]
        · have hleft : 0 < count - sent := by omega
          simp [sendFileInLoop, hopen, hdirect, hlength, hdone, hleft, hleft.ne', hpending,
            queueWhen, queueInLoop, emit, Task.fileRequest, FailsFatally]
  | error errno =>
      have hnone : moved (file fileDescriptor).length offset count (.error errno) = 0 := by
        simp [moved, accepts]
      rw [hnone]
      by_cases hfault : errno = EPIPE ∨ errno = ECONNRESET
      · have hfatal : FailsFatally (.error errno) := hfault
        simp [sendFileInLoop, hopen, hdirect, hfault, hfatal, queueWhen, sentBytes, Event.sentBytes,
          hpending]
      · have hsoft : ¬FailsFatally (.error errno) := hfault
        by_cases hdone : count = 0
        · simp [sendFileInLoop, hopen, hdirect, hfault, hdone, queueWhen, sentBytes,
            Event.sentBytes, hpending]
        · have hleft : 0 < count := Nat.pos_of_ne_zero hdone
          simp [sendFileInLoop, hopen, hdirect, hfault, hsoft, hdone, hleft, queueWhen, queueInLoop,
            emit, sentBytes, Event.sentBytes, hpending, Task.fileRequest]

end Session

/-! ### The whole chain -/

/-- What is asked of the chain: it stops with the call after which the range, as far as it lies in
the file, is sent, or that fails first; and it does stop. -/
structure ChainEnds (chain : Nat → FileChain κ) (answers : Nat → Except Errno Nat) (range : Nat) :
    Prop where
  stops_iff : ∀ m, (chain m).next ≠ none →
    ((chain (m + 1)).next = none ↔
      (sentBytes (chain (m + 1)).session.trace).length
          = (sentBytes (chain 0).session.trace).length + range ∨
        Fails (answers m))
  finite : ∃ m, (chain m).next = none

/-- The whole range is accepted before any call fails. -/
def Gets (answers : Nat → Except Errno Nat) (range : Nat) : Prop :=
  ∃ m, 0 < m ∧ (∀ i < m, ¬Fails (answers i)) ∧ range ≤ granted answers m

/-- A call fails while part of the range is still to be accepted, and this is the first to fail. -/
def FailsAt (answers : Nat → Except Errno Nat) (range m : Nat) : Prop :=
  Fails (answers m) ∧ (∀ i < m, ¬Fails (answers i)) ∧ (m = 0 ∨ granted answers m < range)

section Chain

variable {file : Nat → List Byte} {fileDescriptor offset count : Nat} {s : Session κ}
  {answers : Nat → Except Errno Nat}

/-- The part of the range that lies in the file. -/
def inFile (file : Nat → List Byte) (fileDescriptor offset count : Nat) : Nat :=
  min count ((file fileDescriptor).length - offset)

/-- What is left of the range behind its first `sent` bytes. -/
theorem moved_rest (sent : Nat) (answer : Except Errno Nat) :
    Session.moved (file fileDescriptor).length (offset + sent) (count - sent) answer
      = min (accepts answer) (inFile file fileDescriptor offset count - sent) := by
  rw [Session.moved, inFile, min_assoc, ← Nat.sub_sub, ← Nat.sub_min_sub_right]

/-- Where the chain stands once `granted` bytes were granted: all of them are sent, as far as there
is something to send. -/
structure Stands (s : Session κ) (offset count granted range : Nat) (chain : FileChain κ) : Prop where
  conn_eq : chain.session.conn = s.conn
  sent_eq : (sentBytes chain.session.trace).length
    = (sentBytes s.trace).length + min granted range
  next_eq : chain.next ≠ none →
    chain.next = some (offset + min granted range, count - min granted range)

theorem Stands.execute {g : Nat} {chain : FileChain κ}
    (h : Stands s offset count g (inFile file fileDescriptor offset count) chain)
    (hnext : chain.next ≠ none) (hstate : s.conn.state = .kConnected)
    (hdirect : s.mayWriteDirectly = true) (answer : Except Errno Nat) :
    Stands s offset count (g + accepts answer) (inFile file fileDescriptor offset count)
        (chain.execute file fileDescriptor answer) ∧
      ((chain.execute file fileDescriptor answer).next = none ↔ FailsFatally answer ∨
        count ≤ min (g + accepts answer) (inFile file fileDescriptor offset count)) := by
  set range := inFile file fileDescriptor offset count with hrange
  set offset' := offset + min g range with hoffset
  set count' := count - min g range with hcount
  set swapped : Session κ := { chain.session with pendingFunctors := [] } with hswapped
  have hconn : swapped.conn = s.conn := h.conn_eq
  have hidle : swapped.mayWriteDirectly = true := by
    simpa only [Session.mayWriteDirectly, hconn] using hdirect
  obtain ⟨hsent, hqueued⟩ := Session.sendFileInLoop_chain file fileDescriptor offset' count' answer
    (s := swapped) (by rw [hconn, hstate]) hidle rfl
  set after := swapped.sendFileInLoop file fileDescriptor offset' count' answer with hafter
  have hexecute : chain.execute file fileDescriptor answer
      = ⟨after, after.pendingFunctors.findSome? Task.fileRequest⟩ := by
    rw [FileChain.execute, h.next_eq hnext]
  -- the bytes granted so far, and what this call adds to them
  have hadd : min g range + Session.moved (file fileDescriptor).length offset' count' answer
      = min (g + accepts answer) range := by
    rw [moved_rest]
    omega
  have hdone : count' ≤ Session.moved (file fileDescriptor).length offset' count' answer ↔
      count ≤ min (g + accepts answer) range := by
    rw [← hadd]
    omega
  rw [hexecute]
  refine ⟨⟨?_, ?_, ?_⟩, ?_⟩
  · rw [hafter, Session.sendFileInLoop_conn, hconn]
  · have hbefore : (sentBytes swapped.trace).length
        = (sentBytes s.trace).length + min g range := h.sent_eq
    rw [hsent, hbefore, ← hadd, Nat.add_assoc]
  · intro hmore
    simp only [hqueued] at hmore ⊢
    split at hmore
    · exact absurd rfl hmore
    · rename_i hgoes
      rw [if_neg hgoes, ← hadd, hoffset, hcount, Nat.add_assoc, Nat.sub_sub]
  · simp only [hqueued, ← hdone]
    split <;> simp_all

theorem run_next_none {start : FileChain κ} {m : Nat}
    (hstopped : (start.run file fileDescriptor answers m).next = none) :
    (start.run file fileDescriptor answers (m + 1)).next = none := by
  rw [FileChain.run, FileChain.execute, hstopped]
  exact hstopped

/-- The chain that a `sendFile` of `count` bytes from `offset` on starts. -/
def fileChain (file : Nat → List Byte) (fileDescriptor offset count : Nat) (s : Session κ)
    (answers : Nat → Except Errno Nat) (m : Nat) : FileChain κ :=
  FileChain.run file fileDescriptor ⟨s, some (offset, count)⟩ answers m

variable (hstate : s.conn.state = .kConnected) (hdirect : s.mayWriteDirectly = true)

include hstate hdirect

theorem stands_fileChain {m : Nat}
    (hrunning : (fileChain file fileDescriptor offset count s answers m).next ≠ none) :
    Stands s offset count (granted answers m) (inFile file fileDescriptor offset count)
      (fileChain file fileDescriptor offset count s answers m) := by
  induction m with
  | zero =>
      refine ⟨rfl, ?_, fun _ => ?_⟩
      · simp [fileChain, FileChain.run, granted]
      · simp [fileChain, FileChain.run, granted]
  | succ m ih =>
      have hbefore := mt run_next_none hrunning
      exact ((ih hbefore).execute hbefore hstate hdirect (answers m)).1

/-- What one more execution of a chain that is not over leaves. -/
theorem fileChain_succ {m : Nat}
    (hrunning : (fileChain file fileDescriptor offset count s answers m).next ≠ none) :
    (sentBytes (fileChain file fileDescriptor offset count s answers (m + 1)).session.trace).length
        = (sentBytes s.trace).length
          + min (granted answers (m + 1)) (inFile file fileDescriptor offset count) ∧
      ((fileChain file fileDescriptor offset count s answers (m + 1)).next = none ↔
        FailsFatally (answers m) ∨
          count ≤ min (granted answers (m + 1)) (inFile file fileDescriptor offset count)) := by
  obtain ⟨hstands, hnext⟩ :=
    (stands_fileChain hstate hdirect hrunning).execute hrunning hstate hdirect (answers m)
  exact ⟨hstands.sent_eq, hnext⟩

omit hstate hdirect in
theorem inFile_le_count : inFile file fileDescriptor offset count ≤ count := Nat.min_le_left _ _

/-- Until the range is accepted or a call fails, the chain goes on. -/
theorem runs_until {m : Nat} (hclean : ∀ i < m, ¬Fails (answers i))
    (hpart : m = 0 ∨ granted answers m < inFile file fileDescriptor offset count) :
    (fileChain file fileDescriptor offset count s answers m).next ≠ none := by
  induction m with
  | zero => simp [fileChain, FileChain.run]
  | succ m ih =>
      have hlt : granted answers (m + 1) < inFile file fileDescriptor offset count :=
        hpart.resolve_left (Nat.succ_ne_zero m)
      have hle : granted answers m ≤ granted answers (m + 1) := Nat.le_add_right _ _
      have hrunning := ih (fun i hi => hclean i (Nat.lt_succ_of_lt hi)) (.inr (by omega))
      have hcount : inFile file fileDescriptor offset count ≤ count := inFile_le_count
      rw [Ne, (fileChain_succ hstate hdirect hrunning).2]
      rintro (hfatal | hdone)
      · exact hclean m (Nat.lt_succ_self m) hfatal.fails
      · omega

omit hstate hdirect in
theorem accepts_of_fails {answer : Except Errno Nat} (h : Fails answer) : accepts answer = 0 := by
  cases answer with
  | ok n => exact h.elim
  | error errno => rfl

/-- The range lies in the file unless a call fails before, and the call that fails before is one for
which the socket is gone. -/
def StopsInTime (file : Nat → List Byte) (fileDescriptor offset count : Nat)
    (answers : Nat → Except Errno Nat) : Prop :=
  (Gets answers (inFile file fileDescriptor offset count) →
    count ≤ (file fileDescriptor).length - offset) ∧
  ∀ m, FailsAt answers (inFile file fileDescriptor offset count) m →
    count = 0 ∨ FailsFatally (answers m)

theorem stopsInTime_of_chainEnds
    (h : ChainEnds (fileChain file fileDescriptor offset count s answers) answers
      (inFile file fileDescriptor offset count)) :
    StopsInTime file fileDescriptor offset count answers := by
  set range := inFile file fileDescriptor offset count with hrange
  refine ⟨?_, ?_⟩
  · intro hgets
    -- the first call after which the range is accepted
    classical
    have hex : ∃ m, 0 < m ∧ range ≤ granted answers m := by
      obtain ⟨m, hpos, -, hall⟩ := hgets
      exact ⟨m, hpos, hall⟩
    obtain ⟨hpos, hall⟩ := Nat.find_spec hex
    obtain ⟨k, hk⟩ : ∃ k, Nat.find hex = k + 1 := Nat.exists_eq_succ_of_ne_zero hpos.ne'
    rw [hk] at hall
    obtain ⟨m, hmpos, hclean, hmall⟩ := hgets
    have hkm : k + 1 ≤ m := hk ▸ Nat.find_min' hex ⟨hmpos, hmall⟩
    have hpart : k = 0 ∨ granted answers k < range := by
      by_contra hnot
      push Not at hnot
      have hearlier := Nat.find_min hex (m := k) (by omega)
      exact hearlier ⟨Nat.pos_of_ne_zero hnot.1, hnot.2⟩
    have hrunning := runs_until hstate hdirect (fun i hi => hclean i (by omega)) hpart
    obtain ⟨hsent, hnext⟩ := fileChain_succ hstate hdirect hrunning
    have hstopped := (h.stops_iff k hrunning).mpr (.inl (by rw [hsent, min_eq_right hall]; rfl))
    rcases hnext.mp hstopped with hfatal | hdone
    · exact absurd hfatal.fails (hclean k (by omega))
    · simp only [inFile] at hdone
      omega
  · rintro m ⟨hfails, hclean, hpart⟩
    have hrunning := runs_until hstate hdirect hclean hpart
    have hstopped := (h.stops_iff m hrunning).mpr (.inr hfails)
    rcases (fileChain_succ hstate hdirect hrunning).2.mp hstopped with hfatal | hdone
    · exact .inr hfatal
    · left
      have hcount : range ≤ count := inFile_le_count
      have hgranted : granted answers (m + 1) = granted answers m := by
        rw [granted, accepts_of_fails hfails, Nat.add_zero]
      rw [hgranted] at hdone
      rcases hpart with rfl | hlt
      · simp only [granted] at hdone
        omega
      · omega

/-- In time: a chain that still runs has met no failure and has part of the range before it. -/
theorem clean_of_running (h : StopsInTime file fileDescriptor offset count answers) {m : Nat}
    (hrunning : (fileChain file fileDescriptor offset count s answers m).next ≠ none) :
    (∀ i < m, ¬Fails (answers i)) ∧
      (m = 0 ∨ granted answers m < inFile file fileDescriptor offset count) := by
  induction m with
  | zero => exact ⟨fun i hi => absurd hi (Nat.not_lt_zero i), .inl rfl⟩
  | succ m ih =>
      have hbefore := mt run_next_none hrunning
      obtain ⟨hclean, hpart⟩ := ih hbefore
      have hnext := (fileChain_succ hstate hdirect hbefore).2
      have hsoft : ¬Fails (answers m) := by
        intro hfails
        apply hrunning
        rw [fileChain] at hnext
        apply hnext.mpr
        rcases h.2 m ⟨hfails, hclean, hpart⟩ with hzero | hfatal
        · exact .inr (by omega)
        · exact .inl hfatal
      have hall : ∀ i < m + 1, ¬Fails (answers i) := by
        intro i hi
        rcases Nat.lt_succ_iff_lt_or_eq.mp hi with hlt | rfl
        · exact hclean i hlt
        · exact hsoft
      refine ⟨hall, .inr ?_⟩
      by_contra hreached
      have hlies := h.1 ⟨m + 1, Nat.succ_pos m, hall, Nat.le_of_not_lt hreached⟩
      apply hrunning
      apply hnext.mpr
      right
      simp only [inFile] at hreached ⊢
      omega

theorem chainEnds_of_stopsInTime (h : StopsInTime file fileDescriptor offset count answers)
    (hprogress : ∀ i, answers i ≠ .ok 0) {N : Nat} (hagain : ∀ i, N ≤ i → answers i ≠ .error EAGAIN) :
    ChainEnds (fileChain file fileDescriptor offset count s answers) answers
      (inFile file fileDescriptor offset count) := by
  set range := inFile file fileDescriptor offset count with hrange
  refine ⟨?_, ?_⟩
  · intro m hrunning
    obtain ⟨hclean, hpart⟩ := clean_of_running hstate hdirect h hrunning
    obtain ⟨hsent, hnext⟩ := fileChain_succ hstate hdirect hrunning
    have hfailed : Fails (answers m) →
        (fileChain file fileDescriptor offset count s answers (m + 1)).next = none := by
      intro hfails
      apply hnext.mpr
      rcases h.2 m ⟨hfails, hclean, hpart⟩ with hzero | hfatal
      · exact .inr (by omega)
      · exact .inl hfatal
    constructor
    · intro hstopped
      rcases hnext.mp hstopped with hfatal | hdone
      · exact .inr hfatal.fails
      · left
        have hcount : range ≤ count := inFile_le_count
        rw [hsent]
        have hmin : min (granted answers (m + 1)) range = range := by omega
        rw [hmin]
        rfl
    · rintro (hall | hfails)
      · by_cases hfails : Fails (answers m)
        · exact hfailed hfails
        · have hreached : range ≤ granted answers (m + 1) := by
            have hstart : (sentBytes (fileChain file fileDescriptor offset count s answers
              0).session.trace).length = (sentBytes s.trace).length := rfl
            omega
          have hnone : ∀ i < m + 1, ¬Fails (answers i) := by
            intro i hi
            rcases Nat.lt_succ_iff_lt_or_eq.mp hi with hlt | rfl
            · exact hclean i hlt
            · exact hfails
          have hlies := h.1 ⟨m + 1, Nat.succ_pos m, hnone, hreached⟩
          apply hnext.mpr
          right
          simp only [hrange, inFile] at hreached ⊢
          omega
      · exact hfailed hfails
  · by_contra hnever
    push Not at hnever
    have hclean := fun m => clean_of_running hstate hdirect h (hnever m)
    have hgrows := granted_unbounded hprogress hagain
      (fun i => (hclean (i + 1)).1 i (Nat.lt_succ_self i)) (range + 1)
    have hpart := (hclean (N + (range + 1))).2
    omega

end Chain

theorem direct_of_reachable {file : Nat → List Byte} {r : Running κ}
    (h : (Running.system file).Reachable r) (hstate : r.session.conn.state = .kConnected)
    (hempty : r.session.conn.outputBuffer.content = []) : r.session.mayWriteDirectly = true := by
  have hwaits := Running.waitsForRoom_of_reachable h (by rw [hstate]; decide)
  refine (Session.mayWriteDirectly_iff _).mpr ⟨?_, hempty⟩
  rw [← Bool.not_eq_true, hwaits]
  exact fun hne => hne hempty

/-- **When `sendFile` ends.** On a connection that stays connected with nothing else to write, the
chain stops when the range is sent or at the first failure exactly when the range lies in the file,
unless a call fails first, and that failure is `EPIPE` or `ECONNRESET`. -/
theorem chainEnds_iff_stopsInTime {file : Nat → List Byte} {r : Running κ}
    (h : (Running.system file).Reachable r) (hstate : r.session.conn.state = .kConnected)
    (hempty : r.session.conn.outputBuffer.content = []) (fileDescriptor offset count : Nat)
    {answers : Nat → Except Errno Nat} (hprogress : ∀ i, answers i ≠ .ok 0)
    (hagain : ∃ N, ∀ i, N ≤ i → answers i ≠ .error EAGAIN) :
    ChainEnds (fileChain file fileDescriptor offset count r.session answers) answers
        (inFile file fileDescriptor offset count) ↔
      StopsInTime file fileDescriptor offset count answers := by
  have hdirect := direct_of_reachable h hstate hempty
  obtain ⟨N, hN⟩ := hagain
  exact ⟨stopsInTime_of_chainEnds hstate hdirect,
    fun hstops => chainEnds_of_stopsInTime hstate hdirect hstops hprogress hN⟩

theorem reachable_sample (file : Nat → List Byte) :
    (Running.system file).Reachable Running.sample :=
  ⟨_, [], Running.established_sample, .nil _⟩

theorem chainEnds_iff_stopsInTime_whole_file :
    ChainEnds (fileChain (fun _ => [1, 2, 3]) 5 0 3 Running.sample.session
        fun i => if i = 0 then .error EAGAIN else .ok 2)
      (fun i => if i = 0 then .error EAGAIN else .ok 2) 3 := by
  have hanswers : ∀ i, 0 < i → (if i = 0 then .error EAGAIN else .ok 2 : Except Errno Nat) = .ok 2 :=
    fun i hi => if_neg hi.ne'
  refine (chainEnds_iff_stopsInTime (reachable_sample _) rfl (by decide) 5 0 3 ?_ ⟨1, ?_⟩).mpr ?_
  · intro i
    split <;> simp
  · intro i hi
    rw [hanswers i hi]
    simp
  · refine ⟨fun _ => by decide, ?_⟩
    rintro m ⟨hfails, -, -⟩
    revert hfails
    dsimp only
    split
    · decide
    · exact fun hfails => hfails.elim

/-- A range that ends behind the end of its file: the chain runs for ever. And an errno that is
neither `EAGAIN` nor fatal, here `EIO`: the chain goes on after it. -/
theorem file_chain_spins :
    (∀ m, (fileChain (fun _ => [1, 2]) 5 0 3 Running.sample.session (fun _ => .ok 1) m).next ≠ none) ∧
    ¬ChainEnds (fileChain (fun _ => [1, 2]) 5 0 3 Running.sample.session fun _ => .ok 1)
      (fun _ => .ok 1) 2 ∧
    (fileChain (fun _ => [1, 2]) 5 0 2 Running.sample.session (fun _ => .error 5) 1).next
      = some (0, 2) ∧
    ¬ChainEnds (fileChain (fun _ => [1, 2]) 5 0 2 Running.sample.session fun _ => .error 5)
      (fun _ => .error 5) 2 := by
  have hspins : ∀ m, (fileChain (fun _ => [1, 2]) 5 0 3 Running.sample.session
      (fun _ => .ok 1) m).next ≠ none := by
    intro m
    induction m with
    | zero => exact fun h => by cases h
    | succ m ih =>
        have hsucc := (fileChain_succ rfl (by decide) ih).2
        have hrange : inFile (fun _ => [1, 2]) 5 0 3 = 2 := rfl
        rw [Ne, hsucc, hrange]
        rintro (hfatal | hdone)
        · exact hfatal
        · omega
  refine ⟨hspins, ?_, rfl, ?_⟩
  · rintro ⟨-, m, hstopped⟩
    exact hspins m hstopped
  · rintro ⟨hstops, -⟩
    have hstopped := (hstops 0 (fun h => by cases h)).mpr (.inr (by decide))
    cases hstopped

end MuduoCore
