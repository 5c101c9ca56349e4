import MuduoCore.TcpConnection.Effects
import MuduoCore.TcpConnection.Runs

/-!
# send from another thread

The functor that `send` queues for the loop captures `buf.c_str()` and `buf.size()`, a pointer into
memory that the caller's string owns. The loop reads that memory when it runs the functor, first in
`::write` and then again in `append`, and before either of them the caller may have assigned to its
string, cleared or destroyed it.
-/

namespace MuduoCore

/-- A `std::string`: the block that `c_str()` points to, and `size()`. -/
structure StdString where
  block : Nat
  size : Nat
  deriving DecidableEq, Repr

/-- A functor in the queue of the loop. `given` is not part of the functor of `sendInLoop`: it is what
the string held at the call, kept here to compare with. -/
inductive Functor where
  | task (task : Task)
  | sendInLoop (data len : Nat) (given : List Byte)
  deriving DecidableEq, Repr

/-- Whether the functor owns a `TcpConnectionPtr`. `sendInLoop` is bound to `this`. -/
def Functor.holdsConnection : Functor → Bool
  | .task _ => true
  | .sendInLoop _ _ _ => false

/-- A `sendInLoop` that has left its direct write and is about to append: its locals, and again what
the string held at the call. -/
structure Sending where
  data : Nat
  nwrote : Nat
  remaining : Nat
  given : List Byte
  deriving DecidableEq, Repr

/-- The threads `θ` with their strings, and the loop with the connection. `memory` gives the bytes of
every allocated block. `undefined` is set when the loop has used memory that is not there. -/
structure CrossThread (θ κ : Type*) where
  memory : Nat → Option (List Byte)
  strings : θ → Option StdString
  session : Session κ
  alive : Bool
  pendingFunctors : List Functor
  functors : List Functor
  sending : Option Sending
  undefined : Bool

inductive CrossThreadStep (θ : Type*) where
  | create (thread : θ) (block : Nat) (content spare : List Byte)
  | assign (thread : θ) (content : List Byte)
  | reallocate (thread : θ) (block : Nat) (content spare : List Byte)
  | destroy (thread : θ)
  | send (thread : θ)
  | loop (step : Step)
  | doPendingFunctors
  | runFunctor (answer : Except Errno Nat)
  | append
  | release

def CrossThreadStep.touches {θ : Type*} : CrossThreadStep θ → Option θ
  | .create thread _ _ _ | .assign thread _ | .reallocate thread _ _ _ | .destroy thread =>
      some thread
  | _ => none

/-- The bytes of a new block: the characters, the terminating NUL and spare capacity. -/
def allocation (content spare : List Byte) : List Byte := content ++ 0 :: spare

/-- Characters written over an old block, which has the capacity for them. -/
def overwrite (old content : List Byte) : List Byte :=
  content ++ 0 :: old.drop (content.length + 1)

/-- How many of `len` bytes the `::write` of `sendInLoop` takes. -/
def Session.nwrote {κ : Type*} (s : Session κ) (len : Nat) : Except Errno Nat → Nat
  | .ok n => if s.mayWriteDirectly then min n len else 0
  | .error _ => 0

namespace CrossThread

variable {θ κ : Type*}

/-- `count` bytes from `data + offset` on. Where there are none to read, `data` may point anywhere. -/
def read (memory : Nat → Option (List Byte)) (data offset count : Nat) : Option (List Byte) :=
  if count = 0 then some []
  else (memory data).bind fun bytes =>
    if offset + count ≤ bytes.length then some (slice bytes offset count) else none

/-- The functors that the connection queued go behind those of the other threads. -/
def collect (w : CrossThread θ κ) (s : Session κ) : CrossThread θ κ :=
  { w with
    session := { s with pendingFunctors := [] }
    pendingFunctors := w.pendingFunctors ++ s.pendingFunctors.map .task }

/-- `sendInLoop(data, len)` up to its `append`. Of the `len` bytes, `::write` reads those that it
takes; what stands for the others is not looked at. -/
def beginSend (w : CrossThread θ κ) (data len : Nat) (given : List Byte)
    (answer : Except Errno Nat) : CrossThread θ κ :=
  if w.session.conn.state = .kDisconnected then w
  else
    match read w.memory data 0 (w.session.nwrote len answer) with
    | none => { w with undefined := true }
    | some taken =>
        let direct := w.session.attemptWrite (taken ++ List.replicate (len - taken.length) 0) answer
        { w.collect direct.session with
          sending :=
            if !direct.faultError && 0 < direct.remaining then
              some ⟨data, direct.nwrote, direct.remaining, given⟩
            else none }

/-- The rest of `sendInLoop`, which reads the memory as it is by now. -/
def finishSend (w : CrossThread θ κ) (sending : Sending) : CrossThread θ κ :=
  match read w.memory sending.data sending.nwrote sending.remaining with
  | none => { w with sending := none, undefined := true }
  | some rest =>
      if w.alive then { w.collect (w.session.bufferRest rest) with sending := none }
      else { w with sending := none, undefined := true }

/-- The functor runs on the thread of the loop. -/
def run (file : Nat → List Byte) (w : CrossThread θ κ) (answer : Except Errno Nat)
    (functor : Functor) : CrossThread θ κ :=
  if w.alive then
    match functor with
    | .task task => w.collect (Running.runTask file w.session answer task)
    | .sendInLoop data len given => w.beginSend data len given answer
  else { w with undefined := true }

variable [DecidableEq θ]

def setString (w : CrossThread θ κ) (thread : θ) (string : Option StdString) : CrossThread θ κ :=
  { w with strings := Function.update w.strings thread string }

def setBlock (w : CrossThread θ κ) (block : Nat) (bytes : Option (List Byte)) : CrossThread θ κ :=
  { w with memory := Function.update w.memory block bytes }

/-- `send` by a thread that is not the loop's, which keeps its string as it is during the call. -/
def send (w : CrossThread θ κ) (string : StdString) : CrossThread θ κ :=
  if w.session.conn.state = .kConnected then
    { w with pendingFunctors := w.pendingFunctors ++
        [.sendInLoop string.block string.size
          (((w.memory string.block).getD []).take string.size)] }
  else w

def step (file : Nat → List Byte) (w : CrossThread θ κ) :
    CrossThreadStep θ → Option (CrossThread θ κ)
  | .create thread block content spare =>
      if w.strings thread = none ∧ w.memory block = none then
        some ((w.setBlock block (some (allocation content spare))).setString thread
          (some ⟨block, content.length⟩))
      else none
  | .assign thread content =>
      match w.strings thread with
      | none => none
      | some string =>
          let old := (w.memory string.block).getD []
          if content.length < old.length then
            some ((w.setBlock string.block (some (overwrite old content))).setString thread
              (some ⟨string.block, content.length⟩))
          else none
  | .reallocate thread block content spare =>
      match w.strings thread with
      | none => none
      | some string =>
          if w.memory block = none then
            some (((w.setBlock string.block none).setBlock block
              (some (allocation content spare))).setString thread (some ⟨block, content.length⟩))
          else none
  | .destroy thread =>
      match w.strings thread with
      | none => none
      | some string => some ((w.setBlock string.block none).setString thread none)
  | .send thread =>
      match w.strings thread with
      | none => none
      | some string => if w.alive then some (w.send string) else none
  | .loop step =>
      if w.alive = true ∧ w.sending = none ∧ w.undefined = false then
        (Running.step file ⟨w.session, []⟩ step).map fun r => w.collect r.session
      else none
  | .doPendingFunctors =>
      if w.functors = [] ∧ w.sending = none ∧ w.undefined = false then
        some { w with pendingFunctors := [], functors := w.pendingFunctors }
      else none
  | .runFunctor answer =>
      match w.functors with
      | [] => none
      | functor :: rest =>
          if w.sending = none ∧ w.undefined = false then
            some (run file { w with functors := rest } answer functor)
          else none
  | .append =>
      match w.sending with
      | none => none
      | some sending => some (w.finishSend sending)
  | .release =>
      if w.alive = true ∧ w.session.conn.state = .kDisconnected ∧
          ∀ functor ∈ w.functors ++ w.pendingFunctors, functor.holdsConnection = false then
        some { w with alive := false }
      else none

def Initial (w : CrossThread θ κ) : Prop :=
  (∀ block, w.memory block = none) ∧ (∀ thread, w.strings thread = none) ∧
    Running.Established ⟨w.session, []⟩ ∧ w.alive = true ∧ w.pendingFunctors = [] ∧
    w.functors = [] ∧ w.sending = none ∧ w.undefined = false

def system (file : Nat → List Byte) : System (CrossThread θ κ) (CrossThreadStep θ) where
  init := Initial
  step := step file

/-! ### What the loop transmits -/

/-- The bytes handed to `::write` and appended to `outputBuffer_` from `w` to `w'`. -/
def transmitted (w w' : CrossThread θ κ) : List Byte :=
  (written w'.session.trace).drop (written w.session.trace).length ++
    w'.session.conn.outputBuffer.content.drop w.session.conn.outputBuffer.content.length

/-- The two branches of `sendInLoop` that give the data up. -/
def GivesUp (s : Session κ) (answer : Except Errno Nat) : Prop :=
  s.conn.state = .kDisconnected ∨ s.SendFaults answer

/-- The two reads of a queued `sendInLoop` find what its string held at the call: `::write` in the
bytes that it takes, and `append` in the others. -/
def Intact (w : CrossThread θ κ) : CrossThreadStep θ → Prop
  | .runFunctor answer =>
      match w.functors.head? with
      | some (.sendInLoop data len given) =>
          w.alive = true ∧ (given = [] ∨ ¬GivesUp w.session answer ∧
            read w.memory data 0 (w.session.nwrote len answer)
              = some (given.take (w.session.nwrote len answer)))
      | _ => True
  | .append =>
      match w.sending with
      | some sending =>
          read w.memory sending.data sending.nwrote sending.remaining
            = some (sending.given.drop sending.nwrote)
      | none => True
  | _ => True

omit [DecidableEq θ] in
theorem transmitted_eq {w w' : CrossThread θ κ} {wrote rest : List Byte}
    (hwrote : written w'.session.trace = written w.session.trace ++ wrote)
    (hrest : w'.session.conn.outputBuffer.content = w.session.conn.outputBuffer.content ++ rest) :
    transmitted w w' = wrote ++ rest := by
  simp only [transmitted, hwrote, hrest, List.drop_left]

theorem length_of_read {memory : Nat → Option (List Byte)} {data offset count : Nat}
    {bytes : List Byte} (hread : read memory data offset count = some bytes) :
    bytes.length = count := by
  unfold read at hread
  split at hread
  · rename_i hzero
    obtain rfl := Option.some.inj hread
    exact hzero.symm
  · obtain ⟨block, -, hslice⟩ := Option.bind_eq_some_iff.mp hread
    split at hslice
    · rename_i hroom
      obtain rfl := Option.some.inj hslice
      exact length_slice hroom
    · cases hslice

theorem nwrote_le (s : Session κ) (len : Nat) (answer : Except Errno Nat) :
    s.nwrote len answer ≤ len := by
  unfold Session.nwrote
  split
  · split <;> simp
  · exact Nat.zero_le len

theorem nwrote_of_faults {s : Session κ} {answer : Except Errno Nat} (h : s.SendFaults answer)
    (len : Nat) : s.nwrote len answer = 0 := by
  obtain ⟨-, errno, rfl, -⟩ := h
  rfl

theorem attemptWrite_nwrote (s : Session κ) (data : List Byte) (answer : Except Errno Nat) :
    (s.attemptWrite data answer).nwrote = s.nwrote data.length answer := by
  unfold Session.attemptWrite Session.nwrote
  split
  · cases answer <;> simp [Session.directWrite, *]
  · cases answer <;> simp [*]

/-- The first part of a `sendInLoop` that the connection takes: `taken` is written, and the rest, if
the socket is not gone, waits for the second part. -/
structure Begun (w w' : CrossThread θ κ) (sending : Sending) (answer : Except Errno Nat)
    (taken : List Byte) : Prop where
  conn_eq : w'.session.conn = w.session.conn
  written_eq : written w'.session.trace = written w.session.trace ++ taken
  alive_eq : w'.alive = w.alive
  undefined_eq : w'.undefined = w.undefined
  returns : w.session.SendFaults answer ∨ sending.remaining = 0 → w'.sending = none
  waits : ¬w.session.SendFaults answer → sending.remaining ≠ 0 → w'.sending = some sending

omit [DecidableEq θ] in
theorem begun_beginSend {w : CrossThread θ κ} {data len : Nat} {taken : List Byte}
    {answer : Except Errno Nat} (hstate : w.session.conn.state ≠ .kDisconnected)
    (hread : read w.memory data 0 (w.session.nwrote len answer) = some taken) (given : List Byte) :
    Begun w (w.beginSend data len given answer)
      ⟨data, w.session.nwrote len answer, len - w.session.nwrote len answer, given⟩ answer taken := by
  have htaken : taken.length = w.session.nwrote len answer := length_of_read hread
  have hle : w.session.nwrote len answer ≤ len := nwrote_le w.session len answer
  set bytes := taken ++ List.replicate (len - taken.length) 0 with hbytes
  have hlength : bytes.length = len := by
    simp only [hbytes, List.length_append, List.length_replicate]
    omega
  obtain ⟨wrote, hattempt⟩ := w.session.attemptWrite_spec bytes answer
  have hnwrote : (w.session.attemptWrite bytes answer).nwrote = w.session.nwrote len answer := by
    rw [attemptWrite_nwrote, hlength]
  have hremaining : (w.session.attemptWrite bytes answer).remaining
      = len - w.session.nwrote len answer := by
    rw [hattempt.remaining_eq, List.length_drop, hlength, hnwrote]
  have hfault := w.session.attemptWrite_faultError bytes answer
  have hbegin : w.beginSend data len given answer =
      { w.collect (w.session.attemptWrite bytes answer).session with
        sending :=
          if !(w.session.attemptWrite bytes answer).faultError &&
              0 < (w.session.attemptWrite bytes answer).remaining then
            some ⟨data, (w.session.attemptWrite bytes answer).nwrote,
              (w.session.attemptWrite bytes answer).remaining, given⟩
          else none } := by
    rw [beginSend, if_neg hstate, hread]
  rw [hbegin]
  refine ⟨hattempt.conn_eq, ?_, rfl, rfl, ?_, ?_⟩
  · change written (w.session.attemptWrite bytes answer).session.trace = _
    rw [hattempt.trace_eq, written_append, hattempt.bytes, hnwrote, ← htaken, hbytes,
      List.take_left]
  · rintro (hgone | hnone)
    · exact if_neg (by simp [hfault.mpr hgone])
    · have hzero : len - w.session.nwrote len answer = 0 := hnone
      exact if_neg (by simp [hremaining, hzero])
  · intro hopen hsome
    have hpos : 0 < len - w.session.nwrote len answer := Nat.pos_of_ne_zero hsome
    rw [← hfault, Bool.not_eq_true] at hopen
    rw [if_pos (by simp [hopen, hremaining, hpos]), hnwrote, hremaining]

/-! ### The memory of the strings -/

/-- The strings own distinct blocks with room for their characters and the NUL, and every functor
knows how long its string was. -/
structure Owned (w : CrossThread θ κ) : Prop where
  allocated : ∀ thread string, w.strings thread = some string →
    ∃ bytes, w.memory string.block = some bytes ∧ string.size < bytes.length
  distinct : ∀ s t string other, w.strings s = some string → w.strings t = some other →
    string.block = other.block → s = t
  given_length : ∀ data len given, .sendInLoop data len given ∈ w.functors ++ w.pendingFunctors →
    given.length = len

/-- A step of `thread` on its string leaves the strings of the others and their blocks alone, and
takes no block of theirs. -/
structure StringStep (w w' : CrossThread θ κ) (thread : θ) : Prop where
  others : ∀ t, t ≠ thread → w'.strings t = w.strings t
  memory : ∀ t string, t ≠ thread → w.strings t = some string →
    w'.memory string.block = w.memory string.block
  own : ∀ string, w'.strings thread = some string →
    (∃ bytes, w'.memory string.block = some bytes ∧ string.size < bytes.length) ∧
      ∀ t other, t ≠ thread → w.strings t = some other → other.block ≠ string.block
  functors_eq : w'.functors = w.functors
  pending_eq : w'.pendingFunctors = w.pendingFunctors

/-- Every other step leaves all strings alone and queues functors of strings as they are. -/
structure LoopStep (w w' : CrossThread θ κ) : Prop where
  strings_eq : w'.strings = w.strings
  memory_eq : w'.memory = w.memory
  queued : ∀ data len given, .sendInLoop data len given ∈ w'.functors ++ w'.pendingFunctors →
    .sendInLoop data len given ∈ w.functors ++ w.pendingFunctors ∨
      ∃ thread, w.strings thread = some ⟨data, len⟩ ∧ read w.memory data 0 len = some given

omit [DecidableEq θ] in
theorem StringStep.owned {w w' : CrossThread θ κ} {thread : θ} (hstep : StringStep w w' thread)
    (h : Owned w) : Owned w' := by
  refine ⟨?_, ?_, ?_⟩
  · intro t string hstring
    by_cases heq : t = thread
    · subst heq
      exact (hstep.own string hstring).1
    · rw [hstep.others t heq] at hstring
      rw [hstep.memory t string heq hstring]
      exact h.allocated t string hstring
  · intro s t string other hs ht hblock
    by_cases hsame : s = thread
    · by_cases heq : t = thread
      · rw [hsame, heq]
      · subst hsame
        rw [hstep.others t heq] at ht
        exact absurd hblock.symm ((hstep.own string hs).2 t other heq ht)
    · rw [hstep.others s hsame] at hs
      by_cases heq : t = thread
      · subst heq
        exact absurd hblock ((hstep.own other ht).2 s string hsame hs)
      · rw [hstep.others t heq] at ht
        exact h.distinct s t string other hs ht hblock
  · rw [hstep.functors_eq, hstep.pending_eq]
    exact h.given_length

omit [DecidableEq θ] in
theorem LoopStep.owned {w w' : CrossThread θ κ} (hstep : LoopStep w w') (h : Owned w) :
    Owned w' := by
  refine ⟨?_, ?_, ?_⟩
  · intro t string hstring
    rw [hstep.strings_eq] at hstring
    rw [hstep.memory_eq]
    exact h.allocated t string hstring
  · intro s t string other hs ht
    rw [hstep.strings_eq] at hs ht
    exact h.distinct s t string other hs ht
  · intro data len given hmem
    rcases hstep.queued data len given hmem with hold | ⟨-, -, hread⟩
    · exact h.given_length data len given hold
    · exact length_of_read hread

theorem read_of_allocated {memory : Nat → Option (List Byte)} {data offset count : Nat}
    {bytes : List Byte} (hbytes : memory data = some bytes) (hroom : offset + count ≤ bytes.length) :
    read memory data offset count = some (slice bytes offset count) := by
  unfold read
  split
  · rename_i hzero
    rw [hzero, slice_zero]
  · rw [hbytes, Option.bind_some, if_pos hroom]

omit [DecidableEq θ] in
theorem loopStep_collect (w : CrossThread θ κ) (s : Session κ) : LoopStep w (w.collect s) := by
  refine ⟨rfl, rfl, fun data len given hmem => Or.inl ?_⟩
  rw [collect, ← List.append_assoc, List.mem_append] at hmem
  apply hmem.resolve_right
  intro htask
  obtain ⟨task, -, heq⟩ := List.mem_map.mp htask
  cases heq

omit [DecidableEq θ] in
theorem loopStep_run (file : Nat → List Byte) (w : CrossThread θ κ) (answer : Except Errno Nat)
    (functor : Functor) : LoopStep w (run file w answer functor) := by
  have hsame : LoopStep w w := ⟨rfl, rfl, fun _ _ _ hmem => Or.inl hmem⟩
  have hundefined : LoopStep w { w with undefined := true } :=
    ⟨rfl, rfl, hsame.queued⟩
  unfold run
  split
  · cases functor with
    | task task => exact loopStep_collect w _
    | sendInLoop data len given =>
        change LoopStep w (w.beginSend data len given answer)
        unfold beginSend
        split
        · exact hsame
        · split
          · exact hundefined
          · exact ⟨rfl, rfl, (loopStep_collect w _).queued⟩
  · exact hundefined

omit [DecidableEq θ] in
theorem loopStep_finishSend (w : CrossThread θ κ) (sending : Sending) :
    LoopStep w (w.finishSend sending) := by
  unfold finishSend
  split
  · exact ⟨rfl, rfl, fun _ _ _ hmem => Or.inl hmem⟩
  · split
    · exact ⟨rfl, rfl, (loopStep_collect w _).queued⟩
    · exact ⟨rfl, rfl, fun _ _ _ hmem => Or.inl hmem⟩

omit [DecidableEq θ] in
theorem loopStep_send (w : CrossThread θ κ) {thread : θ} {string : StdString}
    (hstring : w.strings thread = some string)
    (hread : read w.memory string.block 0 string.size
      = some (((w.memory string.block).getD []).take string.size)) :
    LoopStep w (w.send string) := by
  unfold send
  split
  · refine ⟨rfl, rfl, ?_⟩
    intro data len given hmem
    rw [← List.append_assoc, List.mem_append, List.mem_singleton] at hmem
    apply hmem.imp_right
    intro heq
    obtain ⟨rfl, rfl, rfl⟩ := Functor.sendInLoop.inj heq
    exact ⟨thread, hstring, hread⟩
  · exact ⟨rfl, rfl, fun _ _ _ hmem => Or.inl hmem⟩

theorem stringStep_write (w : CrossThread θ κ) {thread : θ} {block : Nat} {content bytes : List Byte}
    (hroom : content.length < bytes.length)
    (hfree : ∀ t other, t ≠ thread → w.strings t = some other → other.block ≠ block) :
    StringStep w ((w.setBlock block (some bytes)).setString thread (some ⟨block, content.length⟩))
      thread := by
  refine ⟨?_, ?_, ?_, rfl, rfl⟩
  · intro t heq
    simp [setString, setBlock, heq]
  · intro t string heq hstring
    simp [setString, setBlock, hfree t string heq hstring]
  · intro string hstring
    obtain rfl : _ = string := by simpa [setString] using hstring
    exact ⟨⟨bytes, by simp [setString, setBlock], hroom⟩, hfree⟩

theorem stringStep_free (w : CrossThread θ κ) {thread : θ} {block : Nat}
    (hfree : ∀ t other, t ≠ thread → w.strings t = some other → other.block ≠ block) :
    StringStep w ((w.setBlock block none).setString thread none) thread := by
  refine ⟨fun t heq => ?_, fun t string heq hstring => ?_, fun string hstring => ?_, rfl, rfl⟩
  · simp [setString, setBlock, heq]
  · simp [setString, setBlock, hfree t string heq hstring]
  · simp [setString] at hstring

omit [DecidableEq θ] in
theorem Owned.ne_free {w : CrossThread θ κ} (h : Owned w) {block : Nat}
    (hnone : w.memory block = none) (thread : θ) (string : StdString)
    (hstring : w.strings thread = some string) : string.block ≠ block := by
  rintro rfl
  obtain ⟨bytes, hbytes, -⟩ := h.allocated thread string hstring
  rw [hnone] at hbytes
  cases hbytes

omit [DecidableEq θ] in
theorem Owned.ne_block {w : CrossThread θ κ} (h : Owned w) {thread : θ} {string : StdString}
    (hstring : w.strings thread = some string) (t : θ) (other : StdString) (hne : t ≠ thread)
    (hother : w.strings t = some other) : other.block ≠ string.block := by
  intro hblock
  exact hne (h.distinct _ _ _ _ hother hstring hblock)

/-- A string that moves to a new block, whose old block is freed. -/
theorem stringStep_reallocate {w : CrossThread θ κ} (h : Owned w) {thread : θ} {string : StdString}
    {block : Nat} (hstring : w.strings thread = some string) (hnone : w.memory block = none)
    (content spare : List Byte) :
    StringStep w (((w.setBlock string.block none).setBlock block
      (some (allocation content spare))).setString thread (some ⟨block, content.length⟩)) thread := by
  have hroom : content.length < (allocation content spare).length := by simp [allocation]
  have hwrite := stringStep_write (w.setBlock string.block none) hroom
    fun t other (_ : t ≠ thread) => h.ne_free hnone t other
  refine ⟨hwrite.others, ?_, hwrite.own, rfl, rfl⟩
  intro t other hne hother
  rw [hwrite.memory t other hne hother]
  simp [setBlock, h.ne_block hstring t other hne hother]

theorem step_cases {file : Nat → List Byte} {w w' : CrossThread θ κ} {step : CrossThreadStep θ}
    (h : Owned w) (hstep : CrossThread.step file w step = some w') :
    (∃ thread, step.touches = some thread ∧ StringStep w w' thread) ∨
      (step.touches = none ∧ LoopStep w w') := by
  cases step with
  | create thread block content spare =>
      simp only [CrossThread.step] at hstep
      split at hstep
      · rename_i hguard
        obtain rfl := Option.some.inj hstep
        refine Or.inl ⟨thread, rfl, stringStep_write w ?_ fun t other _ => h.ne_free hguard.2 t other⟩
        simp [allocation]
      · cases hstep
  | assign thread content =>
      simp only [CrossThread.step] at hstep
      split at hstep
      · cases hstep
      · rename_i string hstring
        split at hstep
        · obtain rfl := Option.some.inj hstep
          refine Or.inl ⟨thread, rfl, stringStep_write w ?_ (h.ne_block hstring)⟩
          simp [overwrite]
        · cases hstep
  | reallocate thread block content spare =>
      simp only [CrossThread.step] at hstep
      split at hstep
      · cases hstep
      · rename_i string hstring
        split at hstep
        · rename_i hnone
          obtain rfl := Option.some.inj hstep
          exact Or.inl ⟨thread, rfl, stringStep_reallocate h hstring hnone content spare⟩
        · cases hstep
  | destroy thread =>
      simp only [CrossThread.step] at hstep
      split at hstep
      · cases hstep
      · rename_i string hstring
        obtain rfl := Option.some.inj hstep
        exact Or.inl ⟨thread, rfl, stringStep_free w (h.ne_block hstring)⟩
  | send thread =>
      simp only [CrossThread.step] at hstep
      split at hstep
      · cases hstep
      · rename_i string hstring
        split at hstep
        · obtain rfl := Option.some.inj hstep
          obtain ⟨bytes, hbytes, hsize⟩ := h.allocated thread string hstring
          refine Or.inr ⟨rfl, loopStep_send w hstring ?_⟩
          rw [read_of_allocated hbytes (by simpa using hsize.le), hbytes]
          rfl
        · cases hstep
  | loop step =>
      simp only [CrossThread.step] at hstep
      split at hstep
      · obtain ⟨r, -, rfl⟩ := Option.map_eq_some_iff.mp hstep
        exact Or.inr ⟨rfl, loopStep_collect w r.session⟩
      · cases hstep
  | doPendingFunctors =>
      simp only [CrossThread.step] at hstep
      split at hstep
      · rename_i hguard
        obtain rfl := Option.some.inj hstep
        exact Or.inr ⟨rfl, rfl, rfl, fun _ _ _ hmem => Or.inl (by simpa [hguard.1] using hmem)⟩
      · cases hstep
  | runFunctor answer =>
      simp only [CrossThread.step] at hstep
      split at hstep
      · cases hstep
      · rename_i functor rest hfunctors
        split at hstep
        · obtain rfl := Option.some.inj hstep
          have hrun := loopStep_run file { w with functors := rest } answer functor
          refine Or.inr ⟨rfl, hrun.strings_eq, hrun.memory_eq, ?_⟩
          intro data len given hmem
          apply (hrun.queued data len given hmem).imp_left
          intro hold
          rw [hfunctors]
          exact List.mem_cons_of_mem _ hold
        · cases hstep
  | append =>
      simp only [CrossThread.step] at hstep
      split at hstep
      · cases hstep
      · rename_i sending _
        obtain rfl := Option.some.inj hstep
        exact Or.inr ⟨rfl, loopStep_finishSend w sending⟩
  | release =>
      simp only [CrossThread.step] at hstep
      split at hstep
      · obtain rfl := Option.some.inj hstep
        exact Or.inr ⟨rfl, rfl, rfl, fun _ _ _ hmem => Or.inl hmem⟩
      · cases hstep

theorem owned_of_reachable {file : Nat → List Byte} {w : CrossThread θ κ}
    (h : (system file).Reachable w) : Owned w := by
  refine h.invariant ?_ ?_
  · intro w hinit
    obtain ⟨-, hstrings, -, -, hpending, hfunctors, -, -⟩ := hinit
    refine ⟨?_, ?_, ?_⟩
    · intro t string hstring
      rw [hstrings t] at hstring
      cases hstring
    · intro s t string other hs
      rw [hstrings s] at hs
      cases hs
    · intro _ _ _ hmem
      rw [hpending, hfunctors] at hmem
      cases hmem
  · intro w step w' hinv _ hstep
    rcases step_cases hinv hstep with ⟨thread, -, hstring⟩ | ⟨-, hloop⟩
    · exact hstring.owned hinv
    · exact hloop.owned hinv

/-! ### Every queued send -/

/-- What the other threads leave as it is while the loop's thread is between its two reads. -/
structure During (w u : CrossThread θ κ) : Prop where
  session_eq : u.session = w.session
  alive_eq : u.alive = w.alive
  sending_eq : u.sending = w.sending
  undefined_eq : u.undefined = w.undefined

theorem during_step {file : Nat → List Byte} {w w' : CrossThread θ κ} {step : CrossThreadStep θ}
    (hsending : w.sending ≠ none) (hopen : w.session.conn.state ≠ .kDisconnected)
    (hstep : CrossThread.step file w step = some w') :
    step = .append ∨ During w w' ∧ Intact w step := by
  have hsame : During w w := ⟨rfl, rfl, rfl, rfl⟩
  cases step with
  | create thread block content spare =>
      simp only [CrossThread.step] at hstep
      split at hstep
      · obtain rfl := Option.some.inj hstep
        exact .inr ⟨⟨rfl, rfl, rfl, rfl⟩, trivial⟩
      · cases hstep
  | assign thread content =>
      simp only [CrossThread.step] at hstep
      split at hstep
      · cases hstep
      · split at hstep
        · obtain rfl := Option.some.inj hstep
          exact .inr ⟨⟨rfl, rfl, rfl, rfl⟩, trivial⟩
        · cases hstep
  | reallocate thread block content spare =>
      simp only [CrossThread.step] at hstep
      split at hstep
      · cases hstep
      · split at hstep
        · obtain rfl := Option.some.inj hstep
          exact .inr ⟨⟨rfl, rfl, rfl, rfl⟩, trivial⟩
        · cases hstep
  | destroy thread =>
      simp only [CrossThread.step] at hstep
      split at hstep
      · cases hstep
      · obtain rfl := Option.some.inj hstep
        exact .inr ⟨⟨rfl, rfl, rfl, rfl⟩, trivial⟩
  | send thread =>
      simp only [CrossThread.step] at hstep
      split at hstep
      · cases hstep
      · split at hstep
        · obtain rfl := Option.some.inj hstep
          refine .inr ⟨?_, trivial⟩
          unfold send
          split
          · exact ⟨rfl, rfl, rfl, rfl⟩
          · exact hsame
        · cases hstep
  | append => exact .inl rfl
  | loop step => simp [CrossThread.step, hsending] at hstep
  | doPendingFunctors => simp [CrossThread.step, hsending] at hstep
  | runFunctor answer =>
      simp only [CrossThread.step, hsending, false_and, if_false] at hstep
      split at hstep <;> cases hstep
  | release => simp [CrossThread.step, hopen] at hstep

theorem step_append {file : Nat → List Byte} {w w' : CrossThread θ κ}
    (hstep : CrossThread.step file w .append = some w') :
    w'.sending = none ∧ ∃ sending, w.sending = some sending ∧ w' = w.finishSend sending := by
  simp only [CrossThread.step] at hstep
  split at hstep
  · cases hstep
  · rename_i sending hsending
    obtain rfl := Option.some.inj hstep
    refine ⟨?_, sending, hsending, rfl⟩
    unfold finishSend
    split
    · rfl
    · split <;> rfl

/-- A `sendInLoop` that is not through after its first part is through after its `append`, and until
then nothing has happened to it. -/
theorem append_of_returned {file : Nat → List Byte} {w w' : CrossThread θ κ}
    {steps : List (CrossThreadStep θ)} (hopen : w.session.conn.state ≠ .kDisconnected)
    (hsending : w.sending ≠ none)
    (hsends : (system file).RunUnder (fun u _ => u.sending ≠ none) w steps w')
    (hreturned : w'.sending = none) :
    ∃ earlier u, steps = earlier ++ [.append] ∧ (system file).RunUnder Intact w earlier u ∧
      During w u ∧ CrossThread.step file u .append = some w' := by
  have hprefix : ∀ {earlier u},
      (system file).RunUnder (fun u _ => u.sending ≠ none) w earlier u → u.sending ≠ none →
        During w u ∧ (system file).RunUnder Intact w earlier u := by
    intro earlier u hrun
    refine hrun.history (P := fun earlier u => u.sending ≠ none → During w u ∧
      (system file).RunUnder Intact w earlier u) ?_ ?_
    · exact fun _ => ⟨⟨rfl, rfl, rfl, rfl⟩, .nil w⟩
    · intro earlier t step u ht hbusy hstep hstill
      obtain ⟨hduring, hintact⟩ := ht hbusy
      have hstate : t.session.conn.state ≠ .kDisconnected := by
        rw [hduring.session_eq]
        exact hopen
      rcases during_step hbusy hstate hstep with rfl | ⟨hnext, hok⟩
      · exact absurd (@step_append θ κ _ file _ _ hstep).1 hstill
      · exact ⟨⟨hnext.session_eq.trans hduring.session_eq, hnext.alive_eq.trans hduring.alive_eq,
          hnext.sending_eq.trans hduring.sending_eq,
          hnext.undefined_eq.trans hduring.undefined_eq⟩, hintact.snoc hok hstep⟩
  cases hsends with
  | nil => exact absurd hreturned hsending
  | snoc hrun hbusy hstep =>
      obtain ⟨hduring, hintact⟩ := hprefix hrun hbusy
      have hstate := congrArg (fun s : Session κ => s.conn.state) hduring.session_eq
      rcases during_step hbusy (fun hclosed => hopen (hstate.symm.trans hclosed)) hstep with
        rfl | ⟨hnext, -⟩
      · exact ⟨_, _, rfl, hintact, hduring, hstep⟩
      · exact absurd (hnext.sending_eq.symm.trans hreturned) hbusy

/-- Where `sendInLoop` is through after its first part, nothing comes after. -/
theorem eq_of_returned {file : Nat → List Byte} {w w' : CrossThread θ κ}
    {steps : List (CrossThreadStep θ)} (hsending : w.sending = none)
    (hsends : (system file).RunUnder (fun u _ => u.sending ≠ none) w steps w') :
    steps = [] ∧ w' = w := by
  cases steps with
  | nil => exact ⟨rfl, hsends.eq_of_nil.symm⟩
  | cons step steps =>
      obtain ⟨-, hbusy, -⟩ := hsends.head
      exact absurd hsending hbusy

/-- What a queued `sendInLoop` can do in its first part. -/
inductive FirstPart (w w₁ : CrossThread θ κ) (data len : Nat) (given : List Byte)
    (answer : Except Errno Nat) : Prop where
  | dangling
      (hbad : w.alive = false ∨ w.session.conn.state ≠ .kDisconnected ∧
        read w.memory data 0 (w.session.nwrote len answer) = none)
      (hreturned : w₁.sending = none) (hundefined : w₁.undefined = true)
  | disconnected (halive : w.alive = true) (hstate : w.session.conn.state = .kDisconnected)
      (hsession : w₁.session = w.session) (hreturned : w₁.sending = none)
      (hdefined : w₁.undefined = false)
  | begun (halive : w.alive = true) (hdefined : w.undefined = false)
      (hstate : w.session.conn.state ≠ .kDisconnected) {taken : List Byte}
      (hread : read w.memory data 0 (w.session.nwrote len answer) = some taken)
      (hbegun : Begun w w₁ ⟨data, w.session.nwrote len answer,
        len - w.session.nwrote len answer, given⟩ answer taken)

theorem firstPart_of_step {file : Nat → List Byte} {w w₁ : CrossThread θ κ} {data len : Nat}
    {given : List Byte} {rest : List Functor} {answer : Except Errno Nat}
    (hfunctors : w.functors = .sendInLoop data len given :: rest)
    (hstep : CrossThread.step file w (.runFunctor answer) = some w₁) :
    FirstPart w w₁ data len given answer := by
  simp only [CrossThread.step, hfunctors] at hstep
  split at hstep
  · rename_i hguard
    obtain ⟨hidle, hdefined⟩ := hguard
    obtain rfl := Option.some.inj hstep
    unfold run
    split
    · rename_i halive
      change FirstPart w ({ w with functors := rest }.beginSend data len given answer) data len given
        answer
      by_cases hstate : w.session.conn.state = .kDisconnected
      · rw [beginSend, if_pos hstate]
        exact .disconnected halive hstate rfl hidle hdefined
      · cases hread : read w.memory data 0 (w.session.nwrote len answer) with
        | none =>
            rw [beginSend, if_neg hstate, hread]
            exact .dangling (.inr ⟨hstate, hread⟩) hidle rfl
        | some taken =>
            have hbegun := @begun_beginSend θ κ { w with functors := rest } data len taken answer
              hstate hread given
            exact .begun halive hdefined hstate hread
              ⟨hbegun.conn_eq, hbegun.written_eq, hbegun.alive_eq, hbegun.undefined_eq,
                hbegun.returns, hbegun.waits⟩
    · rename_i halive
      exact .dangling (.inl (Bool.eq_false_iff.mpr halive)) hidle rfl
  · cases hstep

omit [DecidableEq θ] in
theorem intact_iff {w : CrossThread θ κ} {data len : Nat} {given : List Byte} {rest : List Functor}
    (hfunctors : w.functors = .sendInLoop data len given :: rest) (answer : Except Errno Nat) :
    Intact w (.runFunctor answer) ↔
      w.alive = true ∧ (given = [] ∨ ¬GivesUp w.session answer ∧
        read w.memory data 0 (w.session.nwrote len answer)
          = some (given.take (w.session.nwrote len answer))) := by
  simp only [Intact, hfunctors, List.head?_cons]

omit [DecidableEq θ] in
/-- A `sendInLoop` that gives the data up, or whose direct write takes it all. -/
theorem FirstPart.transmits_iff {w w₁ : CrossThread θ κ} {data len : Nat} {given : List Byte}
    {rest : List Functor} {answer : Except Errno Nat} (h : FirstPart w w₁ data len given answer)
    (hfunctors : w.functors = .sendInLoop data len given :: rest) (hlength : given.length = len)
    (hreturned : w₁.sending = none) :
    w₁.undefined = false ∧ transmitted w w₁ = given ↔ Intact w (.runFunctor answer) := by
  rw [intact_iff hfunctors]
  cases h with
  | dangling hbad _ hundefined =>
      refine iff_of_false (fun hfine => ?_) fun hintact => ?_
      · rw [hundefined] at hfine
        cases hfine.1
      · obtain ⟨halive, hcase⟩ := hintact
        rcases hbad with hdead | ⟨-, hnone⟩
        · rw [halive] at hdead
          cases hdead
        · rcases hcase with rfl | ⟨-, hsome⟩
          · have hzero : w.session.nwrote len answer = 0 :=
              Nat.le_zero.mp (hlength ▸ nwrote_le w.session len answer)
            rw [hzero] at hnone
            cases hnone
          · rw [hnone] at hsome
            cases hsome
  | disconnected halive hstate hsession _ hdefined =>
      have htransmitted : transmitted w w₁ = [] := by
        rw [transmitted, hsession]
        simp
      have hgives : GivesUp w.session answer := .inl hstate
      rw [htransmitted]
      constructor
      · exact fun hnil => ⟨halive, .inl hnil.2.symm⟩
      · exact fun hintact => ⟨hdefined, (hintact.2.resolve_right fun hgoes => hgoes.1 hgives).symm⟩
  | @begun halive hdefined hstate taken hread hbegun =>
      have hcontent : w₁.session.conn.outputBuffer.content
          = w.session.conn.outputBuffer.content ++ [] := by
        rw [hbegun.conn_eq, List.append_nil]
      have htaken := length_of_read hread
      have hle := nwrote_le w.session len answer
      rw [transmitted_eq hbegun.written_eq hcontent, List.append_nil, hread, Option.some_inj]
      by_cases hfault : w.session.SendFaults answer
      · rw [nwrote_of_faults hfault, List.length_eq_zero_iff] at htaken
        subst htaken
        have hgives : GivesUp w.session answer := .inr hfault
        constructor
        · exact fun hnil => ⟨halive, .inl hnil.2.symm⟩
        · exact fun hintact => ⟨hbegun.undefined_eq.trans hdefined,
            (hintact.2.resolve_right fun hgoes => hgoes.1 hgives).symm⟩
      · have hall : len - w.session.nwrote len answer = 0 := by
          by_contra hsome
          rw [hbegun.waits hfault hsome] at hreturned
          cases hreturned
        rw [List.take_of_length_le (by omega)]
        constructor
        · exact fun hsame => ⟨halive, .inr ⟨not_or.mpr ⟨hstate, hfault⟩, hsame.2⟩⟩
        · rintro ⟨-, rfl | ⟨-, hsame⟩⟩
          · rw [List.length_nil] at hlength
            exact ⟨hbegun.undefined_eq.trans hdefined, List.length_eq_zero_iff.mp (by omega)⟩
          · exact ⟨hbegun.undefined_eq.trans hdefined, hsame⟩

omit [DecidableEq θ] in
/-- A `sendInLoop` that appends what its direct write has left. -/
theorem transmits_iff_of_appends {w w₁ u : CrossThread θ κ} {sending : Sending} {taken : List Byte}
    {answer : Except Errno Nat} (halive : w.alive = true) (hdefined : w.undefined = false)
    (hbegun : Begun w w₁ sending answer taken) (htaken : taken.length = sending.nwrote)
    (hduring : During w₁ u) :
    (u.finishSend sending).undefined = false ∧
        transmitted w (u.finishSend sending) = sending.given ↔
      taken = sending.given.take sending.nwrote ∧
        read u.memory sending.data sending.nwrote sending.remaining
          = some (sending.given.drop sending.nwrote) := by
  have hlive : u.alive = true := (hduring.alive_eq.trans hbegun.alive_eq).trans halive
  have hfine : u.undefined = false := (hduring.undefined_eq.trans hbegun.undefined_eq).trans hdefined
  cases hread : read u.memory sending.data sending.nwrote sending.remaining with
  | none => simp [finishSend, hread]
  | some rest =>
      have hfinish : u.finishSend sending =
          { u.collect (u.session.bufferRest rest) with sending := none } := by
        simp only [finishSend, hread, hlive, if_true]
      obtain ⟨-, htrace, hcontent, -⟩ := u.session.bufferRest_spec rest
      have htransmitted : transmitted w (u.finishSend sending) = taken ++ rest := by
        apply transmitted_eq
        · rw [hfinish]
          change written (u.session.bufferRest rest).trace = _
          rw [htrace, hduring.session_eq, hbegun.written_eq]
        · rw [hfinish]
          change (u.session.bufferRest rest).conn.outputBuffer.content = _
          rw [hcontent, hduring.session_eq, hbegun.conn_eq]
      have hundefined : (u.finishSend sending).undefined = false := by
        rw [hfinish]
        exact hfine
      rw [htransmitted, Option.some_inj]
      constructor
      · rintro ⟨-, hgiven⟩
        rw [← hgiven, ← htaken]
        exact ⟨List.take_left.symm, List.drop_left.symm⟩
      · rintro ⟨hfirst, hsecond⟩
        rw [hfirst, hsecond]
        exact ⟨hundefined, List.take_append_drop _ _⟩

/-- **A queued `sendInLoop` transmits what it was given** exactly when both of its reads find it in
the memory that it points to, whatever the other threads do before and between them, and the
connection is still there and takes it. -/
theorem queued_send_transmits_iff (file : Nat → List Byte) {w w₁ w' : CrossThread θ κ}
    {data len : Nat} {given : List Byte} {rest : List Functor} {answer : Except Errno Nat}
    {steps : List (CrossThreadStep θ)} (h : (system file).Reachable w)
    (hfunctors : w.functors = .sendInLoop data len given :: rest)
    (hstep : CrossThread.step file w (.runFunctor answer) = some w₁)
    (hsends : (system file).RunUnder (fun u _ => u.sending ≠ none) w₁ steps w')
    (hreturned : w'.sending = none) :
    w'.undefined = false ∧ transmitted w w' = given ↔
      (system file).RunUnder Intact w (.runFunctor answer :: steps) w' := by
  have hlength : given.length = len :=
    (owned_of_reachable h).given_length data len given (by simp [hfunctors])
  have hfirst := firstPart_of_step hfunctors hstep
  by_cases hwaits : w₁.sending = none
  · obtain ⟨rfl, rfl⟩ := eq_of_returned hwaits hsends
    rw [hfirst.transmits_iff hfunctors hlength hwaits]
    constructor
    · exact fun hok => .single hok hstep
    · intro hrun
      obtain ⟨-, hok, -⟩ := hrun.head
      exact hok
  · cases hfirst with
    | dangling _ hreturned _ => exact absurd hreturned hwaits
    | disconnected _ _ _ hreturned _ => exact absurd hreturned hwaits
    | @begun halive hdefined hstate taken hread hbegun =>
        have hfault : ¬w.session.SendFaults answer := fun hfault =>
          hwaits (hbegun.returns (.inl hfault))
        have hsome : len - w.session.nwrote len answer ≠ 0 := fun hnone =>
          hwaits (hbegun.returns (.inr hnone))
        have hopen : w₁.session.conn.state ≠ .kDisconnected := by
          rw [hbegun.conn_eq]
          exact hstate
        obtain ⟨earlier, u, rfl, hquiet, hduring, happend⟩ :=
          append_of_returned hopen hwaits hsends hreturned
        have hsending := hduring.sending_eq.trans (hbegun.waits hfault hsome)
        obtain ⟨-, sending, hsame, rfl⟩ := step_append happend
        obtain rfl := Option.some.inj (hsending.symm.trans hsame)
        rw [transmits_iff_of_appends halive hdefined hbegun (length_of_read hread) hduring]
        constructor
        · rintro ⟨htake, hdrop⟩
          have hbefore : Intact w (.runFunctor answer) := (intact_iff hfunctors answer).mpr
            ⟨halive, .inr ⟨not_or.mpr ⟨hstate, hfault⟩, hread.trans (congrArg some htake)⟩⟩
          have hafter : Intact u .append := by
            simpa only [Intact, hsame] using hdrop
          exact .cons hbefore hstep (hquiet.snoc hafter happend)
        · intro hrun
          obtain ⟨v, hbefore, hagain, hlater⟩ := hrun.head
          obtain rfl := Option.some.inj (hstep.symm.trans hagain)
          obtain ⟨t, hearlier, hafter, -⟩ := hlater.last
          obtain rfl := hquiet.unique hearlier
          simp only [Intact, hsame] at hafter
          obtain ⟨-, hcase⟩ := (intact_iff hfunctors answer).mp hbefore
          rcases hcase with rfl | ⟨-, htake⟩
          · exact absurd (by simp [← hlength]) hsome
          · exact ⟨Option.some.inj (hread.symm.trans htake), hafter⟩

/-- As long as no step changes the string, both reads of a queued functor find what was sent. -/
theorem read_of_untouched (file : Nat → List Byte) {w w' : CrossThread θ κ} {thread : θ}
    {string : StdString} {given : List Byte} {steps : List (CrossThreadStep θ)}
    (h : (system file).Reachable w) (hstring : w.strings thread = some string)
    (hgiven : read w.memory string.block 0 string.size = some given)
    (hrun : (system file).RunUnder (fun _ step => step.touches ≠ some thread) w steps w')
    {offset count : Nat} (hroom : offset + count ≤ string.size) :
    read w'.memory string.block offset count = some (slice given offset count) := by
  have hkept : Owned w' ∧ w'.strings thread = some string ∧
      w'.memory string.block = w.memory string.block := by
    refine hrun.invariant (I := fun u => Owned u ∧ u.strings thread = some string ∧
      u.memory string.block = w.memory string.block) ⟨owned_of_reachable h, hstring, rfl⟩ ?_
    rintro t step u ⟨howned, hstring, hmemory⟩ hok hstep
    rcases step_cases howned hstep with ⟨other, htouches, hother⟩ | ⟨-, hloop⟩
    · have hne : thread ≠ other := fun heq => hok (heq ▸ htouches)
      exact ⟨hother.owned howned, (hother.others thread hne).trans hstring,
        (hother.memory thread string hne hstring).trans hmemory⟩
    · refine ⟨hloop.owned howned, ?_, ?_⟩
      · rw [hloop.strings_eq]
        exact hstring
      · rw [hloop.memory_eq]
        exact hmemory
  obtain ⟨bytes, hbytes, hsize⟩ := (owned_of_reachable h).allocated thread string hstring
  have hall := read_of_allocated hbytes (show 0 + string.size ≤ bytes.length by omega)
  obtain rfl := Option.some.inj (hall.symm.trans hgiven)
  rw [read_of_allocated (hkept.2.2.trans hbytes) (by omega)]
  simp only [slice, List.drop_zero, List.drop_take, List.take_take]
  rw [Nat.min_eq_left (by omega)]

/-- One thread, no string yet, and the connection of `Running.sample`. -/
def sample : CrossThread Unit Unit where
  memory _ := none
  strings _ := none
  session := Running.sample.session
  alive := true
  pendingFunctors := []
  functors := []
  sending := none
  undefined := false

theorem initial_sample : Initial sample :=
  ⟨fun _ => rfl, fun _ => rfl, Running.established_sample, rfl, rfl, rfl, rfl, rfl⟩

/-- The socket takes one byte, the thread sends its string once more, and the loop appends the other
byte. -/
theorem queued_send_transmits_iff_kept :
    ∃ w w' : CrossThread Unit Unit,
      (system fun _ => []).exec sample [.create () 0 [97, 98] [], .send (), .doPendingFunctors]
        = some w ∧
      (system fun _ => []).exec w [.runFunctor (.ok 1), .send (), .append] = some w' ∧
      w'.undefined = false ∧ transmitted w w' = [97, 98] := by
  obtain ⟨w, w₁, w₂, w', hexec, hfunctors, hfirst, hbetween, hlast, hstate, halive, hone, hread,
      hwaits, hstill, hreturned, hagain⟩ :
      ∃ w w₁ w₂ w' : CrossThread Unit Unit,
        (system fun _ => []).exec sample [.create () 0 [97, 98] [], .send (), .doPendingFunctors]
          = some w ∧
        w.functors = [.sendInLoop 0 2 [97, 98]] ∧
        CrossThread.step (fun _ => []) w (.runFunctor (.ok 1)) = some w₁ ∧
        CrossThread.step (fun _ => []) w₁ (.send ()) = some w₂ ∧
        CrossThread.step (fun _ => []) w₂ .append = some w' ∧
        w.session.conn.state = .kConnected ∧ w.alive = true ∧
        w.session.nwrote 2 (.ok 1) = 1 ∧ read w.memory 0 0 1 = some [97] ∧
        w₁.sending = some ⟨0, 1, 1, [97, 98]⟩ ∧ w₂.sending = some ⟨0, 1, 1, [97, 98]⟩ ∧
        w'.sending = none ∧ read w₂.memory 0 1 1 = some [98] :=
    ⟨_, _, _, _, rfl, rfl, rfl, rfl, rfl, rfl, rfl, rfl, rfl, rfl, rfl, rfl, rfl⟩
  have hreach := System.reachable_of_exec initial_sample hexec
  have hsends : (system fun _ => []).RunUnder (fun u _ => u.sending ≠ none) w₁
      [.send (), .append] w' :=
    .cons (by rw [hwaits]; decide) hbetween (.single (by rw [hstill]; decide) hlast)
  have hiff := queued_send_transmits_iff (fun _ => []) hreach hfunctors hfirst hsends hreturned
  have hbefore : Intact w (.runFunctor (.ok 1)) := by
    refine (intact_iff hfunctors _).mpr ⟨halive, .inr ⟨?_, ?_⟩⟩
    · rintro (hgone | hfault)
      · rw [hstate] at hgone
        cases hgone
      · exact Session.not_sendFaults_ok _ _ hfault
    · rw [hone]
      exact hread
  have hafter : Intact w₂ .append := by
    simp only [Intact, hstill]
    exact hagain
  refine ⟨w, w', hexec, ?_, hiff.mpr (.cons hbefore hfirst (.cons trivial hbetween
    (.single hafter hlast)))⟩
  simp [System.exec, system, hfirst, hbetween, hlast]

/-- The thread assigns to its string before the loop has run the functor, or between the two reads of
the functor. -/
theorem queued_send_reads_later_contents :
    (∃ w w' : CrossThread Unit Unit,
      (system fun _ => []).exec sample [.create () 0 [97, 98] [], .send (), .assign () [120, 121],
        .doPendingFunctors] = some w ∧
      w.functors = [.sendInLoop 0 2 [97, 98]] ∧
      CrossThread.step (fun _ => []) w (.runFunctor (.ok 2)) = some w' ∧
      w'.undefined = false ∧ transmitted w w' = [120, 121]) ∧
    ∃ w w' : CrossThread Unit Unit,
      (system fun _ => []).exec sample [.create () 0 [97, 98] [], .send (), .doPendingFunctors]
        = some w ∧
      w.functors = [.sendInLoop 0 2 [97, 98]] ∧
      (system fun _ => []).exec w [.runFunctor (.ok 1), .assign () [120, 121], .append]
        = some w' ∧
      w'.undefined = false ∧ transmitted w w' = [97, 121] :=
  ⟨⟨_, _, rfl, rfl, rfl, rfl, rfl⟩, ⟨_, _, rfl, rfl, rfl, rfl, rfl⟩⟩

end CrossThread

end MuduoCore
