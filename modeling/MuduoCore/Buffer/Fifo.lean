import MuduoCore.Buffer.Basic
import MuduoCore.Lib.Transition

/-!
# The buffer is a byte queue

`content` is the abstraction: the bytes between the two indices. Each member function is shown to
act on it as the operation of a queue of bytes, to keep the representation invariant, and to touch
the vector only inside its bounds and never behind its own writes.
-/

namespace MuduoCore

namespace Buffer

variable {b : Buffer}

theorem valid_new (initalSize : Nat) : (new initalSize).Valid := by
  constructor <;> simp [new, size, kCheapPrepend]

@[simp]
theorem content_new (initalSize : Nat) : (new initalSize).content = [] := by
  simp [content, new, readableBytes]

theorem length_content (hb : b.Valid) : b.content.length = b.readableBytes := by
  have := hb.reader_le_writer
  have := hb.writer_le_size
  simp only [size] at this
  apply length_slice
  simp only [readableBytes]
  omega

/-! ### Consuming -/

theorem valid_retrieveAll (hb : b.Valid) : b.retrieveAll.Valid := by
  have := hb.prepend_le_reader
  have := hb.reader_le_writer
  have := hb.writer_le_size
  constructor <;> simp only [retrieveAll, size] at * <;> omega

@[simp]
theorem content_retrieveAll (b : Buffer) : b.retrieveAll.content = [] := by
  simp [content, retrieveAll, readableBytes]

theorem valid_retrieve (hb : b.Valid) (len : Nat) : (b.retrieve len).Valid := by
  unfold retrieve
  split
  · rename_i hlt
    have := hb.prepend_le_reader
    have := hb.writer_le_size
    simp only [readableBytes] at hlt
    constructor <;> simp only [size] at * <;> omega
  · exact valid_retrieveAll hb

theorem content_retrieve (hb : b.Valid) (len : Nat) :
    (b.retrieve len).content = b.content.drop len := by
  unfold retrieve
  split
  · rename_i hlt
    simp only [content, readableBytes]
    rw [slice_drop, Nat.sub_add_eq]
  · rename_i hge
    rw [content_retrieveAll, List.drop_eq_nil_of_le]
    rw [length_content hb]
    omega

theorem peekString_eq_take (len : Nat) (h : len ≤ b.readableBytes) :
    (b.peekString len).1 = b.content.take len := by
  simp only [peekString, content]
  rw [slice_take _ _ h]

/-! ### Making room

The guard of `makeSpace` decides between growing the vector and moving the readable bytes down. The
move never goes up, so a forward copy is sound however the two areas overlap, and the guard leaves
enough room behind the moved bytes. -/

theorem getElem?_resize {mem : List Byte} {n i : Nat} (hlen : mem.length ≤ n)
    (hi : i < mem.length) : (resize mem n)[i]? = mem[i]? := by
  simp only [resize]
  rw [List.take_of_length_le hlen, List.getElem?_append_left hi]

theorem length_resize (mem : List Byte) (n : Nat) : (resize mem n).length = n := by
  simp [resize]
  omega

/-- What `makeSpace` and its callers promise, once the vector and the indices are sound. -/
structure MadeSpace (b after : Buffer) (len : Nat) (accesses : List Access) : Prop where
  valid : after.Valid
  content_eq : after.content = b.content
  room : len ≤ after.writableBytes
  size_le : b.size ≤ after.size
  inBounds : Access.InBounds after.size accesses
  readsFresh : Access.ReadsFresh accesses

/-- Growing: `writerIndex + len` is past the old end, so nothing is cut off. -/
theorem grow_spec (hb : b.Valid) {len : Nat} (hlen : b.writableBytes < len) :
    MadeSpace b { b with buffer := resize b.buffer (b.writerIndex + len) } len [] := by
  have hreader := hb.reader_le_writer
  have hwriter := hb.writer_le_size
  have hgrow : b.buffer.length ≤ b.writerIndex + len := by
    simp only [writableBytes, size] at hlen
    omega
  refine ⟨⟨hb.prepend_le_reader, hreader, ?_⟩, ?_, ?_, ?_, Access.inBounds_nil _,
    Access.readsFresh_nil⟩
  · simp only [size, length_resize]
    exact Nat.le_add_right _ _
  · refine slice_congr fun i _ hi => getElem?_resize hgrow ?_
    simp only [readableBytes, size] at hi hwriter
    omega
  · simp only [writableBytes, size, length_resize]
    omega
  · simpa only [size, length_resize] using hgrow

/-- Moving: the readable bytes go down to `kCheapPrepend`. -/
theorem move_spec (hb : b.Valid) {len : Nat}
    (hguard : ¬b.writableBytes + b.prependableBytes < len + kCheapPrepend) :
    let moved := copyWithin 0 b.buffer b.readerIndex kCheapPrepend b.readableBytes
    MadeSpace b
      { buffer := moved.1
        readerIndex := kCheapPrepend
        writerIndex := kCheapPrepend + b.readableBytes } len moved.2 := by
  have hreader := hb.reader_le_writer
  have hwriter := hb.writer_le_size
  have hdown : kCheapPrepend ≤ b.readerIndex := hb.prepend_le_reader
  have hsrc : b.readerIndex + b.readableBytes ≤ b.buffer.length := by
    simp only [size, readableBytes] at *
    omega
  have hdst : kCheapPrepend + b.readableBytes ≤ b.buffer.length := by omega
  refine ⟨⟨le_rfl, Nat.le_add_right _ _, ?_⟩, ?_, ?_, ?_, ?_, ?_⟩
  · simpa only [size, length_copyWithin] using hdst
  · simp only [content, readableBytes, Nat.add_sub_cancel_left]
    exact slice_copyWithin 0 b.buffer _ _ _ hdown hsrc
  · simp only [writableBytes, prependableBytes, readableBytes, size, length_copyWithin] at *
    omega
  · simp only [size, length_copyWithin, le_refl]
  · simpa only [size, length_copyWithin] using copyWithin_inBounds 0 b.buffer _ _ _ hsrc hdst
  · exact copyWithin_readsFresh 0 b.buffer _ _ _ hdown

theorem makeSpace_spec (hb : b.Valid) {len : Nat} (hlen : b.writableBytes < len) :
    MadeSpace b (b.makeSpace len).1 len (b.makeSpace len).2 := by
  unfold makeSpace
  split
  · exact grow_spec hb hlen
  · rename_i hguard
    exact move_spec hb hguard

theorem ensureWritableBytes_spec (hb : b.Valid) (len : Nat) :
    MadeSpace b (b.ensureWritableBytes len).1 len (b.ensureWritableBytes len).2 := by
  unfold ensureWritableBytes
  split
  · rename_i hlt
    exact makeSpace_spec hb hlt
  · rename_i hge
    exact ⟨hb, rfl, Nat.le_of_not_lt hge, le_rfl, Access.inBounds_nil _, Access.readsFresh_nil⟩

/-! ### Appending -/

theorem readsFresh_append_writes {accesses : List Access} (h : Access.ReadsFresh accesses)
    (indices : List Nat) : Access.ReadsFresh (accesses ++ indices.map Access.write) := by
  refine List.pairwise_append.mpr ⟨h, ?_, ?_⟩
  · refine List.pairwise_map.mpr (List.pairwise_of_forall ?_)
    intro _ _
    rintro ⟨i, -, hread⟩
    cases hread
  · rintro earlier - later hlater ⟨i, -, rfl⟩
    simp at hlater

theorem content_write (hb : b.Valid) {data : List Byte} (hroom : data.length ≤ b.writableBytes)
    {after : Buffer} (hbuffer : after.buffer = (copyIn b.buffer b.writerIndex data).1)
    (hreader : after.readerIndex = b.readerIndex)
    (hwriter : after.writerIndex = b.writerIndex + data.length) :
    after.content = b.content ++ data := by
  have hle := hb.reader_le_writer
  have hsize := hb.writer_le_size
  have hfit : b.writerIndex + data.length ≤ b.buffer.length := by
    simp only [writableBytes, size] at hroom hsize
    omega
  have hsplit : after.readableBytes = b.readableBytes + data.length := by
    simp only [readableBytes, hreader, hwriter]
    omega
  have hend : b.readerIndex + b.readableBytes = b.writerIndex := by
    simp only [readableBytes]
    omega
  calc after.content
      = slice after.buffer b.readerIndex b.readableBytes
          ++ slice after.buffer b.writerIndex data.length := by
        rw [content, hsplit, hreader, ← slice_append_slice, hend]
    _ = b.content ++ data := by
        rw [hbuffer, slice_copyIn _ _ _ hfit, content]
        congr 1
        apply slice_congr
        intro i _ hi
        exact getElem?_copyIn_of_lt _ _ _ (by omega)

theorem append_spec (hb : b.Valid) (data : List Byte) :
    (b.append data).1.Valid ∧ (b.append data).1.content = b.content ++ data ∧
      Access.InBounds (b.append data).1.size (b.append data).2 ∧
      Access.ReadsFresh (b.append data).2 := by
  have hready := ensureWritableBytes_spec hb data.length
  set ready := b.ensureWritableBytes data.length with hdef
  have hvalid := hready.valid
  have hroom := hready.room
  have hfit : ready.1.writerIndex + data.length ≤ ready.1.buffer.length := by
    have := hvalid.writer_le_size
    simp only [writableBytes, size] at hroom this
    omega
  have hsize : (b.append data).1.size = ready.1.size := by
    simp [append, size, ← hdef]
  have haccesses : (b.append data).2
      = ready.2 ++ (copyIn ready.1.buffer ready.1.writerIndex data).2 := rfl
  refine ⟨⟨hvalid.prepend_le_reader, ?_, ?_⟩, ?_, ?_, ?_⟩
  · exact hvalid.reader_le_writer.trans (Nat.le_add_right _ _)
  · rw [hsize]
    exact hfit
  · have hwrite : (b.append data).1.content = ready.1.content ++ data :=
      content_write hvalid hroom rfl rfl rfl
    rw [hwrite, hready.content_eq]
  · rw [hsize, haccesses]
    intro access hmem
    rcases List.mem_append.mp hmem with hmem | hmem
    · exact hready.inBounds access hmem
    · exact copyIn_inBounds _ _ _ hfit access hmem
  · rw [haccesses, copyIn_accesses]
    exact readsFresh_append_writes hready.readsFresh _

/-! ### Every run of the member functions -/

inductive Call where
  | append (data : List Byte)
  | retrieve (len : Nat)
  | retrieveAll
  | retrieveAsString (len : Nat)
  | retrieveAllAsString
  | ensureWritableBytes (len : Nat)
  deriving DecidableEq, Repr

/-- The buffer after a call, the string returned (empty for a `void` function) and the accesses to
the vector. -/
structure Outcome where
  after : Buffer
  result : List Byte
  accesses : List Access
  deriving DecidableEq, Repr

namespace Call

/-- `retrieveAsString(len)` asks its caller for `len <= readableBytes()`. -/
def allowed (b : Buffer) : Call → Bool
  | retrieveAsString len => len ≤ b.readableBytes
  | _ => true

def outcome (b : Buffer) : Call → Outcome
  | append data => ⟨(b.append data).1, [], (b.append data).2⟩
  | retrieve len => ⟨b.retrieve len, [], []⟩
  | retrieveAll => ⟨b.retrieveAll, [], []⟩
  | retrieveAsString len =>
      ⟨(b.retrieveAsString len).1.2, (b.retrieveAsString len).1.1, (b.retrieveAsString len).2⟩
  | retrieveAllAsString =>
      ⟨b.retrieveAllAsString.1.2, b.retrieveAllAsString.1.1, b.retrieveAllAsString.2⟩
  | ensureWritableBytes len => ⟨(b.ensureWritableBytes len).1, [], (b.ensureWritableBytes len).2⟩

/-- What the call means for a queue of bytes: the queue afterwards and the bytes handed out. -/
def onQueue (queue : List Byte) : Call → List Byte × List Byte
  | append data => (queue ++ data, [])
  | retrieve len => (queue.drop (min len queue.length), [])
  | retrieveAll => ([], [])
  | retrieveAsString len => (queue.drop len, queue.take len)
  | retrieveAllAsString => ([], queue)
  | ensureWritableBytes _ => (queue, [])

/-- The room that the call promises behind `writerIndex`. -/
def promisedRoom : Call → Nat
  | ensureWritableBytes len => len
  | _ => 0

end Call

/-- One call is right: it acts on the content as on a queue, leaves a sound buffer with the promised
room, and its accesses stay inside the vector and never follow a write to the same element. -/
structure Outcome.Correct (b : Buffer) (call : Call) (outcome : Outcome) : Prop where
  valid : outcome.after.Valid
  content_eq : outcome.after.content = (call.onQueue b.content).1
  result_eq : outcome.result = (call.onQueue b.content).2
  room : call.promisedRoom ≤ outcome.after.writableBytes
  inBounds : Access.InBounds outcome.after.size outcome.accesses
  readsFresh : Access.ReadsFresh outcome.accesses

@[simp]
theorem size_retrieve (b : Buffer) (len : Nat) : (b.retrieve len).size = b.size := by
  unfold retrieve
  split <;> rfl

theorem peekString_inBounds (hb : b.Valid) {len : Nat} (hlen : len ≤ b.readableBytes) :
    Access.InBounds b.size (b.peekString len).2 := by
  intro access hmem
  obtain ⟨i, hi, rfl⟩ := List.mem_map.mp hmem
  have := (List.mem_range'_1.mp hi).2
  have := hb.reader_le_writer
  have := hb.writer_le_size
  simp only [readableBytes, Access.index] at *
  omega

theorem peekString_readsFresh (b : Buffer) (len : Nat) :
    Access.ReadsFresh (b.peekString len).2 := by
  refine List.pairwise_map.mpr (List.pairwise_of_forall ?_)
  intro _ _
  rintro ⟨i, hwrite, -⟩
  cases hwrite

theorem retrieveAsString_correct (hb : b.Valid) {len : Nat} (hlen : len ≤ b.readableBytes) :
    (Call.outcome b (.retrieveAsString len)).Correct b (.retrieveAsString len) := by
  refine ⟨valid_retrieve hb len, content_retrieve hb len, peekString_eq_take len hlen,
    Nat.zero_le _, ?_, peekString_readsFresh b len⟩
  simpa only [Call.outcome, retrieveAsString, size_retrieve] using peekString_inBounds hb hlen

theorem outcome_correct (hb : b.Valid) {call : Call} (hallowed : call.allowed b = true) :
    (call.outcome b).Correct b call := by
  cases call with
  | append data =>
      obtain ⟨hvalid, hcontent, hbounds, hfresh⟩ := append_spec hb data
      exact ⟨hvalid, hcontent, rfl, Nat.zero_le _, hbounds, hfresh⟩
  | retrieve len =>
      refine ⟨valid_retrieve hb len, ?_, rfl, Nat.zero_le _, Access.inBounds_nil _,
        Access.readsFresh_nil⟩
      simp only [Call.outcome, Call.onQueue, content_retrieve hb, List.drop_eq_drop_iff]
      omega
  | retrieveAll =>
      exact ⟨valid_retrieveAll hb, content_retrieveAll b, rfl, Nat.zero_le _,
        Access.inBounds_nil _, Access.readsFresh_nil⟩
  | retrieveAsString len => exact retrieveAsString_correct hb (by simpa [Call.allowed] using hallowed)
  | retrieveAllAsString =>
      have hlen := length_content hb
      obtain ⟨hvalid, hcontent, hresult, -, hbounds, hfresh⟩ :=
        retrieveAsString_correct hb (le_refl b.readableBytes)
      refine ⟨hvalid, ?_, ?_, Nat.zero_le _, hbounds, hfresh⟩
      · exact hcontent.trans (List.drop_eq_nil_of_le hlen.le)
      · exact hresult.trans (List.take_of_length_le hlen.le)
  | ensureWritableBytes len =>
      have hspec := ensureWritableBytes_spec hb len
      exact ⟨hspec.valid, hspec.content_eq, rfl, hspec.room, hspec.inBounds, hspec.readsFresh⟩

def calls : System Buffer Call where
  init b := ∃ initalSize, b = new initalSize
  step b call := if call.allowed b then some (call.outcome b).after else none

theorem calls_step {after : Buffer} {call : Call} (h : calls.step b call = some after) :
    call.allowed b = true ∧ after = (call.outcome b).after := by
  simp only [calls] at h
  split at h
  · exact ⟨‹_›, by simpa using h.symm⟩
  · cases h

/-- **The buffer is a byte queue.** After any calls the content is that of a queue that ran the same
calls, and the next call, whatever it is, is right. -/
theorem run_refines_queue {initalSize : Nat} {history : List Call}
    (hrun : calls.Run (new initalSize) history b) :
    b.Valid ∧ b.content = history.foldl (fun queue call => (call.onQueue queue).1) [] ∧
      ∀ call : Call, call.allowed b = true → (call.outcome b).Correct b call := by
  have hinv : b.Valid ∧
      b.content = history.foldl (fun queue call => (call.onQueue queue).1) [] := by
    refine hrun.history (P := fun history b => b.Valid ∧
      b.content = history.foldl (fun queue call => (call.onQueue queue).1) []) ?_ ?_
    · exact ⟨valid_new initalSize, content_new initalSize⟩
    · rintro history b call after ⟨hb, hcontent⟩ - hstep
      obtain ⟨hallowed, rfl⟩ := calls_step hstep
      have hcorrect := outcome_correct hb hallowed
      refine ⟨hcorrect.valid, ?_⟩
      rw [hcorrect.content_eq, List.foldl_append, ← hcontent]
      rfl
  exact ⟨hinv.1, hinv.2, fun call hallowed => outcome_correct hinv.1 hallowed⟩

theorem run_refines_queue_compaction :
    (new 4).Valid ∧ ∃ b : Buffer, b.Valid ∧ b.content = [2, 3] ∧
      ((Call.append [7, 8]).outcome b).after.content = [2, 3, 7, 8] ∧
      ((Call.append [7, 8]).outcome b).accesses ≠ [] := by
  have hrun : calls.Run (new 4) [.append [0, 1, 2, 3], .retrieve 2]
      ⟨[0, 0, 0, 0, 0, 0, 0, 0, 0, 1, 2, 3], 10, 12⟩ := System.run_of_exec (by rfl)
  obtain ⟨hvalid, hcontent, hnext⟩ := run_refines_queue hrun
  refine ⟨valid_new 4, _, hvalid, hcontent, ?_, by decide⟩
  have := (hnext (.append [7, 8]) rfl).content_eq
  rwa [hcontent] at this

end Buffer

end MuduoCore
