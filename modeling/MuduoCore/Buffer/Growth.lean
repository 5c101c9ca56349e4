import MuduoCore.Buffer.ValidBuffer

/-!
# The size of the vector

`makeSpace` grows the vector to `writerIndex + len` without moving the readable bytes down first, so
a dead prefix of `readerIndex` bytes is carried along. The guard bounds that prefix: it grows only
when the prefix is shorter than what is being added. So the vector is never longer than about twice
the most that was readable at any one time.
-/

namespace MuduoCore

namespace Buffer

variable {b : Buffer}

/-- `append` either fits into the vector as it is, or the guard of `makeSpace` says that the dead
prefix is no longer than the new bytes and the cheap prepend. -/
theorem size_append_le (hb : b.Valid) (data : List Byte) :
    (b.append data).1.size = b.size ∨
      (b.append data).1.size ≤ 2 * (b.readableBytes + data.length) + kCheapPrepend - 1 := by
  have hsize : (b.append data).1.size = (b.ensureWritableBytes data.length).1.size := by
    simp only [append, size, length_copyIn]
  have hreader := hb.reader_le_writer
  have hwriter := hb.writer_le_size
  rw [hsize, ensureWritableBytes]
  split
  · unfold makeSpace
    split
    · rename_i hgrow
      right
      simp only [size, length_resize, kCheapPrepend, readableBytes, writableBytes,
        prependableBytes] at *
      omega
    · left
      simp only [size, length_copyWithin]
  · left
    rfl

theorem readableBytes_append (hb : b.Valid) (data : List Byte) :
    (b.append data).1.readableBytes = b.readableBytes + data.length := by
  obtain ⟨hvalid, hcontent, -, -⟩ := append_spec hb data
  rw [← length_content hvalid, hcontent, List.length_append, length_content hb]

/-- The two branches of `readFd`: bytes that fit leave the vector alone, the others are appended to
a buffer whose writable area is full, and that `append` ends with the same bytes readable. -/
theorem size_readFdOk_le (hb : b.Valid) (data : List Byte) :
    (b.readFdOk data).1.size = b.size ∨
      (b.readFdOk data).1.size
        ≤ 2 * (b.readFdOk data).1.readableBytes + kCheapPrepend - 1 := by
  by_cases hfits : data.length ≤ b.writableBytes
  · left
    simp only [readFdOk, hfits, if_true, size, length_copyIn]
  · obtain ⟨full, hvalid, hsize, -, hresult⟩ := readFdOk_of_overflow hb hfits
    rw [hresult, readableBytes_append hvalid, ← hsize]
    exact size_append_le hvalid _

/-! ### Runs -/

/-- The member functions that the connections call, with the answer of `::readv` for `readFd`. -/
inductive IoCall where
  | append (data : List Byte)
  | readFd (answer : Except Errno (List Byte))
  | retrieve (len : Nat)
  | retrieveAll
  | retrieveAsString (len : Nat)
  | retrieveAllAsString

def IoCall.after (b : Buffer) : IoCall → Buffer
  | append data => (b.append data).1
  | readFd answer => (b.readFd answer).1
  | retrieve len => b.retrieve len
  | retrieveAll => b.retrieveAll
  | retrieveAsString len => (b.retrieveAsString len).1.2
  | retrieveAllAsString => b.retrieveAllAsString.1.2

def ioCalls : System Buffer IoCall where
  init b := ∃ initalSize, b = new initalSize
  step b call := some (call.after b)

/-- `ioCalls` with the values that `readableBytes()` takes after the calls. -/
def ioCallsWithLengths : System (Buffer × List Nat) IoCall :=
  ioCalls.recording fun _ _ after => [after.readableBytes]

/-- One call keeps the buffer sound, and grows the vector only up to the bound that the bytes
readable afterwards allow. -/
theorem ioCall_spec (hb : b.Valid) (call : IoCall) :
    (call.after b).Valid ∧
      ((call.after b).size = b.size ∨
        (call.after b).size ≤ 2 * (call.after b).readableBytes + kCheapPrepend - 1) := by
  cases call with
  | append data =>
      refine ⟨(append_spec hb data).1, ?_⟩
      simp only [IoCall.after]
      rw [readableBytes_append hb]
      exact size_append_le hb data
  | readFd answer =>
      refine ⟨valid_readFd hb answer, ?_⟩
      cases answer with
      | error savedErrno => exact .inl rfl
      | ok ready => exact size_readFdOk_le hb (ready.take b.offered)
  | retrieve len => exact ⟨valid_retrieve hb len, .inl (size_retrieve b len)⟩
  | retrieveAll => exact ⟨valid_retrieveAll hb, .inl rfl⟩
  | retrieveAsString len => exact ⟨valid_retrieve hb len, .inl (size_retrieve b len)⟩
  | retrieveAllAsString => exact ⟨valid_retrieve hb _, .inl (size_retrieve b _)⟩

/-- **Memory is proportional to the live data.** After any calls the vector is no longer than it
was built, or than twice the largest number of readable bytes so far and seven. -/
theorem size_le_twice_peak {initalSize : Nat} {history : List IoCall} {lengths : List Nat}
    (hrun : ioCallsWithLengths.Run (new initalSize, []) history (b, lengths)) :
    b.size ≤ max (kCheapPrepend + initalSize) (2 * lengths.foldl max 0 + kCheapPrepend - 1) := by
  have hinv : b.Valid ∧ b.size ≤
      max (kCheapPrepend + initalSize) (2 * lengths.foldl max 0 + kCheapPrepend - 1) := by
    refine hrun.invariant (I := fun v => v.1.Valid ∧ v.1.size ≤
      max (kCheapPrepend + initalSize) (2 * v.2.foldl max 0 + kCheapPrepend - 1)) ?_ ?_
    · refine ⟨valid_new initalSize, le_trans ?_ (le_max_left _ _)⟩
      simp only [new, size, List.length_replicate, le_refl]
    · intro v call w hv _ hstep
      obtain ⟨hafter, hlengths⟩ := System.recording_step hstep
      obtain ⟨hvalid, hsize⟩ := ioCall_spec hv.1 call
      have hcall : w.1 = call.after v.1 := (Option.some.inj hafter).symm
      have hpeak : w.2.foldl max 0 = max (v.2.foldl max 0) w.1.readableBytes := by
        rw [hlengths, List.foldl_append, List.foldl_cons, List.foldl_nil]
      have hbound := hv.2
      rw [← hcall] at hvalid hsize
      refine ⟨hvalid, ?_⟩
      rw [hpeak]
      simp only [kCheapPrepend] at hbound hsize ⊢
      omega
  exact hinv.2

theorem size_le_twice_peak_carriedPrefix :
    ∃ b : Buffer, ∃ lengths : List Nat, b.size = 14 ∧ lengths = [4, 3, 5] ∧
      b.size ≤ max (kCheapPrepend + 4) (2 * lengths.foldl max 0 + kCheapPrepend - 1) := by
  have hrun : ioCallsWithLengths.Run (new 4, [])
      [.append [1, 2, 3, 4], .retrieve 1, .readFd (.ok [5, 6])] (_, _) :=
    System.run_of_exec (by rfl)
  exact ⟨_, _, by decide, by decide, size_le_twice_peak hrun⟩

end Buffer

end MuduoCore
