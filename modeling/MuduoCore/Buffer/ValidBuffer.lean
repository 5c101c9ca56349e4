import MuduoCore.Buffer.Fifo

/-!
# Sound buffers

A buffer together with its representation invariant. Every member function of `Buffer` keeps the
invariant, so it lifts; what the connections need of a buffer is then four equations about its
content, none of them with a hypothesis.
-/

namespace MuduoCore

structure ValidBuffer where
  raw : Buffer
  valid : raw.Valid

namespace Buffer

variable {b : Buffer}

/-- When the bytes do not fit, `readFd` first counts the whole writable area as written and then
appends the others. -/
theorem readFdOk_of_overflow (hb : b.Valid) {data : List Byte}
    (hover : ¬data.length ≤ b.writableBytes) :
    ∃ full : Buffer, full.Valid ∧ full.size = b.size ∧
      full.content = b.content ++ data.take b.writableBytes ∧
      (b.readFdOk data).1 = (full.append (data.drop b.writableBytes)).1 := by
  have hreader := hb.reader_le_writer
  have hwriter := hb.writer_le_size
  set filled := copyIn b.buffer b.writerIndex (data.take b.writableBytes) with hfilled
  set full : Buffer := { b with buffer := filled.1, writerIndex := b.size } with hfull
  have hlen : (data.take b.writableBytes).length = b.writableBytes := by
    rw [List.length_take]
    omega
  have hsize : full.size = b.size := by
    simp only [hfull, hfilled, size, length_copyIn]
  refine ⟨full, ⟨hb.prepend_le_reader, hreader.trans hwriter, hsize.ge⟩, hsize, ?_, ?_⟩
  · refine content_write hb hlen.le rfl rfl ?_
    simp only [hfull, hlen, writableBytes, size] at *
    omega
  · simp only [readFdOk, hover, if_false, hfull, hfilled]

/-- `readv` writes behind `writerIndex` only, and the two branches of `readFd` account for its bytes
as one `append` would. -/
theorem readFdOk_spec (hb : b.Valid) (data : List Byte) :
    (b.readFdOk data).1.Valid ∧ (b.readFdOk data).1.content = b.content ++ data := by
  by_cases hfits : data.length ≤ b.writableBytes
  · set filled := copyIn b.buffer b.writerIndex (data.take b.writableBytes) with hfilled
    have hresult : (b.readFdOk data).1 =
        { b with buffer := filled.1, writerIndex := b.writerIndex + data.length } := by
      simp only [readFdOk, hfits, if_true, hfilled]
    have htake : data.take b.writableBytes = data := List.take_of_length_le hfits
    rw [hresult]
    refine ⟨⟨hb.prepend_le_reader, hb.reader_le_writer.trans (Nat.le_add_right _ _), ?_⟩, ?_⟩
    · have hwriter := hb.writer_le_size
      simp only [hfilled, size, length_copyIn, writableBytes] at *
      omega
    · exact content_write hb hfits (by rw [hfilled, htake]) rfl rfl
  · obtain ⟨full, hvalid, -, hcontent, hresult⟩ := readFdOk_of_overflow hb hfits
    obtain ⟨hafter, heq, -, -⟩ := append_spec hvalid (data.drop b.writableBytes)
    rw [hresult]
    refine ⟨hafter, ?_⟩
    rw [heq, hcontent, List.append_assoc, List.take_append_drop]

theorem valid_readFd (hb : b.Valid) (answer : Except Errno (List Byte)) :
    (b.readFd answer).1.Valid := by
  cases answer with
  | error savedErrno => exact hb
  | ok ready => exact (readFdOk_spec hb _).1

theorem extrabufSize_le_offered (b : Buffer) : extrabufSize ≤ b.offered := by
  unfold offered
  split <;> omega

/-- **`readFd` is read-then-append.** Whatever count `n` the kernel answers for the offered areas,
`readFd` returns it and leaves the content that appending those `n` bytes would leave; a failed
`readv` reports its errno and changes nothing. As something is always offered, a kernel that answers
0 only to an empty request or at the end of the stream makes a result of 0 mean the end. -/
theorem readFd_eq_append (hb : b.Valid) (stream : List Byte) :
    (∀ n, n ≤ b.offered → n ≤ stream.length →
      (b.readFd (.ok (stream.take n))).2 = .ok n ∧
      (b.readFd (.ok (stream.take n))).1.Valid ∧
      (b.readFd (.ok (stream.take n))).1.content = (b.append (stream.take n)).1.content ∧
      (b.readFd (.ok (stream.take n))).1.content = b.content ++ stream.take n ∧
      ((n = 0 → b.offered = 0 ∨ stream = []) →
        (b.readFd (.ok (stream.take n))).2 = .ok 0 → stream = [])) ∧
    (∀ savedErrno, b.readFd (.error savedErrno) = (b, .error savedErrno)) ∧
    65536 ≤ b.offered := by
  have hoffered : 65536 ≤ b.offered := extrabufSize_le_offered b
  refine ⟨?_, fun savedErrno => rfl, hoffered⟩
  intro n hn hstream
  have hlen : (stream.take n).length = n := by rw [List.length_take, min_eq_left hstream]
  have htake : (stream.take n).take b.offered = stream.take n :=
    List.take_of_length_le (hlen.trans_le hn)
  obtain ⟨hvalid, hcontent⟩ := readFdOk_spec hb (stream.take n)
  have hreturn : (b.readFd (.ok (stream.take n))).2 = .ok n := by
    simp only [readFd, htake, hlen]
  have hafter : (b.readFd (.ok (stream.take n))).1 = (b.readFdOk (stream.take n)).1 := by
    simp only [readFd, htake]
  rw [hafter]
  refine ⟨hreturn, hvalid, ?_, hcontent, ?_⟩
  · rw [hcontent, (append_spec hb (stream.take n)).2.1]
  · intro hkernel hzero
    have hn0 : n = 0 := by simpa [hreturn] using hzero
    rcases hkernel hn0 with hnone | hend
    · omega
    · exact hend

theorem readFd_eq_append_overflow :
    (new 2).Valid ∧
      ((new 2).readFd (.ok ([1, 2, 3, 4].take 3))).2 = .ok 3 ∧
      ((new 2).readFd (.ok ([1, 2, 3, 4].take 3))).1.content = (new 2).content ++ [1, 2, 3] := by
  have hoffered := extrabufSize_le_offered (new 2)
  have hspec := (readFd_eq_append (valid_new 2) [1, 2, 3, 4]).1 3
    (by simp only [extrabufSize] at hoffered; omega) (by decide)
  exact ⟨valid_new 2, hspec.1, hspec.2.2.2.1⟩

end Buffer

namespace ValidBuffer

def new (initalSize : Nat) : ValidBuffer := ⟨Buffer.new initalSize, Buffer.valid_new initalSize⟩

def readableBytes (b : ValidBuffer) : Nat := b.raw.readableBytes

def append (b : ValidBuffer) (data : List Byte) : ValidBuffer :=
  ⟨(b.raw.append data).1, (Buffer.append_spec b.valid data).1⟩

def retrieve (b : ValidBuffer) (len : Nat) : ValidBuffer :=
  ⟨b.raw.retrieve len, Buffer.valid_retrieve b.valid len⟩

def retrieveAllAsString (b : ValidBuffer) : List Byte × ValidBuffer :=
  (b.raw.retrieveAllAsString.1.1, ⟨b.raw.retrieveAllAsString.1.2, Buffer.valid_retrieve b.valid _⟩)

def readFd (b : ValidBuffer) (answer : Except Errno (List Byte)) :
    ValidBuffer × Except Errno Nat :=
  (⟨(b.raw.readFd answer).1, Buffer.valid_readFd b.valid answer⟩, (b.raw.readFd answer).2)

def content (b : ValidBuffer) : List Byte := b.raw.content

variable (b : ValidBuffer)

@[simp]
theorem content_new (initalSize : Nat) : (new initalSize).content = [] :=
  Buffer.content_new initalSize

theorem readableBytes_eq : b.readableBytes = b.content.length :=
  (Buffer.length_content b.valid).symm

@[simp]
theorem content_append (data : List Byte) : (b.append data).content = b.content ++ data :=
  (Buffer.append_spec b.valid data).2.1

@[simp]
theorem content_retrieve (len : Nat) : (b.retrieve len).content = b.content.drop len :=
  Buffer.content_retrieve b.valid len

theorem content_retrieveAllAsString : b.retrieveAllAsString.2.content = [] := by
  have hdrop := Buffer.content_retrieve b.valid b.raw.readableBytes
  rw [← Buffer.length_content b.valid, List.drop_length] at hdrop
  rw [← hdrop, Buffer.length_content b.valid]
  rfl

theorem content_readFd (ready : List Byte) :
    (b.readFd (.ok ready)).1.content = b.content ++ ready.take b.raw.offered :=
  (Buffer.readFdOk_spec b.valid _).2

theorem readFd_zero_iff (ready : List Byte) : (b.readFd (.ok ready)).2 = .ok 0 ↔ ready = [] := by
  have hpos : 0 < b.raw.offered :=
    lt_of_lt_of_le (by decide) (Buffer.extrabufSize_le_offered b.raw)
  simp only [readFd, Buffer.readFd, Except.ok.injEq, List.length_eq_zero_iff,
    List.take_eq_nil_iff, or_iff_right hpos.ne']

end ValidBuffer

end MuduoCore
