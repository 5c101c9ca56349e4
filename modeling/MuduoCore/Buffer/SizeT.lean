import MuduoCore.Buffer.ValidBuffer
import Mathlib.Algebra.Group.Nat.Defs

/-!
# The arithmetic of `size_t`

The same member functions with 64-bit indices, whose sums wrap around, and with a vector that throws
when it is asked for more than `max_size()`. Where no sum wraps they do what the functions on natural
numbers do, so what is known of those carries over; where `writerIndex + len` wraps, the room that
`ensureWritableBytes` promises is not there.
-/

namespace MuduoCore

/-- `std::vector<char>::max_size()`: some value of `ptrdiff_t`. -/
structure MaxSize where
  val : Nat
  kCheapPrepend_le : Buffer.kCheapPrepend ≤ val
  lt : val < 2 ^ 63

/-- `std::length_error`. -/
inductive Thrown where
  | lengthError
  deriving DecidableEq, Repr

/-- `std::vector<char>`. -/
structure CharVector (limit : MaxSize) where
  mem : List Byte
  length_le : mem.length ≤ limit.val

namespace CharVector

variable {limit : MaxSize}

def size (v : CharVector limit) : UInt64 := UInt64.ofNat v.mem.length

/-- `std::vector<char>(n)`. -/
def make (n : UInt64) : Except Thrown (CharVector limit) :=
  if h : n.toNat ≤ limit.val then
    .ok ⟨List.replicate n.toNat 0, by rwa [List.length_replicate]⟩
  else .error .lengthError

def resize (v : CharVector limit) (n : UInt64) : Except Thrown (CharVector limit) :=
  if h : n.toNat ≤ limit.val then
    .ok ⟨Buffer.resize v.mem n.toNat, by rwa [Buffer.length_resize]⟩
  else .error .lengthError

def copyIn (v : CharVector limit) (dest : UInt64) (data : List Byte) : CharVector limit :=
  ⟨(MuduoCore.copyIn v.mem dest.toNat data).1, by rw [length_copyIn]; exact v.length_le⟩

def copyWithin (v : CharVector limit) (first dest n : UInt64) : CharVector limit :=
  ⟨(MuduoCore.copyWithin 0 v.mem first.toNat dest.toNat n.toNat).1, by
    rw [length_copyWithin]; exact v.length_le⟩

theorem length_lt (v : CharVector limit) : v.mem.length < 2 ^ 63 := v.length_le.trans_lt limit.lt

theorem toNat_size (v : CharVector limit) : v.size.toNat = v.mem.length := by
  have hlt := v.length_lt
  exact UInt64.toNat_ofNat_of_lt' (hlt.trans (by decide))

theorem resize_of_le {v : CharVector limit} {n : UInt64} (h : n.toNat ≤ limit.val) :
    v.resize n = .ok ⟨Buffer.resize v.mem n.toNat, by rwa [Buffer.length_resize]⟩ :=
  dif_pos h

end CharVector

/-- `Buffer` with its indices as the machine has them. -/
structure SizedBuffer (limit : MaxSize) where
  buffer : CharVector limit
  readerIndex : UInt64
  writerIndex : UInt64

namespace SizedBuffer

variable {limit : MaxSize}

def kCheapPrepend : UInt64 := 8

def new (initalSize : UInt64) : Except Thrown (SizedBuffer limit) :=
  (CharVector.make (kCheapPrepend + initalSize)).map fun buffer =>
    { buffer := buffer, readerIndex := kCheapPrepend, writerIndex := kCheapPrepend }

def readableBytes (b : SizedBuffer limit) : UInt64 := b.writerIndex - b.readerIndex

def writableBytes (b : SizedBuffer limit) : UInt64 := b.buffer.size - b.writerIndex

def prependableBytes (b : SizedBuffer limit) : UInt64 := b.readerIndex

def retrieveAll (b : SizedBuffer limit) : SizedBuffer limit :=
  { b with readerIndex := kCheapPrepend, writerIndex := kCheapPrepend }

def retrieve (b : SizedBuffer limit) (len : UInt64) : SizedBuffer limit :=
  if len < b.readableBytes then
    { b with readerIndex := b.readerIndex + len }
  else
    b.retrieveAll

def retrieveAsString (b : SizedBuffer limit) (len : UInt64) : List Byte × SizedBuffer limit :=
  (slice b.buffer.mem b.readerIndex.toNat len.toNat, b.retrieve len)

def retrieveAllAsString (b : SizedBuffer limit) : List Byte × SizedBuffer limit :=
  b.retrieveAsString b.readableBytes

/-- The buffer afterwards, also when the call throws. -/
def makeSpace (b : SizedBuffer limit) (len : UInt64) : SizedBuffer limit × Except Thrown Unit :=
  if b.writableBytes + b.prependableBytes < len + kCheapPrepend then
    match b.buffer.resize (b.writerIndex + len) with
    | .error thrown => (b, .error thrown)
    | .ok grown => ({ b with buffer := grown }, .ok ())
  else
    let readable := b.readableBytes
    ({ buffer := b.buffer.copyWithin b.readerIndex kCheapPrepend readable
       readerIndex := kCheapPrepend
       writerIndex := kCheapPrepend + readable }, .ok ())

def ensureWritableBytes (b : SizedBuffer limit) (len : UInt64) :
    SizedBuffer limit × Except Thrown Unit :=
  if b.writableBytes < len then b.makeSpace len else (b, .ok ())

def append (b : SizedBuffer limit) (data : List Byte) : SizedBuffer limit × Except Thrown Unit :=
  let len := UInt64.ofNat data.length
  match b.ensureWritableBytes len with
  | (after, .error thrown) => (after, .error thrown)
  | (ready, .ok ()) =>
      ({ ready with
          buffer := ready.buffer.copyIn ready.writerIndex data
          writerIndex := ready.writerIndex + len }, .ok ())

def offered (b : SizedBuffer limit) : Nat :=
  if b.writableBytes.toNat < Buffer.extrabufSize then
    b.writableBytes.toNat + Buffer.extrabufSize
  else b.writableBytes.toNat

/-- `readFd`: what `append` throws passes through it, otherwise it returns an errno or the count. -/
def readFd (b : SizedBuffer limit) :
    Except Errno (List Byte) → SizedBuffer limit × Except Thrown (Except Errno UInt64)
  | .error savedErrno => (b, .ok (.error savedErrno))
  | .ok ready =>
      let data := ready.take b.offered
      let n := UInt64.ofNat data.length
      let writable := b.writableBytes
      let filled := b.buffer.copyIn b.writerIndex (data.take writable.toNat)
      if n ≤ writable then
        ({ b with buffer := filled, writerIndex := b.writerIndex + n }, .ok (.ok n))
      else
        let full : SizedBuffer limit := { b with buffer := filled, writerIndex := b.buffer.size }
        let rest := full.append (data.drop writable.toNat)
        (rest.1, rest.2.map fun _ => .ok n)

def content (b : SizedBuffer limit) : List Byte :=
  slice b.buffer.mem b.readerIndex.toNat b.readableBytes.toNat

/-! ### What the functions promise -/

/-- `readerIndex_ <= writerIndex_ <= buffer_.size()`. -/
def IndicesOrdered (b : SizedBuffer limit) : Prop :=
  b.readerIndex ≤ b.writerIndex ∧ b.writerIndex ≤ b.buffer.size

def NewSafe (limit : MaxSize) (initalSize : UInt64) : Prop :=
  match (new initalSize : Except Thrown (SizedBuffer limit)) with
  | .error _ => True
  | .ok b => b.IndicesOrdered

def EnsureSafe (b : SizedBuffer limit) (len : UInt64) : Prop :=
  match b.ensureWritableBytes len with
  | (after, .error _) => after = b
  | (after, .ok ()) =>
      len ≤ after.writableBytes ∧ after.content = b.content ∧ after.IndicesOrdered

/-! ### Where nothing wraps -/

/-- The same buffer with its indices read as natural numbers. -/
def toBuffer (b : SizedBuffer limit) : Buffer :=
  { buffer := b.buffer.mem
    readerIndex := b.readerIndex.toNat
    writerIndex := b.writerIndex.toNat }

abbrev Sound (b : SizedBuffer limit) : Prop := b.toBuffer.Valid

theorem toNat_add_of_lt {a b : UInt64} (h : a.toNat + b.toNat < 2 ^ 64) :
    (a + b).toNat = a.toNat + b.toNat := by
  rw [UInt64.toNat_add, Nat.mod_eq_of_lt h]

theorem toNat_kCheapPrepend : kCheapPrepend.toNat = Buffer.kCheapPrepend := rfl

variable {b : SizedBuffer limit}

theorem toNat_readableBytes (hb : b.Sound) : b.readableBytes.toNat = b.toBuffer.readableBytes :=
  UInt64.toNat_sub_of_le _ _ (UInt64.le_iff_toNat_le.mpr hb.reader_le_writer)

theorem toNat_writableBytes (hb : b.Sound) : b.writableBytes.toNat = b.toBuffer.writableBytes := by
  have hle : b.writerIndex ≤ b.buffer.size := by
    rw [UInt64.le_iff_toNat_le, b.buffer.toNat_size]
    exact hb.writer_le_size
  rw [writableBytes, UInt64.toNat_sub_of_le _ _ hle, b.buffer.toNat_size]
  rfl

theorem content_toBuffer (hb : b.Sound) : b.content = b.toBuffer.content := by
  rw [content, toNat_readableBytes hb]
  rfl

theorem indicesOrdered_iff :
    b.IndicesOrdered ↔ b.readerIndex.toNat ≤ b.writerIndex.toNat ∧
      b.writerIndex.toNat ≤ b.buffer.mem.length := by
  rw [IndicesOrdered, UInt64.le_iff_toNat_le, UInt64.le_iff_toNat_le, b.buffer.toNat_size]

/-- The left side of the guard of `makeSpace` never wraps: both areas lie in the vector. -/
theorem toNat_room (hb : b.Sound) :
    (b.writableBytes + b.prependableBytes).toNat
      = b.toBuffer.writableBytes + b.toBuffer.prependableBytes := by
  have hreader := hb.reader_le_writer
  have hwriter := hb.writer_le_size
  have hlt := b.buffer.length_lt
  have hsum : b.toBuffer.writableBytes + b.readerIndex.toNat < 2 ^ 64 := by
    simp only [Buffer.writableBytes, Buffer.size, toBuffer] at *
    omega
  rw [← toNat_writableBytes hb] at hsum ⊢
  exact toNat_add_of_lt hsum

/-- Without a wrap-around `makeSpace` throws and changes nothing, or does what it does on natural
numbers. -/
theorem makeSpace_spec (hb : b.Sound) {len : UInt64}
    (hwrap : b.writerIndex.toNat + len.toNat < 2 ^ 64) :
    b.makeSpace len = (b, .error .lengthError) ∨
      ((b.makeSpace len).2 = .ok () ∧
        (b.makeSpace len).1.toBuffer = (b.toBuffer.makeSpace len.toNat).1) := by
  have hprepend : Buffer.kCheapPrepend ≤ b.writerIndex.toNat :=
    hb.prepend_le_reader.trans hb.reader_le_writer
  have hreadable := toNat_readableBytes hb
  have hlen : (len + kCheapPrepend).toNat = len.toNat + Buffer.kCheapPrepend := by
    apply toNat_add_of_lt
    rw [toNat_kCheapPrepend]
    omega
  have hguard : b.writableBytes + b.prependableBytes < len + kCheapPrepend ↔
      b.toBuffer.writableBytes + b.toBuffer.prependableBytes
        < len.toNat + Buffer.kCheapPrepend := by
    rw [UInt64.lt_iff_toNat_lt, toNat_room hb, hlen]
  unfold makeSpace Buffer.makeSpace
  by_cases hgrow : b.toBuffer.writableBytes + b.toBuffer.prependableBytes
      < len.toNat + Buffer.kCheapPrepend
  · have htarget : (b.writerIndex + len).toNat = b.writerIndex.toNat + len.toNat :=
      toNat_add_of_lt hwrap
    rw [if_pos (hguard.mpr hgrow), if_pos hgrow]
    by_cases hmax : (b.writerIndex + len).toNat ≤ limit.val
    · right
      simp only [CharVector.resize_of_le hmax, toBuffer, htarget, and_self]
    · left
      rw [CharVector.resize, dif_neg hmax]
  · right
    have hwriter : (kCheapPrepend + b.readableBytes).toNat
        = Buffer.kCheapPrepend + b.toBuffer.readableBytes := by
      rw [toNat_add_of_lt, hreadable, toNat_kCheapPrepend]
      have hlt := b.buffer.length_lt
      have hreader := hb.prepend_le_reader
      have hsize := hb.writer_le_size
      rw [hreadable, toNat_kCheapPrepend]
      simp only [Buffer.readableBytes, Buffer.size, toBuffer] at *
      omega
    rw [if_neg (fun h => hgrow (hguard.mp h)), if_neg hgrow]
    refine ⟨rfl, ?_⟩
    simp only [toBuffer, CharVector.copyWithin, hreadable, hwriter, toNat_kCheapPrepend]

theorem ensureWritableBytes_spec (hb : b.Sound) {len : UInt64}
    (hwrap : b.writerIndex.toNat + len.toNat < 2 ^ 64) :
    b.ensureWritableBytes len = (b, .error .lengthError) ∨
      ((b.ensureWritableBytes len).2 = .ok () ∧
        (b.ensureWritableBytes len).1.toBuffer
          = (b.toBuffer.ensureWritableBytes len.toNat).1) := by
  have hguard : b.writableBytes < len ↔ b.toBuffer.writableBytes < len.toNat := by
    rw [UInt64.lt_iff_toNat_lt, toNat_writableBytes hb]
  unfold ensureWritableBytes Buffer.ensureWritableBytes
  by_cases hlt : b.toBuffer.writableBytes < len.toNat
  · rw [if_pos (hguard.mpr hlt), if_pos hlt]
    exact makeSpace_spec hb hwrap
  · rw [if_neg (fun h => hlt (hguard.mp h)), if_neg hlt]
    exact .inr ⟨rfl, rfl⟩

theorem indicesOrdered_of_sound (hb : b.Sound) : b.IndicesOrdered :=
  indicesOrdered_iff.mpr ⟨hb.reader_le_writer, hb.writer_le_size⟩

theorem ensureSafe_of_noWrap (hb : b.Sound) {len : UInt64}
    (hwrap : b.writerIndex.toNat + len.toNat < 2 ^ 64) : b.EnsureSafe len := by
  unfold EnsureSafe
  obtain hthrow | ⟨hok, hafter⟩ := ensureWritableBytes_spec hb hwrap
  · rw [hthrow]
  · have hspec := Buffer.ensureWritableBytes_spec hb len.toNat
    rw [← hafter] at hspec
    split
    · rename_i hresult
      rw [hresult] at hok
      cases hok
    · rename_i after hresult
      rw [hresult] at hspec
      have hvalid : after.Sound := hspec.valid
      refine ⟨?_, ?_, indicesOrdered_of_sound hvalid⟩
      · rw [UInt64.le_iff_toNat_le, toNat_writableBytes hvalid]
        exact hspec.room
      · rw [content_toBuffer hvalid, content_toBuffer hb]
        exact hspec.content_eq

/-! ### Where `writerIndex + len` wraps -/

/-- The wrapped sum shrinks the vector below `writerIndex`, or the guard's own sum wraps too and the
readable bytes are moved although that makes no room. -/
theorem not_ensureSafe_of_wrap (hb : b.Sound) {len : UInt64}
    (hwrap : 2 ^ 64 ≤ b.writerIndex.toNat + len.toNat) : ¬b.EnsureSafe len := by
  have hlen := len.toNat_lt
  have hlt := b.buffer.length_lt
  have hprepend : Buffer.kCheapPrepend ≤ b.readerIndex.toNat := hb.prepend_le_reader
  have hreader : b.readerIndex.toNat ≤ b.writerIndex.toNat := hb.reader_le_writer
  have hwriter : b.writerIndex.toNat ≤ b.buffer.mem.length := hb.writer_le_size
  have hwritable : b.writableBytes.toNat = b.buffer.mem.length - b.writerIndex.toNat :=
    toNat_writableBytes hb
  have hroom : (b.writableBytes + b.prependableBytes).toNat
      = b.buffer.mem.length - b.writerIndex.toNat + b.readerIndex.toNat := toNat_room hb
  have hshort : b.writableBytes < len := by
    rw [UInt64.lt_iff_toNat_lt, hwritable]
    omega
  have hsum : (len + kCheapPrepend).toNat = (len.toNat + 8) % 2 ^ 64 := UInt64.toNat_add _ _
  unfold EnsureSafe ensureWritableBytes makeSpace
  rw [if_pos hshort]
  simp only [Buffer.kCheapPrepend] at hprepend
  by_cases hguard : b.writableBytes + b.prependableBytes < len + kCheapPrepend
  · have htarget : (b.writerIndex + len).toNat = b.writerIndex.toNat + len.toNat - 2 ^ 64 := by
      rw [UInt64.toNat_add]
      omega
    have hfits : (b.writerIndex + len).toNat ≤ limit.val := by
      have hmax := b.buffer.length_le
      omega
    rw [if_pos hguard]
    simp only [CharVector.resize_of_le hfits, indicesOrdered_iff, Buffer.length_resize, htarget]
    omega
  · rw [if_neg hguard]
    rw [UInt64.lt_iff_toNat_lt, hroom, hsum] at hguard
    have hmoved : (kCheapPrepend + b.readableBytes).toNat
        = 8 + (b.writerIndex.toNat - b.readerIndex.toNat) := by
      have hreadable : b.readableBytes.toNat = b.writerIndex.toNat - b.readerIndex.toNat :=
        toNat_readableBytes hb
      rw [toNat_add_of_lt] <;> rw [hreadable, toNat_kCheapPrepend, Buffer.kCheapPrepend]
      omega
    rintro ⟨hle, -, -⟩
    rw [UInt64.le_iff_toNat_le, writableBytes, UInt64.toNat_sub_of_le] at hle
    · simp only [CharVector.toNat_size, CharVector.copyWithin, length_copyWithin, hmoved] at hle
      omega
    · rw [UInt64.le_iff_toNat_le, CharVector.toNat_size]
      simp only [CharVector.copyWithin, length_copyWithin, hmoved]
      omega

/-! ### Every run -/

theorem new_of_noWrap {initalSize : UInt64}
    (hwrap : kCheapPrepend.toNat + initalSize.toNat < 2 ^ 64) (hnew : new initalSize = .ok b) :
    b.toBuffer = Buffer.new initalSize.toNat := by
  have hsum : (kCheapPrepend + initalSize).toNat = Buffer.kCheapPrepend + initalSize.toNat :=
    toNat_add_of_lt hwrap
  unfold new CharVector.make at hnew
  split at hnew
  · obtain rfl : _ = b := Except.ok.inj hnew
    simp only [toBuffer, Buffer.new, hsum, toNat_kCheapPrepend]
  · cases hnew

/-- The constructor is sound exactly where its own sum does not wrap: a wrapped size is below
`kCheapPrepend`, where both indices start. -/
theorem newSafe_iff (initalSize : UInt64) :
    NewSafe limit initalSize ↔ kCheapPrepend.toNat + initalSize.toNat < 2 ^ 64 := by
  constructor
  · intro hsafe
    by_contra hwrap
    have hlt := initalSize.toNat_lt
    have hsum : (kCheapPrepend + initalSize).toNat = 8 + initalSize.toNat - 2 ^ 64 := by
      rw [UInt64.toNat_add]
      simp only [toNat_kCheapPrepend, Buffer.kCheapPrepend] at hwrap ⊢
      omega
    have hsmall : (kCheapPrepend + initalSize).toNat < 8 := by omega
    have hfits : (kCheapPrepend + initalSize).toNat ≤ limit.val :=
      hsmall.le.trans limit.kCheapPrepend_le
    unfold NewSafe new at hsafe
    rw [CharVector.make, dif_pos hfits] at hsafe
    have hwriter := (indicesOrdered_iff.mp hsafe).2
    simp only [List.length_replicate, toNat_kCheapPrepend, Buffer.kCheapPrepend] at hwriter
    omega
  · intro hwrap
    unfold NewSafe
    split
    · trivial
    · rename_i b hnew
      have hvalid : b.Sound := by
        rw [Sound, new_of_noWrap hwrap hnew]
        exact Buffer.valid_new _
      exact indicesOrdered_of_sound hvalid

inductive Call where
  | append (data : List Byte)
  | readFd (answer : Except Errno (List Byte))
  | retrieve (len : UInt64)
  | retrieveAll
  | retrieveAsString (len : UInt64)
  | retrieveAllAsString
  | ensureWritableBytes (len : UInt64)

def Call.after (b : SizedBuffer limit) : Call → SizedBuffer limit
  | append data => (b.append data).1
  | readFd answer => (b.readFd answer).1
  | retrieve len => b.retrieve len
  | retrieveAll => b.retrieveAll
  | retrieveAsString len => (b.retrieveAsString len).2
  | retrieveAllAsString => b.retrieveAllAsString.2
  | ensureWritableBytes len => (b.ensureWritableBytes len).1

/-- `writerIndex_ + len` does not wrap around. -/
def Call.NoWrap (b : SizedBuffer limit) : Call → Prop
  | append data => b.writerIndex.toNat + data.length < 2 ^ 64
  | ensureWritableBytes len => b.writerIndex.toNat + len.toNat < 2 ^ 64
  | _ => True

def calls (limit : MaxSize) : System (SizedBuffer limit) Call where
  init b := ∃ initalSize : UInt64,
    kCheapPrepend.toNat + initalSize.toNat < 2 ^ 64 ∧ new initalSize = .ok b
  step b call := some (call.after b)

theorem sound_ensureWritableBytes (hb : b.Sound) {len : UInt64}
    (hwrap : b.writerIndex.toNat + len.toNat < 2 ^ 64) : (b.ensureWritableBytes len).1.Sound := by
  obtain hthrow | ⟨-, hafter⟩ := ensureWritableBytes_spec hb hwrap
  · rwa [hthrow]
  · rw [Sound, hafter]
    exact (Buffer.ensureWritableBytes_spec hb len.toNat).valid

theorem sound_append (hb : b.Sound) {data : List Byte}
    (hwrap : b.writerIndex.toNat + data.length < 2 ^ 64) : (b.append data).1.Sound := by
  have hlen : (UInt64.ofNat data.length).toNat = data.length := by
    rw [UInt64.toNat_ofNat', Nat.mod_eq_of_lt]
    omega
  have hsound : (b.ensureWritableBytes (.ofNat data.length)).1.Sound :=
    sound_ensureWritableBytes hb (by rwa [hlen])
  have hsafe : b.EnsureSafe (.ofNat data.length) := ensureSafe_of_noWrap hb (by rwa [hlen])
  unfold EnsureSafe at hsafe
  split at hsafe
  · rename_i after thrown hresult
    rw [hresult] at hsound
    simpa only [append, hresult] using hsound
  · rename_i ready hresult
    rw [hresult] at hsound
    simp only [append, hresult]
    have hroom := hsafe.1
    rw [UInt64.le_iff_toNat_le, hlen, toNat_writableBytes hsound] at hroom
    have hlt := ready.buffer.length_lt
    have hsize := hsound.writer_le_size
    have hreader := hsound.reader_le_writer
    simp only [Buffer.writableBytes, Buffer.size, toBuffer] at hroom hsize hreader
    have hwriter : (ready.writerIndex + .ofNat data.length).toNat
        = ready.writerIndex.toNat + data.length := by
      rw [toNat_add_of_lt] <;> rw [hlen]
      omega
    refine ⟨hsound.prepend_le_reader, ?_, ?_⟩ <;>
      simp only [toBuffer, Buffer.size, CharVector.copyIn, length_copyIn, hwriter] <;> omega

theorem sound_readFd (hb : b.Sound) (answer : Except Errno (List Byte)) :
    (b.readFd answer).1.Sound := by
  have hprepend := hb.prepend_le_reader
  have hreader := hb.reader_le_writer
  have hwriter := hb.writer_le_size
  have hlt := b.buffer.length_lt
  have hwritable := toNat_writableBytes hb
  simp only [Buffer.writableBytes, Buffer.size, toBuffer] at hprepend hreader hwriter hwritable
  cases answer with
  | error savedErrno => exact hb
  | ok ready =>
      have htotal : b.offered ≤ b.writableBytes.toNat + Buffer.extrabufSize := by
        unfold offered
        split <;> omega
      have htake : (ready.take b.offered).length ≤ b.writableBytes.toNat + Buffer.extrabufSize :=
        (List.length_take_le _ _).trans htotal
      simp only [Buffer.extrabufSize] at htake
      have hn : (UInt64.ofNat (ready.take b.offered).length).toNat
          = (ready.take b.offered).length := by
        rw [UInt64.toNat_ofNat', Nat.mod_eq_of_lt]
        omega
      simp only [readFd]
      split
      · rename_i hfits
        rw [UInt64.le_iff_toNat_le, hn] at hfits
        have hsum : (b.writerIndex + .ofNat (ready.take b.offered).length).toNat
            = b.writerIndex.toNat + (ready.take b.offered).length := by
          rw [toNat_add_of_lt] <;> rw [hn]
          omega
        refine ⟨hprepend, ?_, ?_⟩ <;>
          simp only [toBuffer, Buffer.size, CharVector.copyIn, length_copyIn, hsum] <;> omega
      · apply sound_append
        · refine ⟨hprepend, ?_, ?_⟩ <;>
            simp only [toBuffer, Buffer.size, CharVector.copyIn, length_copyIn,
              CharVector.toNat_size] <;> omega
        · simp only [List.length_drop, CharVector.toNat_size]
          omega

theorem sound_retrieve (hb : b.Sound) (len : UInt64) : (b.retrieve len).Sound := by
  have hprepend := hb.prepend_le_reader
  have hreader := hb.reader_le_writer
  have hwriter := hb.writer_le_size
  have hreadable := toNat_readableBytes hb
  have hlt := b.buffer.length_lt
  simp only [Buffer.size, Buffer.readableBytes, toBuffer] at hprepend hreader hwriter hreadable
  unfold retrieve
  split
  · rename_i hless
    rw [UInt64.lt_iff_toNat_lt, hreadable] at hless
    have hsum : (b.readerIndex + len).toNat = b.readerIndex.toNat + len.toNat := by
      apply toNat_add_of_lt
      omega
    refine ⟨?_, ?_, hwriter⟩ <;> simp only [toBuffer, hsum] <;> omega
  · exact Buffer.valid_retrieveAll hb

theorem sound_after (hb : b.Sound) {call : Call} (hwrap : call.NoWrap b) :
    (call.after b).Sound := by
  cases call with
  | append data => exact sound_append hb hwrap
  | readFd answer => exact sound_readFd hb answer
  | retrieve len => exact sound_retrieve hb len
  | retrieveAll => exact Buffer.valid_retrieveAll hb
  | retrieveAsString len => exact sound_retrieve hb len
  | retrieveAllAsString => exact sound_retrieve hb _
  | ensureWritableBytes len => exact sound_ensureWritableBytes hb hwrap

theorem sound_of_reachable (hreach : (calls limit).ReachableUnder (fun b call => call.NoWrap b) b) :
    b.Sound := by
  refine hreach.invariant ?_ ?_
  · rintro b ⟨initalSize, hwrap, hnew⟩
    rw [Sound, new_of_noWrap hwrap hnew]
    exact Buffer.valid_new _
  · intro b call after hb hwrap hstep
    obtain rfl : call.after b = after := Option.some.inj hstep
    exact sound_after hb hwrap

/-- **Where the arithmetic is safe.** The constructor keeps its promise exactly when
`kCheapPrepend + initalSize` does not wrap around, and in every run without a wrap-around the next
`ensureWritableBytes(len)` keeps its own exactly when `writerIndex + len` does not. -/
theorem arithmeticSafe_iff_noWrap (limit : MaxSize) :
    (∀ initalSize : UInt64,
      NewSafe limit initalSize ↔ kCheapPrepend.toNat + initalSize.toNat < 2 ^ 64) ∧
    (∀ b : SizedBuffer limit, (calls limit).ReachableUnder (fun b call => call.NoWrap b) b →
      ∀ len : UInt64, b.EnsureSafe len ↔ b.writerIndex.toNat + len.toNat < 2 ^ 64) := by
  refine ⟨newSafe_iff, ?_⟩
  intro b hreach len
  have hb := sound_of_reachable hreach
  constructor
  · intro hsafe
    by_contra hwrap
    exact not_ensureSafe_of_wrap hb (Nat.le_of_not_lt hwrap) hsafe
  · exact ensureSafe_of_noWrap hb

/-- `PTRDIFF_MAX`. -/
def ptrdiffMax : MaxSize := ⟨2 ^ 63 - 1, by decide, by decide⟩

/-- A buffer of four bytes, all of them readable. -/
def fullOfFour : SizedBuffer ptrdiffMax :=
  { buffer := ⟨[0, 0, 0, 0, 0, 0, 0, 0, 1, 2, 3, 4], by decide⟩, readerIndex := 8, writerIndex := 12 }

theorem reachable_fullOfFour :
    (calls ptrdiffMax).ReachableUnder (fun b call => call.NoWrap b) fullOfFour := by
  refine ⟨⟨⟨List.replicate 12 0, by decide⟩, 8, 8⟩, [.append [1, 2, 3, 4]], ⟨4, by decide, rfl⟩, ?_⟩
  exact .single (show 8 + 4 < 2 ^ 64 by decide) rfl

theorem arithmeticSafe_iff_noWrap_fullOfFour :
    fullOfFour.EnsureSafe 5 ∧ ¬fullOfFour.EnsureSafe 0xFFFFFFFFFFFFFFF4 := by
  have hspec := (arithmeticSafe_iff_noWrap ptrdiffMax).2 fullOfFour reachable_fullOfFour
  exact ⟨(hspec 5).mpr (by decide), fun hsafe => absurd ((hspec _).mp hsafe) (by decide)⟩

/-- A size that wraps to seven builds a vector that both indices are behind. A reservation of
`2 ^ 64 - 1` bytes succeeds and leaves no room at all, one of `2 ^ 64 - 10` bytes cuts the vector
off below the readable bytes. -/
theorem arithmetic_wraps :
    ¬NewSafe ptrdiffMax 0xFFFFFFFFFFFFFFFF ∧
    (calls ptrdiffMax).ReachableUnder (fun b call => call.NoWrap b) fullOfFour ∧
    (fullOfFour.ensureWritableBytes 0xFFFFFFFFFFFFFFFF).2 = .ok () ∧
    (fullOfFour.ensureWritableBytes 0xFFFFFFFFFFFFFFFF).1.writableBytes = 0 ∧
    ¬fullOfFour.EnsureSafe 0xFFFFFFFFFFFFFFFF ∧
    (fullOfFour.ensureWritableBytes 0xFFFFFFFFFFFFFFF6).1.buffer.size = 2 ∧
    ¬fullOfFour.EnsureSafe 0xFFFFFFFFFFFFFFF6 := by
  have hsound : fullOfFour.Sound := sound_of_reachable reachable_fullOfFour
  refine ⟨?_, reachable_fullOfFour, by decide, by decide, ?_, by decide, ?_⟩
  · rw [newSafe_iff]
    decide
  · exact not_ensureSafe_of_wrap hsound (by decide)
  · exact not_ensureSafe_of_wrap hsound (by decide)

end SizedBuffer

end MuduoCore
