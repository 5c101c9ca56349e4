import MuduoCore.Lib.ElementCopy

/-!
# Buffer

`include/Buffer.h` and `src/Buffer.cpp`: one vector with two indices,

* `[0, readerIndex)` prependable,
* `[readerIndex, writerIndex)` readable,
* `[writerIndex, buffer.size())` writable.

Sizes and indices are natural numbers here: the sums of the source are taken not to wrap around.
A member function that copies elements of the vector also returns the accesses it makes, in order.
-/

namespace MuduoCore

abbrev Byte : Type := UInt8

abbrev Errno : Type := Nat

structure Buffer where
  buffer : List Byte
  readerIndex : Nat
  writerIndex : Nat
  deriving DecidableEq, Repr

namespace Buffer

def kCheapPrepend : Nat := 8

def kInitialSize : Nat := 1024

/-- `explicit Buffer(size_t initalSize)`: the vector is zero-filled. -/
def new (initalSize : Nat) : Buffer :=
  { buffer := List.replicate (kCheapPrepend + initalSize) 0
    readerIndex := kCheapPrepend
    writerIndex := kCheapPrepend }

def size (b : Buffer) : Nat := b.buffer.length

def readableBytes (b : Buffer) : Nat := b.writerIndex - b.readerIndex

def writableBytes (b : Buffer) : Nat := b.size - b.writerIndex

def prependableBytes (b : Buffer) : Nat := b.readerIndex

def retrieveAll (b : Buffer) : Buffer :=
  { b with readerIndex := kCheapPrepend, writerIndex := kCheapPrepend }

def retrieve (b : Buffer) (len : Nat) : Buffer :=
  if len < b.readableBytes then
    { b with readerIndex := b.readerIndex + len }
  else
    b.retrieveAll

/-- `std::string(peek(), len)`: the string read from the vector. -/
def peekString (b : Buffer) (len : Nat) : List Byte × List Access :=
  (slice b.buffer b.readerIndex len, (List.range' b.readerIndex len).map Access.read)

def retrieveAsString (b : Buffer) (len : Nat) : (List Byte × Buffer) × List Access :=
  let result := b.peekString len
  ((result.1, b.retrieve len), result.2)

def retrieveAllAsString (b : Buffer) : (List Byte × Buffer) × List Access :=
  b.retrieveAsString b.readableBytes

/-- `std::vector<char>::resize(n)`: new elements are zero. -/
def resize (mem : List Byte) (n : Nat) : List Byte :=
  mem.take n ++ List.replicate (n - mem.length) 0

def makeSpace (b : Buffer) (len : Nat) : Buffer × List Access :=
  if b.writableBytes + b.prependableBytes < len + kCheapPrepend then
    ({ b with buffer := resize b.buffer (b.writerIndex + len) }, [])
  else
    let readable := b.readableBytes
    -- std::copy(begin() + readerIndex_, begin() + writerIndex_, begin() + kCheapPrepend)
    let moved := copyWithin 0 b.buffer b.readerIndex kCheapPrepend readable
    ({ buffer := moved.1
       readerIndex := kCheapPrepend
       writerIndex := kCheapPrepend + readable }, moved.2)

def ensureWritableBytes (b : Buffer) (len : Nat) : Buffer × List Access :=
  if b.writableBytes < len then b.makeSpace len else (b, [])

/-- `append(data, len)`, with `data` the bytes of `[data, data + len)`. -/
def append (b : Buffer) (data : List Byte) : Buffer × List Access :=
  let ready := b.ensureWritableBytes data.length
  let copied := copyIn ready.1.buffer ready.1.writerIndex data
  ({ ready.1 with
      buffer := copied.1
      writerIndex := ready.1.writerIndex + data.length }, ready.2 ++ copied.2)

/-- `sizeof(extrabuf)` in `readFd`. -/
def extrabufSize : Nat := 65536

/-- The length of the `iovec`s that `readFd` offers to `::readv`: the writable area, and the stack
buffer unless the writable area is as large already. -/
def offered (b : Buffer) : Nat :=
  if b.writableBytes < extrabufSize then b.writableBytes + extrabufSize else b.writableBytes

/-- `readFd`, when the kernel fills the offered areas with `data` in order. The caller takes `data`
no longer than what is offered. -/
def readFdOk (b : Buffer) (data : List Byte) : Buffer × List Access :=
  let writable := b.writableBytes
  let filled := copyIn b.buffer b.writerIndex (data.take writable)
  if data.length ≤ writable then
    ({ b with buffer := filled.1, writerIndex := b.writerIndex + data.length }, filled.2)
  else
    let full : Buffer := { b with buffer := filled.1, writerIndex := b.size }
    let rest := full.append (data.drop writable)
    (rest.1, filled.2 ++ rest.2)

/-- `readFd`: the answer of `::readv` is an errno, or the bytes the socket has ready, of which it
takes as many as fit. The result is the buffer and the value returned. -/
def readFd (b : Buffer) : Except Errno (List Byte) → Buffer × Except Errno Nat
  | .error savedErrno => (b, .error savedErrno)
  | .ok ready =>
      let data := ready.take b.offered
      ((b.readFdOk data).1, .ok data.length)

/-- The bytes of the readable area. -/
def content (b : Buffer) : List Byte := slice b.buffer b.readerIndex b.readableBytes

structure Valid (b : Buffer) : Prop where
  prepend_le_reader : kCheapPrepend ≤ b.readerIndex
  reader_le_writer : b.readerIndex ≤ b.writerIndex
  writer_le_size : b.writerIndex ≤ b.size

end Buffer

end MuduoCore
