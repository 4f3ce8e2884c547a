import Reactor.Transition
import Mathlib.Algebra.GroupWithZero.Nat
import Mathlib.Tactic.Common

/-! The input buffer of a connection. `readFd` reads into what is left of the buffer and,
when that is less than 64 KiB, behind it into an array on the stack. -/
namespace Reactor.Net
open Reactor.Transition

/-- What `bytes` written at `offset` make of an area of memory. -/
def overwrite (area : List UInt8) (offset : Nat) (bytes : List UInt8) : List UInt8 :=
  area.take offset ++ bytes ++ area.drop (offset+bytes.length)

theorem overwrite_length {area bytes : List UInt8} {offset : Nat} (fits : offset+bytes.length ≤ area.length) :
    (overwrite area offset bytes).length = area.length := by
  simp only [overwrite,List.length_append,List.length_take,List.length_drop]
  omega

theorem overwrite_take {area bytes : List UInt8} {offset : Nat} (fits : offset+bytes.length ≤ area.length) :
    (overwrite area offset bytes).take (offset+bytes.length) = area.take offset ++ bytes := by
  have size : (area.take offset ++ bytes).length = offset+bytes.length := by
    simp only [List.length_append,List.length_take]
    omega
  rw [overwrite,← size,List.take_left]

structure Buffer where
  buffer : List UInt8
  readerIndex : Nat
  writerIndex : Nat
  reader_le : readerIndex ≤ writerIndex
  writer_le : writerIndex ≤ buffer.length
  deriving DecidableEq

namespace Buffer

def readable (b : Buffer) : List UInt8 := (b.buffer.take b.writerIndex).drop b.readerIndex

def writableBytes (b : Buffer) : Nat := b.buffer.length-b.writerIndex

/-- What `readv` has put behind `writerIndex_` is not readable yet. -/
def store (b : Buffer) (bytes : List UInt8) (fits : bytes.length ≤ b.writableBytes) : Buffer where
  buffer := overwrite b.buffer b.writerIndex bytes
  readerIndex := b.readerIndex
  writerIndex := b.writerIndex
  reader_le := b.reader_le
  writer_le := by
    have room := b.writer_le
    rw [overwrite_length (by simp only [writableBytes] at fits; omega)]
    exact room

def setWriterIndex (b : Buffer) (w : Nat) (least : b.readerIndex ≤ w) (most : w ≤ b.buffer.length) : Buffer :=
  { b with writerIndex := w, reader_le := least, writer_le := most }

theorem store_length (b : Buffer) (bytes : List UInt8) (fits : bytes.length ≤ b.writableBytes) :
    (b.store bytes fits).buffer.length = b.buffer.length := by
  have room := b.writer_le
  simp only [writableBytes] at fits
  exact overwrite_length (by omega)

theorem store_reader_le (b : Buffer) (bytes : List UInt8) (fits : bytes.length ≤ b.writableBytes) (n : Nat) :
    (b.store bytes fits).readerIndex ≤ b.writerIndex+n :=
  b.reader_le.trans (Nat.le_add_right _ _)

theorem le_store (b : Buffer) (bytes : List UInt8) (fits : bytes.length ≤ b.writableBytes) {n : Nat}
    (short : n ≤ b.writableBytes) : b.writerIndex+n ≤ (b.store bytes fits).buffer.length := by
  have room := b.writer_le
  simp only [writableBytes] at short
  rw [store_length]
  omega

/-- The bytes that were stored become readable when `writerIndex_` is moved behind them. -/
theorem store_readable (b : Buffer) (bytes : List UInt8) (fits : bytes.length ≤ b.writableBytes) (w : Nat)
    (least : (b.store bytes fits).readerIndex ≤ w) (most : w ≤ (b.store bytes fits).buffer.length)
    (behind : w = b.writerIndex+bytes.length) :
    ((b.store bytes fits).setWriterIndex w least most).readable = b.readable ++ bytes := by
  subst behind
  have inside := b.writer_le
  have before : b.readerIndex ≤ (b.buffer.take b.writerIndex).length := by
    have order := b.reader_le
    simp only [List.length_take]
    omega
  simp only [writableBytes] at fits
  simp only [readable,setWriterIndex,store]
  rw [overwrite_take (by omega),List.drop_append_of_le_length before]

end Buffer

/-- The inline functions of `Buffer`, which are only known by what they do to the readable bytes. -/
structure BufferInline where
  append : Buffer → List UInt8 → Buffer
  retrieve : Buffer → Nat → Buffer
  append_readable : ∀ b data, (append b data).readable = b.readable ++ data
  retrieve_readable : ∀ b len, len ≤ b.readable.length → (retrieve b len).readable = b.readable.drop len

def sizeofExtrabuf : Nat := 65536

/-- The array on the stack, with whatever was there before. -/
abbrev Extrabuf := {bytes : List UInt8 // bytes.length = sizeofExtrabuf}

inductive Readv
  | read (bytes : List UInt8)
  | failed (errno : Int)
  deriving DecidableEq

def Buffer.iovcnt (b : Buffer) : Nat := if b.writableBytes < sizeofExtrabuf then 2 else 1

/-- How much the areas that are passed can take. -/
def Buffer.iovLen (b : Buffer) : Nat := ([b.writableBytes,sizeofExtrabuf].take b.iovcnt).sum

def Readv.admitted (b : Buffer) : Readv → Bool
  | .read bytes => bytes.length ≤ b.iovLen
  | .failed _ => true

/-- `appended` tells how many bytes of `extrabuf` were passed to `append`. -/
structure ReadFd where
  buffer : Buffer
  n : Int
  savedErrno : Option Int
  appended : Option Nat
  deriving DecidableEq

/-- The kernel fills the first area before it goes on to the second one. -/
def Buffer.readFd (inl : BufferInline) (b : Buffer) (extrabuf : Extrabuf) : Readv → ReadFd
  | .failed errno => ⟨b,-1,some errno,none⟩
  | .read bytes =>
    let writable := b.writableBytes
    let stored := b.store (bytes.take writable) (List.length_take_le _ _)
    let extra := overwrite extrabuf.1 0 (bytes.drop writable)
    if short : bytes.length ≤ writable then
      ⟨stored.setWriterIndex (b.writerIndex+bytes.length) (b.store_reader_le _ _ _)
        (b.le_store _ _ short),bytes.length,none,none⟩
    else
      let full := stored.setWriterIndex stored.buffer.length (stored.reader_le.trans stored.writer_le) (Nat.le_refl _)
      ⟨inl.append full (extra.take (bytes.length-writable)),bytes.length,none,some (bytes.length-writable)⟩

/-- What `TcpConnection::handleRead` goes on with. -/
inductive ReadEvent
  | messageCallback
  | handleClose
  | handleError (savedErrno : Option Int)
  deriving DecidableEq

def ReadFd.event (r : ReadFd) : ReadEvent :=
  if 0 < r.n then .messageCallback else if r.n = 0 then .handleClose else .handleError r.savedErrno

/-- The buffer with what the socket has given and the consumer has taken. -/
structure InputSide where
  inputBuffer : Buffer
  received : List UInt8
  retrieved : List UInt8
  events : List ReadEvent
  deriving DecidableEq

inductive InputLabel
  | handleRead (extrabuf : Extrabuf) (r : Readv)
  | retrieve (len : Nat)
  deriving DecidableEq

def Readv.bytes : Readv → List UInt8
  | .read bytes => bytes
  | .failed _ => []

def inputStep (inl : BufferInline) (s : InputSide) : InputLabel → Option InputSide
  | .handleRead extrabuf r =>
    if r.admitted s.inputBuffer then
      let result := s.inputBuffer.readFd inl extrabuf r
      some { s with
        inputBuffer := result.buffer, received := s.received ++ r.bytes, events := s.events ++ [result.event] }
    else none
  | .retrieve len =>
    if len ≤ s.inputBuffer.readable.length then
      some { s with
        inputBuffer := inl.retrieve s.inputBuffer len
        retrieved := s.retrieved ++ s.inputBuffer.readable.take len }
    else none

section
variable (inl : BufferInline) {b : Buffer} {extrabuf : Extrabuf} {bytes : List UInt8}

theorem admitted_iovLen (admitted : (Readv.read bytes).admitted b = true) :
    bytes.length ≤ b.writableBytes ∨ b.iovcnt = 2 ∧ bytes.length ≤ b.writableBytes+sizeofExtrabuf ∧
      b.writableBytes < sizeofExtrabuf := by
  have fits : bytes.length ≤ b.iovLen := of_decide_eq_true admitted
  unfold Buffer.iovLen Buffer.iovcnt at fits
  split at fits
  · rename_i small
    refine .inr ⟨if_pos small,?_,small⟩
    simpa using fits
  · refine .inl ?_
    simpa using fits

/-- The part in `extrabuf` is what the buffer had no room for. -/
theorem extra_take (fits : bytes.length ≤ b.writableBytes+sizeofExtrabuf) :
    (overwrite extrabuf.1 0 (bytes.drop b.writableBytes)).take (bytes.length-b.writableBytes) =
      bytes.drop b.writableBytes := by
  have room : 0+(bytes.drop b.writableBytes).length ≤ extrabuf.1.length := by
    rw [extrabuf.2,List.length_drop]
    omega
  have whole := overwrite_take room
  simpa using whole

theorem readFd_readable (admitted : (Readv.read bytes).admitted b = true) :
    (b.readFd inl extrabuf (.read bytes)).buffer.readable = b.readable ++ bytes := by
  unfold Buffer.readFd
  simp only
  split
  · rename_i short
    have all : bytes.take b.writableBytes = bytes := List.take_of_length_le short
    rw [Buffer.store_readable _ _ _ _ _ _ (by rw [all]),all]
  · rename_i long
    rcases admitted_iovLen admitted with short | ⟨_,fits,_⟩
    · exact absurd short long
    · have first : (bytes.take b.writableBytes).length = b.writableBytes := by
        simp only [List.length_take]
        omega
      have room := b.writer_le
      rw [inl.append_readable,extra_take fits,Buffer.store_readable,List.append_assoc,List.take_append_drop]
      rw [Buffer.store_length,first,Buffer.writableBytes]
      omega

theorem readFd_n : (b.readFd inl extrabuf (.read bytes)).n = bytes.length ∧
    (b.readFd inl extrabuf (.read bytes)).savedErrno = none := by
  unfold Buffer.readFd
  simp only
  split <;> exact ⟨rfl,rfl⟩

theorem readFd_appended (admitted : (Readv.read bytes).admitted b = true) (len : Nat)
    (reached : (b.readFd inl extrabuf (.read bytes)).appended = some len) : b.iovcnt = 2 ∧ len ≤ sizeofExtrabuf := by
  unfold Buffer.readFd at reached
  simp only at reached
  split at reached
  · cases reached
  · rename_i long
    cases reached
    rcases admitted_iovLen admitted with short | ⟨two,fits,_⟩
    · exact absurd short long
    · exact ⟨two,by omega⟩

theorem admitted_le (admitted : (Readv.read bytes).admitted b = true) :
    bytes.length ≤ max b.writableBytes 131071 := by
  rcases admitted_iovLen admitted with short | ⟨_,fits,small⟩
  · exact short.trans (Nat.le_max_left _ _)
  · refine le_trans ?_ (Nat.le_max_right _ _)
    simp only [sizeofExtrabuf] at fits small
    omega

/-- Nothing is lost between the socket and the consumer. -/
def InputSide.Conserves (first : List UInt8) (s : InputSide) : Prop :=
  s.retrieved ++ s.inputBuffer.readable = first ++ s.received

theorem conserves_step {first : List UInt8} {s u : InputSide} {l : InputLabel} (before : s.Conserves first)
    (ok : inputStep inl s l = some u) : u.Conserves first := by
  unfold InputSide.Conserves at before ⊢
  cases l with
  | handleRead extrabuf r =>
    obtain ⟨admitted,⟨⟩⟩ := Option.ite_none_right_eq_some.mp ok
    cases r with
    | failed errno => simpa [Buffer.readFd,Readv.bytes] using before
    | read bytes =>
      simp only [readFd_readable inl admitted,Readv.bytes]
      rw [← List.append_assoc,before,List.append_assoc]
  | retrieve len =>
    obtain ⟨inside,⟨⟩⟩ := Option.ite_none_right_eq_some.mp ok
    simp only [inl.retrieve_readable _ _ inside,List.append_assoc,List.take_append_drop]
    exact before

theorem conserves_run {first : List UInt8} {s u : InputSide} {ls : List InputLabel} (run : Run (inputStep inl) s ls u)
    (before : s.Conserves first) : u.Conserves first := by
  induction run with
  | nil => exact before
  | cons s l t ls u head tail ih => exact ih (conserves_step inl before head)

/-- Reading into two areas is reading behind what is readable. -/
theorem readFd_appends :
    (∀ (b : Buffer) extrabuf bytes, (Readv.read bytes).admitted b = true →
      (b.readFd inl extrabuf (.read bytes)).buffer.readable = b.readable ++ bytes ∧
      (b.readFd inl extrabuf (.read bytes)).n = bytes.length ∧
      (∀ len, (b.readFd inl extrabuf (.read bytes)).appended = some len → b.iovcnt = 2 ∧ len ≤ 65536) ∧
      bytes.length ≤ max b.writableBytes 131071) ∧
    (∀ (b : Buffer) extrabuf errno, b.readFd inl extrabuf (.failed errno) = ⟨b,-1,some errno,none⟩) ∧
    ∀ s ls u, Run (inputStep inl) s ls u → s.retrieved = [] → s.received = [] →
      u.retrieved ++ u.inputBuffer.readable = s.inputBuffer.readable ++ u.received := by
  refine ⟨fun b extrabuf bytes admitted => ?_,fun b extrabuf errno => rfl,?_⟩
  · exact ⟨readFd_readable inl admitted,(readFd_n inl).1,readFd_appended inl admitted,admitted_le admitted⟩
  · intro s ls u run none nothing
    refine conserves_run inl run ?_
    rw [InputSide.Conserves,none,nothing,List.nil_append,List.append_nil]

end

/-- Inline functions that leave no room behind what they append. -/
def tightInline : BufferInline where
  append b data := {
    buffer := b.buffer.take b.writerIndex ++ data
    readerIndex := b.readerIndex
    writerIndex := b.writerIndex+data.length
    reader_le := b.reader_le.trans (Nat.le_add_right _ _)
    writer_le := by
      have room := b.writer_le
      simp only [List.length_append,List.length_take]
      omega }
  retrieve b len := {
    b with
    readerIndex := min (b.readerIndex+len) b.writerIndex
    reader_le := Nat.min_le_right _ _ }
  append_readable b data := by
    have room := b.writer_le
    have order := b.reader_le
    have all : (b.buffer.take b.writerIndex ++ data).length = b.writerIndex+data.length := by
      simp only [List.length_append,List.length_take]
      omega
    have before : b.readerIndex ≤ (b.buffer.take b.writerIndex).length := by
      simp only [List.length_take]
      omega
    simp only [Buffer.readable,← all,List.take_length]
    exact List.drop_append_of_le_length before
  retrieve_readable b len inside := by
    have size : b.readable.length = b.writerIndex-b.readerIndex := by
      have room := b.writer_le
      simp only [Buffer.readable,List.length_drop,List.length_take]
      omega
    have order := b.reader_le
    have kept : min (b.readerIndex+len) b.writerIndex = b.readerIndex+len := by omega
    simp only [Buffer.readable,kept,List.drop_drop]

/-- Four bytes of room, of which two are taken. -/
private def fourBytes : Buffer := ⟨[1,2,0,0],0,2,by decide,by decide⟩

private def zeroes : Extrabuf := ⟨List.replicate sizeofExtrabuf 0,List.length_replicate⟩

/-- Five bytes arrive, of which three have to go to the stack; four are consumed, then a read fails. -/
private def fiveArrive : List InputLabel :=
  [.handleRead zeroes (.read [3,4,5,6,7]),.retrieve 4,.handleRead zeroes (.failed 11)]

theorem readFd_appends_fiveArrive :
    (final (inputStep tightInline) ⟨fourBytes,[],[],[]⟩ fiveArrive).retrieved = [1,2,3,4] ∧
      (final (inputStep tightInline) ⟨fourBytes,[],[],[]⟩ fiveArrive).retrieved ++
        (final (inputStep tightInline) ⟨fourBytes,[],[],[]⟩ fiveArrive).inputBuffer.readable = [1,2,3,4,5,6,7] := by
  have taken : (final (inputStep tightInline) ⟨fourBytes,[],[],[]⟩ fiveArrive).retrieved = [1,2,3,4] := by
    decide +kernel
  have received : (final (inputStep tightInline) ⟨fourBytes,[],[],[]⟩ fiveArrive).received = [3,4,5,6,7] := by
    decide +kernel
  refine ⟨taken,?_⟩
  rw [(readFd_appends tightInline).2.2 _ fiveArrive _ (final_run _ _ _ (by decide +kernel)) rfl rfl,received]
  decide +kernel

end Reactor.Net
