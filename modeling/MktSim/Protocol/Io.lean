import MktSim.Protocol.Message

set_option autoImplicit false

namespace MktSim

open Endian

inductive ReadError where
  | unexpectedEof
deriving DecidableEq, Repr

structure ReadExact where
  result : Except ReadError Unit
  buf : List UInt8
  read : List UInt8

-- Fills the whole buffer from what the reader still has to give. A reader that ends
-- early has filled the front of it.
def readExact (read buf : List UInt8) : ReadExact :=
  if buf.length ≤ read.length then ⟨.ok (), read.take buf.length, read.drop buf.length⟩
  else ⟨.error .unexpectedEof, read ++ buf.drop read.length, []⟩

structure MessageStream where
  read : List UInt8
  len : UInt16
  buf : List UInt8
deriving DecidableEq

def MessageStream.new (read : List UInt8) : MessageStream := ⟨read, 0, List.replicate 65536 0⟩

def MessageStream.message {T : Type} [Tag T] (stream : MessageStream) : Option (Message T (List UInt8)) :=
  Message.tryRefFrom stream.buf

-- `len.as_mut_bytes()` are the bytes of the u16 as the host lays it out.
def MessageStream.readNext (order : ByteOrder) (stream : MessageStream) : Except ReadError Unit × MessageStream :=
  let prefixed := readExact stream.read (encode order 2 stream.len.toNat)
  let len := UInt16.ofNat (decode order prefixed.buf)
  match prefixed.result with
  | .error error => (.error error, { stream with read := prefixed.read, len := len })
  | .ok () =>
      let body := readExact prefixed.read (stream.buf.take len.toNat)
      (body.result, ⟨body.read, len, body.buf⟩)

-- The successive calls of `read_next` and `message` give these messages and no more.
def MessageStream.Returns (order : ByteOrder) (T : Type) [Tag T] : MessageStream → List (List UInt8) → Prop
  | stream, [] => (stream.readNext order).1 = .error .unexpectedEof
  | stream, expected :: rest =>
      (stream.readNext order).1 = .ok () ∧
      ((stream.readNext order).2.message : Option (Message T (List UInt8))).map Message.asBytes = some expected ∧
      MessageStream.Returns order T (stream.readNext order).2 rest

theorem read_exact_ok {read buf : List UInt8} (done : (readExact read buf).result = .ok ()) :
    (readExact read buf).buf = read.take buf.length ∧ (readExact read buf).read = read.drop buf.length ∧
      buf.length ≤ read.length := by
  by_cases enough : buf.length ≤ read.length
  · rw [readExact, if_pos enough]
    exact ⟨rfl, rfl, enough⟩
  · rw [readExact, if_neg enough] at done
    cases done

theorem read_next_end {order : ByteOrder} {stream : MessageStream} (empty : stream.read = []) :
    (stream.readNext order).1 = .error .unexpectedEof := by
  have short : ¬ (encode order 2 stream.len.toNat).length ≤ ([] : List UInt8).length := by
    rw [encode_length]
    exact Nat.not_succ_le_zero 1
  rw [MessageStream.readNext, empty, readExact, if_neg short]

theorem read_next_consumes {order : ByteOrder} {stream : MessageStream} (done : (stream.readNext order).1 = .ok ()) :
    (stream.readNext order).2.read.length + 2 + (stream.readNext order).2.buf.length = stream.read.length := by
  unfold MessageStream.readNext at done ⊢
  cases first : (readExact stream.read (encode order 2 stream.len.toNat)).result with
  | error error =>
      simp only [first] at done
      cases done
  | ok _ =>
      obtain ⟨_, left, enough⟩ := read_exact_ok first
      simp only [first] at done ⊢
      obtain ⟨filled, remains, fits⟩ := read_exact_ok done
      rw [filled, remains]
      rw [left] at fits ⊢
      rw [encode_length] at fits enough ⊢
      simp only [List.length_drop, List.length_take] at fits ⊢
      omega

theorem returned_message {order : ByteOrder} {T : Type} [Tag T] {stream : MessageStream} {expected : List UInt8}
    (same : ((stream.readNext order).2.message : Option (Message T (List UInt8))).map Message.asBytes = some expected) :
    (stream.readNext order).2.buf = expected := by
  obtain ⟨message, parsed, rfl⟩ := Option.map_eq_some_iff.mp same
  exact (message_parsed parsed).symm

theorem returns_length {order : ByteOrder} {T : Type} [Tag T] {messages : List (List UInt8)} :
    ∀ {stream : MessageStream}, stream.Returns order T messages →
      (messages.map fun message => message.length + 2).sum ≤ stream.read.length := by
  induction messages with
  | nil => exact fun _ => Nat.zero_le _
  | cons message rest ih =>
      rintro stream ⟨done, same, later⟩
      have consumed := read_next_consumes done
      have more := ih later
      rw [returned_message same] at consumed
      rw [List.map_cons, List.sum_cons]
      omega

end MktSim
