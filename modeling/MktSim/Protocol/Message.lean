import MktSim.Lib.Endian

set_option autoImplicit false

namespace MktSim

open Endian

-- Types whose values are laid out as their bytes: parsing looks at the bytes in place.
class WireFormat (P : Type) where
  asBytes : P → List UInt8
  tryRefFrom : List UInt8 → Option P
  parsed : ∀ bytes value, tryRefFrom bytes = some value → asBytes value = bytes
  parses : ∀ value, tryRefFrom (asBytes value) = some value

class Tag (T : Type) where
  asByte : T → UInt8
  tryFromByte : UInt8 → Option T
  parsed : ∀ byte tag, tryFromByte byte = some tag → asByte tag = byte
  parses : ∀ tag, tryFromByte (asByte tag) = some tag

class ApplicationLayer (P : Type) (T : outParam Type) [Tag T] extends WireFormat P where
  tag : P → T

inductive RequestKind where
  | newOrder
  | cancelOrder
deriving DecidableEq, Repr

inductive ResponseKind where
  | newOrderAck
  | cancelOrderAck
  | error
deriving DecidableEq, Repr

inductive ErrorKind where
  | invalid
  | unexpectedSequenceNumber
deriving DecidableEq, Repr

instance requestKindTag : Tag RequestKind where
  asByte
    | .newOrder => 0
    | .cancelOrder => 1
  tryFromByte byte := if byte = 0 then some .newOrder else if byte = 1 then some .cancelOrder else none
  parsed byte tag read := by
    split at read
    · cases read
      exact Eq.symm ‹byte = 0›
    · split at read
      · cases read
        exact Eq.symm ‹byte = 1›
      · cases read
  parses tag := by cases tag <;> rfl

instance responseKindTag : Tag ResponseKind where
  asByte
    | .newOrderAck => 0
    | .cancelOrderAck => 1
    | .error => 2
  tryFromByte byte :=
    if byte = 0 then some .newOrderAck
    else if byte = 1 then some .cancelOrderAck
    else if byte = 2 then some .error
    else none
  parsed byte tag read := by
    split at read
    · cases read
      exact Eq.symm ‹byte = 0›
    · split at read
      · cases read
        exact Eq.symm ‹byte = 1›
      · split at read
        · cases read
          exact Eq.symm ‹byte = 2›
        · cases read
  parses tag := by cases tag <;> rfl

instance bytesWireFormat : WireFormat (List UInt8) where
  asBytes bytes := bytes
  tryRefFrom bytes := some bytes
  parsed _ _ read := (Option.some.inj read).symm
  parses _ := rfl

instance errorKindApplicationLayer : ApplicationLayer ErrorKind ResponseKind where
  asBytes
    | .invalid => [0]
    | .unexpectedSequenceNumber => [1]
  tryRefFrom
    | [byte] => if byte = 0 then some .invalid else if byte = 1 then some .unexpectedSequenceNumber else none
    | _ => none
  parsed bytes kind read := by
    cases bytes with
    | nil => cases read
    | cons byte rest =>
        cases rest with
        | nil =>
            simp only at read
            split at read
            · cases read
              rw [‹byte = 0›]
            · split at read
              · cases read
                rw [‹byte = 1›]
              · cases read
        | cons _ _ => cases read
  parses kind := by cases kind <;> rfl
  tag _ := .error

-- The tag byte, the sequence number as a big-endian u32, and the payload.
structure Message (T P : Type) where
  tag : T
  sequenceNumber : UInt32
  payload : P
deriving DecidableEq

section Message

variable {T P : Type} [Tag T]

def Message.asBytes [WireFormat P] (message : Message T P) : List UInt8 :=
  Tag.asByte message.tag :: (encode .big 4 message.sequenceNumber.toNat ++ WireFormat.asBytes message.payload)

def Message.tryRefFrom [WireFormat P] : List UInt8 → Option (Message T P)
  | tag :: a :: b :: c :: d :: rest =>
      match Tag.tryFromByte tag, WireFormat.tryRefFrom rest with
      | some tag, some payload => some ⟨tag, .ofNat (decode .big [a, b, c, d]), payload⟩
      | _, _ => none
  | _ => none

def Message.new [ApplicationLayer P T] (sequenceNumber : UInt32) (payload : P) : Message T P :=
  ⟨ApplicationLayer.tag payload, sequenceNumber, payload⟩

theorem sequence_number_bytes (a b c d : UInt8) :
    encode .big 4 (UInt32.ofNat (decode .big [a, b, c, d])).toNat = [a, b, c, d] := by
  have fits : decode .big [a, b, c, d] < 2 ^ 32 := by simpa using decode_lt .big [a, b, c, d]
  rw [UInt32.toNat_ofNat_of_lt' fits]
  exact encode_decode .big [a, b, c, d]

theorem message_parsed [WireFormat P] {bytes : List UInt8} {message : Message T P}
    (read : Message.tryRefFrom bytes = some message) : message.asBytes = bytes := by
  match bytes with
  | tag :: a :: b :: c :: d :: rest =>
      rw [Message.tryRefFrom] at read
      cases tagged : (Tag.tryFromByte tag : Option T) with
      | none => simp [tagged] at read
      | some kind =>
          cases held : (WireFormat.tryRefFrom rest : Option P) with
          | none => simp [tagged, held] at read
          | some payload =>
              simp only [tagged, held, Option.some.injEq] at read
              rw [← read, Message.asBytes, Tag.parsed _ _ tagged, WireFormat.parsed _ _ held]
              simp only [sequence_number_bytes]
              rfl
  | [] | [_] | [_, _] | [_, _, _] | [_, _, _, _] => simp [Message.tryRefFrom] at read

end Message

end MktSim
