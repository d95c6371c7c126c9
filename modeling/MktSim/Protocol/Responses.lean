import Mathlib.Data.List.Basic
import Mathlib.Order.Fin.Basic
import MktSim.Protocol.Message

set_option autoImplicit false

namespace MktSim

open Endian

instance wireU128NeZero : NeZero (2 ^ 128) := ⟨Nat.ne_of_gt (Nat.two_pow_pos 128)⟩

structure NewOrderAck where
  user : Fin (2 ^ 128)
  id : Fin (2 ^ 128)
  timestamp : UInt64
deriving DecidableEq

def readU128 (bytes : List UInt8) : Fin (2 ^ 128) := Fin.ofNat _ (decode .big bytes)

theorem u128_bytes {bytes : List UInt8} (width : bytes.length = 16) : encode .big 16 (readU128 bytes).val = bytes := by
  have fits := decode_lt .big bytes
  rw [width] at fits
  have value : (readU128 bytes).val = decode .big bytes := Nat.mod_eq_of_lt (by simpa using fits)
  rw [value, ← width]
  exact encode_decode .big bytes

theorem read_u128 (value : Fin (2 ^ 128)) : readU128 (encode .big 16 value.val) = value := by
  rw [readU128, decode_encode .big 16 value.val (by simp)]
  exact Fin.ofNat_val_eq_self value

theorem u64_bytes {bytes : List UInt8} (width : bytes.length = 8) :
    encode .big 8 (UInt64.ofNat (decode .big bytes)).toNat = bytes := by
  have fits := decode_lt .big bytes
  rw [width] at fits
  rw [UInt64.toNat_ofNat_of_lt' (by simpa using fits), ← width]
  exact encode_decode .big bytes

theorem read_u64 (value : UInt64) : UInt64.ofNat (decode .big (encode .big 8 value.toNat)) = value := by
  rw [decode_encode .big 8 value.toNat (by simpa using value.toNat_lt)]
  exact UInt64.ofNat_toNat

-- Packed: the fields one behind the other, each big-endian.
def NewOrderAck.asBytes (ack : NewOrderAck) : List UInt8 :=
  encode .big 16 ack.user.val ++ (encode .big 16 ack.id.val ++ encode .big 8 ack.timestamp.toNat)

def NewOrderAck.tryRefFrom (bytes : List UInt8) : Option NewOrderAck :=
  if bytes.length = 40 then
    some ⟨readU128 (bytes.take 16), readU128 ((bytes.drop 16).take 16), .ofNat (decode .big ((bytes.drop 16).drop 16))⟩
  else none

theorem ack_length (ack : NewOrderAck) : ack.asBytes.length = 40 := by
  simp only [NewOrderAck.asBytes, List.length_append, encode_length]

theorem ack_parsed (bytes : List UInt8) (ack : NewOrderAck) (read : NewOrderAck.tryRefFrom bytes = some ack) :
    ack.asBytes = bytes := by
  unfold NewOrderAck.tryRefFrom at read
  split at read
  · rename_i whole
    obtain rfl := Option.some.inj read
    have user : (bytes.take 16).length = 16 := by
      rw [List.length_take]
      omega
    have order : ((bytes.drop 16).take 16).length = 16 := by
      rw [List.length_take, List.length_drop]
      omega
    have timestamp : ((bytes.drop 16).drop 16).length = 8 := by
      rw [List.length_drop, List.length_drop]
      omega
    rw [NewOrderAck.asBytes, u128_bytes user, u128_bytes order, u64_bytes timestamp, List.take_append_drop,
      List.take_append_drop]
  · cases read

theorem ack_parses (ack : NewOrderAck) : NewOrderAck.tryRefFrom ack.asBytes = some ack := by
  have user : (encode .big 16 ack.user.val).length = 16 := encode_length _ _ _
  have order : (encode .big 16 ack.id.val).length = 16 := encode_length _ _ _
  rw [NewOrderAck.tryRefFrom, if_pos (ack_length ack), NewOrderAck.asBytes, List.take_left' user, List.drop_left' user,
    List.take_left' order, List.drop_left' order, read_u128, read_u128, read_u64]

instance newOrderAckApplicationLayer : ApplicationLayer NewOrderAck ResponseKind where
  asBytes := NewOrderAck.asBytes
  tryRefFrom := NewOrderAck.tryRefFrom
  parsed := ack_parsed
  parses := ack_parses
  tag _ := .newOrderAck

section Message

variable {T P Q : Type} [Tag T] [WireFormat P] [WireFormat Q]

def Message.cast (Q : Type) [WireFormat Q] (message : Message T P) : Option (Message T Q) :=
  Message.tryRefFrom message.asBytes

theorem header_parses (message : Message T P) :
    (Message.tryRefFrom message.asBytes : Option (Message T Q)) =
      (WireFormat.tryRefFrom (WireFormat.asBytes message.payload) : Option Q).map fun payload =>
        ⟨message.tag, message.sequenceNumber, payload⟩ := by
  have width := encode_length .big 4 message.sequenceNumber.toNat
  have value := decode_encode .big 4 message.sequenceNumber.toNat (by simpa using message.sequenceNumber.toNat_lt)
  rw [Message.asBytes]
  generalize encode .big 4 message.sequenceNumber.toNat = sequence at width value
  obtain ⟨a, b, c, d, rfl⟩ := List.length_eq_four.mp width
  rw [List.cons_append, List.cons_append, List.cons_append, List.cons_append, List.nil_append, Message.tryRefFrom,
    Tag.parses, value, UInt32.ofNat_toNat]
  cases (WireFormat.tryRefFrom (WireFormat.asBytes message.payload) : Option Q) with
  | none => rfl
  | some payload => rfl

theorem cast_payload (message : Message T P) :
    message.cast Q = (WireFormat.tryRefFrom (WireFormat.asBytes message.payload) : Option Q).map fun payload =>
      ⟨message.tag, message.sequenceNumber, payload⟩ := header_parses message

theorem message_parses (message : Message T P) :
    (Message.tryRefFrom message.asBytes : Option (Message T P)) = some message := by
  rw [header_parses, WireFormat.parses]
  rfl

theorem message_bytes_injective {a b : Message T P} (same : a.asBytes = b.asBytes) : a = b := by
  have read := message_parses a
  rw [same, message_parses] at read
  exact (Option.some.inj read).symm

end Message

theorem ack_not_error (ack : NewOrderAck) : (WireFormat.tryRefFrom ack.asBytes : Option ErrorKind) = none := by
  have length := ack_length ack
  match bytes : ack.asBytes with
  | [] | [_] =>
      rw [bytes] at length
      simp at length
  | _ :: _ :: _ => rfl

theorem error_not_ack (kind : ErrorKind) :
    (WireFormat.tryRefFrom (WireFormat.asBytes kind) : Option NewOrderAck) = none := by
  cases kind <;> rfl

inductive Response where
  | newOrderAck (ack : NewOrderAck)
  | error (kind : ErrorKind)
deriving DecidableEq

def Response.asBytes (sequenceNumber : UInt32) : Response → List UInt8
  | .newOrderAck ack => (Message.new sequenceNumber ack).asBytes
  | .error kind => (Message.new sequenceNumber kind).asBytes

-- A client that knows what it waits for gets back what was sent.
def RoundTrips {P : Type} [ApplicationLayer P ResponseKind] (sequenceNumber : UInt32) (payload : P) (Other : Type)
    [WireFormat Other] : Prop :=
  ∃ message : Message ResponseKind (List UInt8),
    Message.tryRefFrom (Message.new sequenceNumber payload).asBytes = some message ∧
    message.tag = ApplicationLayer.tag payload ∧ message.sequenceNumber = sequenceNumber ∧
    message.cast P = some (Message.new sequenceNumber payload) ∧ message.cast Other = none

theorem round_trips {P Other : Type} [ApplicationLayer P ResponseKind] [WireFormat Other] (sequenceNumber : UInt32)
    (payload : P) (refused : (WireFormat.tryRefFrom (WireFormat.asBytes payload) : Option Other) = none) :
    RoundTrips sequenceNumber payload Other := by
  refine ⟨⟨ApplicationLayer.tag payload, sequenceNumber, WireFormat.asBytes payload⟩, header_parses _, rfl, rfl, ?_, ?_⟩
  · rw [cast_payload]
    change (WireFormat.tryRefFrom (WireFormat.asBytes payload)).map _ = _
    rw [WireFormat.parses]
    rfl
  · rw [cast_payload]
    change (WireFormat.tryRefFrom (WireFormat.asBytes payload)).map _ = _
    rw [refused]
    rfl

theorem response_bytes_injective {sequenceNumber other : UInt32} {response expected : Response}
    (same : response.asBytes sequenceNumber = expected.asBytes other) : sequenceNumber = other ∧ response = expected := by
  cases response with
  | newOrderAck ack =>
      cases expected with
      | newOrderAck expected =>
          have equal := message_bytes_injective (same : (Message.new sequenceNumber ack).asBytes = _)
          injection equal with _ sequence payload
          exact ⟨sequence, congrArg _ payload⟩
      | error kind => cases (List.cons.inj same).1
  | error kind =>
      cases expected with
      | newOrderAck ack => cases (List.cons.inj same).1
      | error expected =>
          have equal := message_bytes_injective (same : (Message.new sequenceNumber kind).asBytes = _)
          injection equal with _ sequence payload
          exact ⟨sequence, congrArg _ payload⟩

/-- Every response parses to what was sent, is no response of another type, and is sent as its
own bytes only. -/
theorem responses_round_trip :
    (∀ (sequenceNumber : UInt32) (ack : NewOrderAck), RoundTrips sequenceNumber ack ErrorKind) ∧
    (∀ (sequenceNumber : UInt32) (kind : ErrorKind), RoundTrips sequenceNumber kind NewOrderAck) ∧
    ∀ (sequenceNumber other : UInt32) (response expected : Response),
      response.asBytes sequenceNumber = expected.asBytes other → sequenceNumber = other ∧ response = expected := by
  refine ⟨?_, ?_, ?_⟩
  · intro sequenceNumber ack
    exact round_trips sequenceNumber ack (ack_not_error ack)
  · intro sequenceNumber kind
    exact round_trips sequenceNumber kind (error_not_ack kind)
  · intro sequenceNumber other response expected same
    exact response_bytes_injective same

-- What a cast takes for a `Q` is one: the tag says so, and sending it again gives the same bytes.
def CastKept (Q : Type) [ApplicationLayer Q ResponseKind] (bytes : List UInt8)
    (message : Message ResponseKind (List UInt8)) : Prop :=
  ∀ kept : Message ResponseKind Q, message.cast Q = some kept →
    kept.tag = ApplicationLayer.tag kept.payload ∧ (Message.new kept.sequenceNumber kept.payload).asBytes = bytes

theorem cast_kept_iff {Q : Type} [ApplicationLayer Q ResponseKind] {bytes : List UInt8}
    {message : Message ResponseKind (List UInt8)} (read : Message.tryRefFrom bytes = some message) :
    CastKept Q bytes message ↔ ∀ payload : Q, WireFormat.tryRefFrom message.payload = some payload →
      message.tag = ApplicationLayer.tag payload := by
  have cast : message.cast Q = (WireFormat.tryRefFrom message.payload : Option Q).map fun payload =>
      ⟨message.tag, message.sequenceNumber, payload⟩ := cast_payload message
  constructor
  · intro kept payload parsed
    rw [parsed] at cast
    exact (kept _ cast).1
  · intro tagged kept done
    rw [cast] at done
    obtain ⟨payload, parsed, rfl⟩ := Option.map_eq_some_iff.mp done
    have tag := tagged payload parsed
    have whole := message_parsed read
    refine ⟨tag, ?_⟩
    rw [← whole, Message.asBytes, Message.asBytes, tag, Message.new, WireFormat.parsed _ _ parsed]
    rfl

theorem cast_kept_tag {Q : Type} [ApplicationLayer Q ResponseKind] {bytes : List UInt8}
    {message : Message ResponseKind (List UInt8)} (read : Message.tryRefFrom bytes = some message) {kind : ResponseKind}
    (tagged : ∀ payload : Q, ApplicationLayer.tag payload = kind) :
    CastKept Q bytes message ↔ ((∃ payload : Q, WireFormat.tryRefFrom message.payload = some payload) → message.tag = kind) := by
  rw [cast_kept_iff read]
  constructor
  · intro kept parsed
    obtain ⟨payload, parsed⟩ := parsed
    exact (kept payload parsed).trans (tagged payload)
  · intro kept payload parsed
    exact (kept ⟨payload, parsed⟩).trans (tagged payload).symm

theorem ack_payload_iff (bytes : List UInt8) :
    (∃ ack : NewOrderAck, WireFormat.tryRefFrom bytes = some ack) ↔ bytes.length = 40 := by
  constructor
  · intro parsed
    obtain ⟨ack, parsed⟩ := parsed
    rw [← ack_parsed bytes ack parsed]
    exact ack_length ack
  · intro whole
    exact ⟨_, if_pos whole⟩

theorem error_payload_iff (bytes : List UInt8) :
    (∃ kind : ErrorKind, WireFormat.tryRefFrom bytes = some kind) ↔ bytes = [0] ∨ bytes = [1] := by
  constructor
  · intro parsed
    obtain ⟨kind, parsed⟩ := parsed
    rw [← WireFormat.parsed bytes kind parsed]
    cases kind with
    | invalid => exact .inl rfl
    | unexpectedSequenceNumber => exact .inr rfl
  · intro byte
    cases byte with
    | inl zero => exact ⟨.invalid, by rw [zero]; rfl⟩
    | inr one => exact ⟨.unexpectedSequenceNumber, by rw [one]; rfl⟩

/-- A payload of the size and values of the other type is taken for one whatever the tag says. -/
theorem casts_kept_iff (bytes : List UInt8) (message : Message ResponseKind (List UInt8))
    (read : Message.tryRefFrom bytes = some message) :
    (CastKept NewOrderAck bytes message ↔ (message.payload.length = 40 → message.tag = .newOrderAck)) ∧
    (CastKept ErrorKind bytes message ↔ (message.payload = [0] ∨ message.payload = [1] → message.tag = .error)) := by
  constructor
  · rw [← ack_payload_iff]
    exact cast_kept_tag read fun _ => rfl
  · rw [← error_payload_iff]
    exact cast_kept_tag read fun _ => rfl

def cancelOrderAck : List UInt8 := [1, 0, 0, 0, 7, 0]

theorem casts_kept_iff_cancel :
    (CastKept NewOrderAck cancelOrderAck ⟨.cancelOrderAck, 7, [0]⟩ ↔
      (([0] : List UInt8).length = 40 → ResponseKind.cancelOrderAck = .newOrderAck)) ∧
    (CastKept ErrorKind cancelOrderAck ⟨.cancelOrderAck, 7, [0]⟩ ↔
      (([0] : List UInt8) = [0] ∨ ([0] : List UInt8) = [1] → ResponseKind.cancelOrderAck = .error)) :=
  casts_kept_iff cancelOrderAck ⟨.cancelOrderAck, 7, [0]⟩ rfl

theorem cancel_ack_cast_to_error : ¬ ∀ (bytes : List UInt8) (message : Message ResponseKind (List UInt8)),
    Message.tryRefFrom bytes = some message → CastKept NewOrderAck bytes message ∧ CastKept ErrorKind bytes message := by
  intro claimed
  have kept := (claimed cancelOrderAck ⟨.cancelOrderAck, 7, [0]⟩ rfl).2
  have tag := (cast_kept_iff rfl).mp kept .invalid rfl
  cases tag

end MktSim
