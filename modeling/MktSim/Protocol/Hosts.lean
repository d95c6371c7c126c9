import MktSim.Protocol.Responses

set_option autoImplicit false

namespace MktSim

open Endian

-- A packed type on each host: the bytes of its native integers are up to the host's byte order.
class HostFormat (P : Type) where
  on : ByteOrder → WireFormat P

section Hosts

variable {P : Type} [HostFormat P]

def HostFormat.asBytes (host : ByteOrder) (value : P) : List UInt8 := (HostFormat.on host).asBytes value

def HostFormat.tryRefFrom (host : ByteOrder) (bytes : List UInt8) : Option P := (HostFormat.on host).tryRefFrom bytes

def Kept (encoding decoding : ByteOrder) (value : P) : Prop :=
  HostFormat.tryRefFrom decoding (HostFormat.asBytes encoding value) = some value

def HostIndependent (P : Type) [HostFormat P] : Prop := ∀ (encoding decoding : ByteOrder) (value : P), Kept encoding decoding value

structure SameLayout (P : Type) [HostFormat P] [WireFormat P] : Prop where
  bytes : ∀ (host : ByteOrder) (value : P), HostFormat.asBytes host value = WireFormat.asBytes value
  reads : ∀ (host : ByteOrder) (bytes : List UInt8), (HostFormat.tryRefFrom host bytes : Option P) = WireFormat.tryRefFrom bytes

theorem same_layout_independent [WireFormat P] (same : SameLayout P) : HostIndependent P := by
  intro encoding decoding value
  rw [Kept, same.bytes, same.reads, WireFormat.parses]

end Hosts

instance bytesHostFormat : HostFormat (List UInt8) := ⟨fun _ => bytesWireFormat⟩

instance errorKindHostFormat : HostFormat ErrorKind := ⟨fun _ => errorKindApplicationLayer.toWireFormat⟩

theorem bytes_same_layout : SameLayout (List UInt8) := ⟨fun _ _ => rfl, fun _ _ => rfl⟩

theorem error_kind_same_layout : SameLayout ErrorKind := ⟨fun _ _ => rfl, fun _ _ => rfl⟩

section Message

variable {T P : Type} [Tag T]

-- The sequence number of a header is stored as its big-endian bytes.
def Message.asBytesOn [HostFormat P] (host : ByteOrder) (message : Message T P) : List UInt8 :=
  Tag.asByte message.tag :: (toBeBytes host 4 message.sequenceNumber.toNat ++ HostFormat.asBytes host message.payload)

def Message.tryRefFromOn [HostFormat P] (host : ByteOrder) : List UInt8 → Option (Message T P)
  | tag :: a :: b :: c :: d :: rest =>
      match Tag.tryFromByte tag, (HostFormat.tryRefFrom host rest : Option P) with
      | some tag, some payload => some ⟨tag, .ofNat (fromBeBytes host [a, b, c, d]), payload⟩
      | _, _ => none
  | _ => none

theorem message_bytes_on [HostFormat P] (host : ByteOrder) (message : Message T P) :
    message.asBytesOn host = @Message.asBytes T P _ (HostFormat.on host) message := by
  rw [Message.asBytesOn, to_be_bytes]
  rfl

theorem message_read_on [HostFormat P] (host : ByteOrder) (bytes : List UInt8) :
    (Message.tryRefFromOn host bytes : Option (Message T P)) = @Message.tryRefFrom T P _ (HostFormat.on host) bytes := by
  match bytes with
  | _ :: _ :: _ :: _ :: _ :: _ =>
      rw [Message.tryRefFromOn, from_be_bytes]
      rfl
  | [] | [_] | [_, _] | [_, _, _] | [_, _, _, _] => rfl

instance messageWireFormat [WireFormat P] : WireFormat (Message T P) where
  asBytes := Message.asBytes
  tryRefFrom := Message.tryRefFrom
  parsed _ _ := message_parsed
  parses := message_parses

instance messageHostFormat [HostFormat P] : HostFormat (Message T P) where
  on host := {
    asBytes := Message.asBytesOn host
    tryRefFrom := Message.tryRefFromOn host
    parsed := by
      intro bytes message read
      rw [message_read_on] at read
      rw [message_bytes_on]
      exact @message_parsed T P _ (HostFormat.on host) bytes message read
    parses := by
      intro message
      rw [message_bytes_on, message_read_on]
      exact @message_parses T P _ (HostFormat.on host) message }

theorem message_same_layout [HostFormat P] [WireFormat P] (same : SameLayout P) : SameLayout (Message T P) where
  bytes host message := by
    change Message.asBytesOn host message = message.asBytes
    rw [Message.asBytesOn, to_be_bytes, same.bytes, Message.asBytes]
  reads host bytes := by
    have payload : ∀ rest, (HostFormat.on host : WireFormat P).tryRefFrom rest = WireFormat.tryRefFrom rest := same.reads host
    change (Message.tryRefFromOn host bytes : Option (Message T P)) = Message.tryRefFrom bytes
    rw [message_read_on]
    unfold Message.tryRefFrom
    simp only [payload]

theorem message_kept_iff [HostFormat P] (encoding decoding : ByteOrder) (message : Message T P) :
    Kept encoding decoding message ↔ Kept encoding decoding message.payload := by
  have read := @header_parses T P P _ (HostFormat.on encoding) (HostFormat.on decoding) message
  rw [← message_bytes_on, ← message_read_on] at read
  unfold Kept
  change Message.tryRefFromOn decoding (message.asBytesOn encoding) = some message ↔ _
  rw [read]
  change (HostFormat.tryRefFrom decoding (HostFormat.asBytes encoding message.payload) : Option P).map _ = _ ↔ _
  cases (HostFormat.tryRefFrom decoding (HostFormat.asBytes encoding message.payload) : Option P) with
  | none => simp
  | some payload =>
      obtain ⟨tag, sequenceNumber, sent⟩ := message
      simp

end Message

def readU128On (host : ByteOrder) (bytes : List UInt8) : Fin (2 ^ 128) := Fin.ofNat _ (fromBeBytes host bytes)

theorem read_u128_on (host : ByteOrder) (bytes : List UInt8) : readU128On host bytes = readU128 bytes := by
  rw [readU128On, from_be_bytes, readU128]

def NewOrderAck.asBytesOn (host : ByteOrder) (ack : NewOrderAck) : List UInt8 :=
  toBeBytes host 16 ack.user.val ++ (toBeBytes host 16 ack.id.val ++ toBeBytes host 8 ack.timestamp.toNat)

def NewOrderAck.tryRefFromOn (host : ByteOrder) (bytes : List UInt8) : Option NewOrderAck :=
  if bytes.length = 40 then
    some ⟨readU128On host (bytes.take 16), readU128On host ((bytes.drop 16).take 16),
      .ofNat (fromBeBytes host ((bytes.drop 16).drop 16))⟩
  else none

theorem ack_bytes_on (host : ByteOrder) (ack : NewOrderAck) : ack.asBytesOn host = ack.asBytes := by
  simp only [NewOrderAck.asBytesOn, NewOrderAck.asBytes, to_be_bytes]

theorem ack_read_on (host : ByteOrder) (bytes : List UInt8) :
    NewOrderAck.tryRefFromOn host bytes = NewOrderAck.tryRefFrom bytes := by
  simp only [NewOrderAck.tryRefFromOn, NewOrderAck.tryRefFrom, read_u128_on, from_be_bytes]

instance newOrderAckHostFormat : HostFormat NewOrderAck where
  on host := {
    asBytes := NewOrderAck.asBytesOn host
    tryRefFrom := NewOrderAck.tryRefFromOn host
    parsed := by
      intro bytes ack read
      rw [ack_read_on] at read
      rw [ack_bytes_on]
      exact ack_parsed bytes ack read
    parses := by
      intro ack
      rw [ack_bytes_on, ack_read_on]
      exact ack_parses ack }

theorem ack_same_layout : SameLayout NewOrderAck := ⟨ack_bytes_on, ack_read_on⟩

structure CancelOrder where
  id : Fin (2 ^ 128)
deriving DecidableEq

def CancelOrder.asBytesOn (host : ByteOrder) (order : CancelOrder) : List UInt8 := toBeBytes host 16 order.id.val

def CancelOrder.tryRefFromOn (host : ByteOrder) (bytes : List UInt8) : Option CancelOrder :=
  if bytes.length = 16 then some ⟨readU128On host bytes⟩ else none

theorem cancel_order_read (encoding decoding : ByteOrder) (order : CancelOrder) :
    CancelOrder.tryRefFromOn decoding (order.asBytesOn encoding) = some order := by
  rw [CancelOrder.asBytesOn, CancelOrder.tryRefFromOn, to_be_bytes, if_pos (encode_length _ _ _), read_u128_on, read_u128]

instance cancelOrderHostFormat : HostFormat CancelOrder where
  on host := {
    asBytes := CancelOrder.asBytesOn host
    tryRefFrom := CancelOrder.tryRefFromOn host
    parsed := by
      intro bytes order read
      unfold CancelOrder.tryRefFromOn at read
      split at read
      · rename_i whole
        obtain rfl := Option.some.inj read
        rw [CancelOrder.asBytesOn, to_be_bytes, read_u128_on]
        exact u128_bytes whole
      · cases read
    parses := cancel_order_read host host }

inductive Side where
  | buy
  | sell
deriving DecidableEq

def Side.asByte : Side → UInt8
  | .buy => 0
  | .sell => 1

def Side.tryFromByte (byte : UInt8) : Option Side :=
  if byte = 0 then some .buy else if byte = 1 then some .sell else none

theorem side_parsed {byte : UInt8} {side : Side} (read : Side.tryFromByte byte = some side) : side.asByte = byte := by
  unfold Side.tryFromByte at read
  split at read
  · cases read
    exact Eq.symm ‹byte = 0›
  · split at read
    · cases read
      exact Eq.symm ‹byte = 1›
    · cases read

theorem side_parses (side : Side) : Side.tryFromByte side.asByte = some side := by cases side <;> rfl

abbrev NonZeroU64 := { number : UInt64 // number ≠ 0 }

-- `Option<NonZeroU64>` takes the place of zero for no number.
def niche : Option NonZeroU64 → UInt64
  | none => 0
  | some number => number.val

def fromNiche (number : UInt64) : Option NonZeroU64 := if nonzero : number ≠ 0 then some ⟨number, nonzero⟩ else none

theorem niche_from (number : UInt64) : niche (fromNiche number) = number := by
  by_cases zero : number = 0
  · rw [zero]
    rfl
  · rw [fromNiche, dif_pos zero, niche]

theorem from_niche (price : Option NonZeroU64) : fromNiche (niche price) = price := by
  cases price with
  | none => rfl
  | some number => exact dif_pos number.property

structure Order where
  user : Fin (2 ^ 128)
  side : Side
  price : Option NonZeroU64
deriving DecidableEq

-- The price is a native integer, in the bytes of the host.
def Order.asBytesOn (host : ByteOrder) (order : Order) : List UInt8 :=
  toBeBytes host 16 order.user.val ++ (order.side.asByte :: encode host 8 (niche order.price).toNat)

def Order.tryRefFromOn (host : ByteOrder) (bytes : List UInt8) : Option Order :=
  if bytes.length = 25 then
    match bytes.drop 16 with
    | side :: price =>
        (Side.tryFromByte side).map fun side =>
          ⟨readU128On host (bytes.take 16), side, fromNiche (.ofNat (decode host price))⟩
    | [] => none
  else none

-- The price is what the decoding host makes of the encoding host's bytes.
theorem order_read (encoding decoding : ByteOrder) (order : Order) :
    Order.tryRefFromOn decoding (order.asBytesOn encoding) =
      some { order with price := fromNiche (.ofNat (decode decoding (encode encoding 8 (niche order.price).toNat))) } := by
  have user : (encode .big 16 order.user.val).length = 16 := encode_length _ _ _
  have whole : (order.asBytesOn encoding).length = 25 := by
    rw [Order.asBytesOn, to_be_bytes, List.length_append, List.length_cons, encode_length, encode_length]
  rw [Order.tryRefFromOn, if_pos whole, Order.asBytesOn, to_be_bytes, List.drop_left' user, List.take_left' user]
  simp only [side_parses, Option.map_some, read_u128_on, read_u128]

theorem order_parsed {host : ByteOrder} {bytes : List UInt8} {order : Order}
    (read : Order.tryRefFromOn host bytes = some order) : order.asBytesOn host = bytes := by
  unfold Order.tryRefFromOn at read
  split at read
  · rename_i whole
    have user : (bytes.take 16).length = 16 := by
      rw [List.length_take]
      omega
    have tail : (bytes.drop 16).length = 9 := by
      rw [List.length_drop]
      omega
    have both := List.take_append_drop 16 bytes
    cases rest : bytes.drop 16 with
    | nil =>
        rw [rest] at read
        cases read
    | cons side price =>
        rw [rest] at read tail both
        obtain ⟨known, parsed, rfl⟩ := Option.map_eq_some_iff.mp read
        have width : price.length = 8 := Nat.succ.inj tail
        have fits := decode_lt host price
        rw [width] at fits
        have native : encode host 8 (UInt64.ofNat (decode host price)).toNat = price := by
          rw [UInt64.toNat_ofNat_of_lt' (by simpa using fits), ← width]
          exact encode_decode host price
        rw [Order.asBytesOn, to_be_bytes, read_u128_on, u128_bytes user, side_parsed parsed, niche_from, native, both]
  · cases read

instance orderHostFormat : HostFormat Order where
  on host := {
    asBytes := Order.asBytesOn host
    tryRefFrom := Order.tryRefFromOn host
    parsed := fun _ _ => order_parsed
    parses := by
      intro order
      rw [order_read, decode_encode host 8 _ (by simpa using (niche order.price).toNat_lt), UInt64.ofNat_toNat, from_niche] }

theorem from_niche_iff {number : UInt64} {price : Option NonZeroU64} : fromNiche number = price ↔ number = niche price := by
  constructor
  · intro same
    rw [← same, niche_from]
  · intro same
    rw [same, from_niche]

theorem swapped_price_iff (price : Option NonZeroU64) :
    fromNiche (.ofNat (swapBytes 8 (niche price).toNat)) = price ↔ (encode .big 8 (niche price).toNat).Palindrome := by
  have fits : (niche price).toNat < 256 ^ 8 := by simpa using (niche price).toNat_lt
  have swapped := swap_bytes_lt 8 (niche price).toNat
  have value : (UInt64.ofNat (swapBytes 8 (niche price).toNat)).toNat = swapBytes 8 (niche price).toNat :=
    UInt64.toNat_ofNat_of_lt' (by simpa using swapped)
  rw [from_niche_iff, ← UInt64.toNat_inj, value, swap_bytes_iff fits]

theorem order_kept_iff (encoding decoding : ByteOrder) (order : Order) :
    Kept encoding decoding order ↔
      encoding = decoding ∨ ∀ price, order.price = some price → (encode .big 8 price.val.toNat).Palindrome := by
  by_cases same : encoding = decoding
  · subst same
    exact iff_of_true ((HostFormat.on encoding).parses order) (.inl rfl)
  · have read : Kept encoding decoding order ↔
        fromNiche (.ofNat (swapBytes 8 (niche order.price).toNat)) = order.price := by
      change Order.tryRefFromOn decoding (order.asBytesOn encoding) = some order ↔ _
      rw [order_read, decode_encode_swaps same]
      obtain ⟨user, side, price⟩ := order
      simp only [Option.some.injEq, Order.mk.injEq, true_and]
    rw [read, swapped_price_iff, or_iff_right same]
    cases order.price with
    | none =>
        refine iff_of_true ?_ fun _ none => by cases none
        decide
    | some price => simp only [Option.some.injEq, forall_eq', niche]

/-- Only an order with a price is read by a host of the other order as something else. -/
theorem kept_between_hosts_iff (encoding decoding : ByteOrder) :
    (∀ (T : Type) [Tag T] (message : Message T (List UInt8)), Kept encoding decoding message) ∧
    (∀ (T P : Type) [Tag T] [HostFormat P] (message : Message T P),
      Kept encoding decoding message ↔ Kept encoding decoding message.payload) ∧
    (∀ order : CancelOrder, Kept encoding decoding order) ∧
    (∀ ack : NewOrderAck, Kept encoding decoding ack) ∧
    (∀ kind : ErrorKind, Kept encoding decoding kind) ∧
    ∀ order : Order, Kept encoding decoding order ↔
      encoding = decoding ∨ ∀ price, order.price = some price → (encode .big 8 price.val.toNat).Palindrome := by
  refine ⟨?_, ?_, ?_, ?_, ?_, ?_⟩
  · intro T _ message
    exact same_layout_independent (message_same_layout bytes_same_layout) encoding decoding message
  · intro T P _ _ message
    exact message_kept_iff encoding decoding message
  · intro order
    exact cancel_order_read encoding decoding order
  · exact same_layout_independent ack_same_layout encoding decoding
  · exact same_layout_independent error_kind_same_layout encoding decoding
  · exact order_kept_iff encoding decoding

def buyAtOne : Order := ⟨7, .buy, some ⟨1, by decide⟩⟩

theorem price_swapped : ¬ (HostIndependent (Message RequestKind (List UInt8)) ∧
    HostIndependent (Message ResponseKind (List UInt8)) ∧ HostIndependent Order ∧ HostIndependent CancelOrder ∧
      HostIndependent NewOrderAck ∧ HostIndependent ErrorKind) := by
  intro claimed
  have kept := (order_kept_iff .little .big buyAtOne).mp (claimed.2.2.1 .little .big buyAtOne)
  cases kept with
  | inl same => cases same
  | inr backwards =>
      have price := backwards _ rfl
      revert price
      decide

end MktSim
