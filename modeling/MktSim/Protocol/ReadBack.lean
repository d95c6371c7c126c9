import MktSim.Protocol.Io

set_option autoImplicit false

namespace MktSim

open Endian

-- What a message must be for `message` to expose it.
structure Sendable (T : Type) [Tag T] (message : List UInt8) : Prop where
  whole : 5 ≤ message.length
  fits : message.length ≤ 65535
  tagged : ∃ tag rest, message = tag :: rest ∧ (Tag.tryFromByte tag : Option T) ≠ none

def lengthPrefixed (order : ByteOrder) (message : List UInt8) : List UInt8 :=
  encode order 2 message.length ++ message

def MessageStream.ReadsBack (order : ByteOrder) (T : Type) [Tag T] : MessageStream → List (List UInt8) → Prop
  | _, [] => True
  | stream, expected :: rest =>
      (stream.readNext order).1 = .ok () ∧
      ((stream.readNext order).2.message : Option (Message T (List UInt8))).map Message.asBytes = some expected ∧
      MessageStream.ReadsBack order T (stream.readNext order).2 rest

variable {order : ByteOrder} {T : Type} [Tag T]

theorem length_decoded {message : List UInt8} (fits : message.length ≤ 65535) :
    (UInt16.ofNat (decode order (encode order 2 message.length))).toNat = message.length := by
  rw [decode_encode order 2 message.length (by omega)]
  exact UInt16.toNat_ofNat_of_lt' (by change message.length < 65536; omega)

theorem read_exact_front {front rest buf : List UInt8} (same : buf.length = front.length) :
    readExact (front ++ rest) buf = ⟨.ok (), front, rest⟩ := by
  have enough : buf.length ≤ (front ++ rest).length := by
    rw [List.length_append]
    omega
  rw [readExact, if_pos enough, same, List.take_left, List.drop_left]

theorem read_next_prefixed {message more : List UInt8} (fits : message.length ≤ 65535) (len : UInt16)
    (buf : List UInt8) :
    MessageStream.readNext order ⟨lengthPrefixed order message ++ more, len, buf⟩ =
      let kept := min message.length buf.length
      (.ok (), ⟨message.drop kept ++ more, UInt16.ofNat (decode order (encode order 2 message.length)),
        message.take kept⟩) := by
  have first : readExact (lengthPrefixed order message ++ more) (encode order 2 len.toNat) =
      ⟨.ok (), encode order 2 message.length, message ++ more⟩ := by
    rw [lengthPrefixed, List.append_assoc]
    exact read_exact_front (by rw [encode_length, encode_length])
  have room : (buf.take message.length).length = (message.take (min message.length buf.length)).length := by
    rw [List.length_take, List.length_take]
    omega
  have second : readExact (message ++ more) (buf.take message.length) =
      ⟨.ok (), message.take (min message.length buf.length), message.drop (min message.length buf.length) ++ more⟩ := by
    have filled := @read_exact_front _ (message.drop (min message.length buf.length) ++ more) _ room
    rwa [← List.append_assoc, List.take_append_drop] at filled
  unfold MessageStream.readNext
  simp only [first, length_decoded fits, second]

theorem sendable_exposed {message : List UInt8} (sendable : Sendable T message) :
    (Message.tryRefFrom message : Option (Message T (List UInt8))).map Message.asBytes = some message := by
  obtain ⟨tag, rest, rfl, known⟩ := sendable.tagged
  have whole := sendable.whole
  match rest with
  | a :: b :: c :: d :: payload =>
      cases tagged : (Tag.tryFromByte tag : Option T) with
      | none => exact absurd tagged known
      | some kind =>
          have read : (Message.tryRefFrom (tag :: a :: b :: c :: d :: payload) : Option (Message T (List UInt8))) =
              some ⟨kind, .ofNat (decode .big [a, b, c, d]), payload⟩ := by
            rw [Message.tryRefFrom, tagged]
            rfl
          rw [read, Option.map_some, message_parsed read]
  | [] | [_] | [_, _] | [_, _, _] => simp at whole

-- By induction on the messages: the buffer a message leaves has its length, and a longer
-- one does not fit in it any more.
theorem reads_back_room (messages : List (List UInt8)) (sendable : ∀ message ∈ messages, Sendable T message)
    (len : UInt16) (buf : List UInt8) :
    MessageStream.ReadsBack order T ⟨messages.flatMap (lengthPrefixed order), len, buf⟩ messages ↔
      (∀ message ∈ messages, message.length ≤ buf.length) ∧
        messages.Pairwise fun earlier later => later.length ≤ earlier.length := by
  induction messages generalizing len buf with
  | nil => simp [MessageStream.ReadsBack]
  | cons message rest ih =>
      have first := sendable message List.mem_cons_self
      have others : ∀ later ∈ rest, Sendable T later := fun later member => sendable later (List.mem_cons_of_mem _ member)
      rw [List.flatMap_cons, MessageStream.ReadsBack, read_next_prefixed first.fits, List.pairwise_cons]
      simp only [true_and]
      by_cases room : message.length ≤ buf.length
      · have exposed := sendable_exposed first
        rw [Nat.min_eq_left room, List.take_length, List.drop_length, List.nil_append, ih others]
        constructor
        · intro read
          obtain ⟨_, shorter, later⟩ := read
          refine ⟨?_, shorter, later⟩
          intro other member
          cases List.mem_cons.mp member with
          | inl same => rwa [same]
          | inr inRest => exact (shorter other inRest).trans room
        · intro decreasing
          exact ⟨exposed, decreasing.2.1, decreasing.2.2⟩
      · constructor
        · intro read
          obtain ⟨parsed, bytes, cut⟩ := Option.map_eq_some_iff.mp read.1
          have kept := congrArg List.length ((message_parsed bytes).symm.trans cut)
          simp only [List.length_take] at kept
          omega
        · intro fitting
          exact absurd (fitting.1 message List.mem_cons_self) room

/-- The buffer is only ever truncated: what is read back are the messages of which none is
longer than one before it. -/
theorem reads_back_iff (order : ByteOrder) (T : Type) [Tag T] (messages : List (List UInt8))
    (sendable : ∀ message ∈ messages, Sendable T message) :
    (MessageStream.new (messages.flatMap (lengthPrefixed order))).ReadsBack order T messages ↔
      messages.Pairwise fun earlier later => later.length ≤ earlier.length := by
  rw [MessageStream.new, reads_back_room messages sendable]
  refine and_iff_right ?_
  intro message member
  have fits := (sendable message member).fits
  rw [List.length_replicate]
  omega

def cancelOrderMessage : List UInt8 := [1, 0, 0, 0, 1, 9]

theorem bytes_sendable : ∀ message ∈ [cancelOrderMessage, [0, 0, 0, 0, 2]], Sendable RequestKind message := by
  intro message member
  cases List.mem_cons.mp member with
  | inl same =>
      rw [same]
      exact ⟨by decide, by decide, 1, _, rfl, by decide⟩
  | inr last =>
      rw [List.mem_singleton.mp last]
      exact ⟨by decide, by decide, 0, _, rfl, by decide⟩

theorem reads_back_iff_shorter :
    (MessageStream.new ([cancelOrderMessage, [0, 0, 0, 0, 2]].flatMap (lengthPrefixed .little))).ReadsBack .little RequestKind
        [cancelOrderMessage, [0, 0, 0, 0, 2]] ↔
      [cancelOrderMessage, [0, 0, 0, 0, 2]].Pairwise fun earlier later => later.length ≤ earlier.length :=
  reads_back_iff .little RequestKind _ bytes_sendable

theorem longer_message_cut : ¬ ∀ (order : ByteOrder) (messages : List (List UInt8)),
    (∀ message ∈ messages, Sendable RequestKind message) →
      (MessageStream.new (messages.flatMap (lengthPrefixed order))).ReadsBack order RequestKind messages := by
  intro claimed
  have sendable : ∀ message ∈ [[0, 0, 0, 0, 2], cancelOrderMessage], Sendable RequestKind message := by
    intro message member
    exact bytes_sendable message ((List.Perm.swap _ _ []).mem_iff.mp member)
  have read := claimed .little [[0, 0, 0, 0, 2], cancelOrderMessage] sendable
  have decreasing := ((reads_back_room _ sendable 0 (List.replicate 65536 0)).mp read).2
  revert decreasing
  decide

end MktSim
