import MktSim.MatchingEngine.Verdicts
import MktSim.Protocol.ReadBack

set_option autoImplicit false

namespace MktSim

open Endian

def toldOffs : List (List UInt8) → UInt32 → List (UInt32 × ErrorKind)
  | [], _ => []
  | frame :: rest, seq => (verdict frame seq).toList.map (fun kind => (seq, kind)) ++ toldOffs rest (seq + 1)

def errorReplies (told : List (UInt32 × ErrorKind)) : List (List UInt8) :=
  told.map fun entry => errorReply entry.1 entry.2

theorem replies_flatten (frames : List (List UInt8)) (seq : UInt32) :
    replies frames seq = (errorReplies (toldOffs frames seq)).flatten := by
  induction frames generalizing seq with
  | nil => rfl
  | cons frame rest ih =>
      rw [replies, reply_verdict, ih, toldOffs]
      cases verdict frame seq with
      | none => rfl
      | some kind => simp [errorReplies, verdictBytes]

theorem error_replies_injective {first second : List (UInt32 × ErrorKind)}
    (same : (errorReplies first).flatten = (errorReplies second).flatten) : first = second := by
  induction first generalizing second with
  | nil =>
      cases second with
      | nil => rfl
      | cons entry rest =>
          have lengths := congrArg List.length same
          simp [errorReplies, error_reply_length] at lengths
          omega
  | cons entry rest ih =>
      cases second with
      | nil =>
          have lengths := congrArg List.length same
          simp [errorReplies, error_reply_length] at lengths
      | cons other others =>
          simp only [errorReplies, List.map_cons, List.flatten_cons] at same
          obtain ⟨head, tail⟩ := List.append_inj same ((error_reply_length _ _).trans (error_reply_length _ _).symm)
          obtain ⟨seq, kind⟩ := error_reply_injective head
          rw [Prod.ext seq kind, ih tail]

/-- What a client is sent says exactly at which counters its messages were told off, and why. -/
theorem replies_tell_apart (first second writeBuf sent again : List UInt8) (seq other next last : UInt32) (consumed taken : Nat)
    (returned : validate first writeBuf seq = .returned consumed sent next)
    (repeated : validate second writeBuf other = .returned taken again last) :
    sent = again ↔ toldOffs (splitFrames first).frames seq = toldOffs (splitFrames second).frames other := by
  obtain ⟨_, rfl, _⟩ := validate_consumed returned
  obtain ⟨_, rfl, _⟩ := validate_consumed repeated
  rw [replies_flatten, replies_flatten, List.append_cancel_left_eq]
  exact ⟨error_replies_injective, fun same => by rw [same]⟩

theorem length_fits (order : ByteOrder) (first second : UInt8) : decode order [first, second] < 65536 := by
  simpa using decode_lt order [first, second]

theorem first_read_length {order : ByteOrder} {first second : UInt8} {rest buf : List UInt8} {len : UInt16}
    (done : (MessageStream.readNext order ⟨first :: second :: rest, len, buf⟩).1 = .ok ()) :
    (MessageStream.readNext order ⟨first :: second :: rest, len, buf⟩).2.buf.length =
      min (decode order [first, second]) buf.length := by
  have length : (UInt16.ofNat (decode order [first, second])).toNat = decode order [first, second] :=
    UInt16.toNat_ofNat_of_lt' (length_fits order first second)
  have header : readExact (first :: second :: rest) (encode order 2 len.toNat) = ⟨.ok (), [first, second], rest⟩ :=
    @read_exact_front [first, second] rest _ (by rw [encode_length]; rfl)
  unfold MessageStream.readNext at done ⊢
  simp only [header, length] at done ⊢
  obtain ⟨filled, _, enough⟩ := read_exact_ok done
  rw [filled, List.length_take, List.length_take]
  rw [List.length_take] at enough
  exact Nat.min_eq_left enough

-- The tag of an error and the first byte of its counter are no length of a reply.
theorem reply_header (order : ByteOrder) (byte : UInt8) : decode order [2, byte] ≠ 6 := by
  cases order with
  | big =>
      change byte.toNat + 256 * (2 + 256 * 0) ≠ 6
      omega
  | little =>
      change 2 + 256 * (byte.toNat + 256 * 0) ≠ 6
      omega

/-- The protocol's own reader gets no reply of the engine back: they are sent without a length in front. -/
theorem replies_read_iff (order : ByteOrder) (bytes sent : List UInt8) (seq next : UInt32) (consumed : Nat)
    (returned : validate bytes [] seq = .returned consumed sent next) :
    (MessageStream.new sent).Returns order ResponseKind (errorReplies (toldOffs (splitFrames bytes).frames seq)) ↔
      toldOffs (splitFrames bytes).frames seq = [] := by
  obtain ⟨_, rfl, _⟩ := validate_consumed returned
  rw [List.nil_append, replies_flatten]
  cases told : toldOffs (splitFrames bytes).frames seq with
  | nil => exact iff_of_true (read_next_end rfl) rfl
  | cons entry rest =>
      refine iff_of_false (fun reads => ?_) (List.cons_ne_nil _ _)
      obtain ⟨done, message, _⟩ := reads
      have six := congrArg List.length (returned_message message)
      rw [error_reply_length] at six
      have first : ∃ high more, (errorReplies (entry :: rest)).flatten = 2 :: high :: more := ⟨_, _, rfl⟩
      obtain ⟨high, more, split⟩ := first
      rw [split] at done six
      have short := length_fits order 2 high
      have length := first_read_length done
      rw [List.length_replicate, Nat.min_eq_left (Nat.le_of_lt short)] at length
      exact reply_header order high (length.symm.trans six)

theorem replies_tell_apart_cut :
    ([] : List UInt8) ++ errorReply 7 .invalid = errorReply 7 .invalid ↔
      toldOffs (splitFrames [0, 2, 0, 3]).frames 7 = toldOffs (splitFrames [0, 3, 9, 0, 9]).frames 7 :=
  replies_tell_apart [0, 2, 0, 3] [0, 3, 9, 0, 9] [] _ _ 7 7 8 8 2 3 (by decide) (by decide)

theorem replies_read_iff_cut : (MessageStream.new (errorReply 7 .invalid)).Returns .little ResponseKind
    (errorReplies (toldOffs (splitFrames [0, 2, 0, 3]).frames 7)) ↔ toldOffs (splitFrames [0, 2, 0, 3]).frames 7 = [] :=
  replies_read_iff .little [0, 2, 0, 3] (errorReply 7 .invalid) 7 8 2 (by decide)

end MktSim
