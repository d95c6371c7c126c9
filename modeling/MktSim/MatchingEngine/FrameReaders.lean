import Mathlib.Algebra.Order.BigOperators.Group.List
import Mathlib.Algebra.Order.Ring.Nat
import MktSim.MatchingEngine.Validate
import MktSim.Protocol.Io

set_option autoImplicit false

namespace MktSim

open Endian

def RequestBytes (message : List UInt8) : Prop :=
  5 ≤ message.length ∧ message.length ≤ 65533 ∧
    ∃ tag rest, message = tag :: rest ∧ (Tag.tryFromByte tag : Option RequestKind) ≠ none

-- One framing that both readers take apart into the messages. What follows it for
-- `validate` is any incomplete frame, which is left over.
def ReadersAgree (order : ByteOrder) (messages : List (List UInt8)) : Prop :=
  ∃ framing, (MessageStream.new framing).Returns order RequestKind messages ∧
    ∀ tail, front tail = .incomplete → splitFrames (framing ++ tail) = ⟨messages, tail, some .incomplete⟩

theorem incomplete_split {tail : List UInt8} (incomplete : front tail = .incomplete) :
    splitFrames tail = ⟨[], tail, some .incomplete⟩ := by
  rw [splitFrames, framesOf, incomplete]

theorem split_framing {framing tail : List UInt8} {messages : List (List UInt8)} {ending : Option Front}
    (splits : splitFrames (framing ++ tail) = ⟨messages, tail, ending⟩) : framing = messages.flatten := by
  have whole := split_frames_flatten (framing ++ tail)
  rw [splits] at whole
  exact List.append_cancel_right whole

theorem flatten_shorter {messages : List (List UInt8)}
    (within : (messages.map fun message => message.length + 2).sum ≤ messages.flatten.length) : messages = [] := by
  cases messages with
  | nil => rfl
  | cons message rest =>
      have framed : ∀ others : List (List UInt8),
          others.flatten.length ≤ (others.map fun other => other.length + 2).sum := by
        intro others
        rw [List.length_flatten]
        exact List.sum_le_sum fun other _ => Nat.le_add_right _ 2
      have later := framed rest
      rw [List.map_cons, List.sum_cons, List.flatten_cons, List.length_append] at within
      omega

theorem agree_on_none {order : ByteOrder} {messages : List (List UInt8)} (agree : ReadersAgree order messages) :
    messages = [] := by
  obtain ⟨framing, returns, splits⟩ := agree
  have consumed := returns_length returns
  have whole := split_framing (splits [0, 3] (by decide))
  change _ ≤ framing.length at consumed
  rw [whole] at consumed
  exact flatten_shorter consumed

/-- `validate` cuts a frame that counts and keeps its length bytes, `MessageStream` a message
behind them: no bytes are the same messages to both. -/
theorem readers_agree_iff (order : ByteOrder) (messages : List (List UInt8)) :
    ReadersAgree order messages ↔ messages = [] := by
  constructor
  · exact agree_on_none
  · rintro rfl
    exact ⟨[], read_next_end rfl, fun tail incomplete => incomplete_split incomplete⟩

def newOrderMessage : List UInt8 := [0, 0, 0, 0, 0]

theorem readers_disagree : ¬ ∀ (order : ByteOrder) (messages : List (List UInt8)),
    (∀ message ∈ messages, RequestBytes message) → ReadersAgree order messages := by
  intro claimed
  have agree := claimed .little [newOrderMessage] (by
    intro message member
    rw [List.mem_singleton.mp member]
    exact ⟨by decide, by decide, 0, [0, 0, 0, 0], rfl, by decide⟩)
  cases agree_on_none agree

end MktSim
