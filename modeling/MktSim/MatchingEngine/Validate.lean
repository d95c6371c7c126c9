import MktSim.Protocol.Message

set_option autoImplicit false

namespace MktSim

open Endian

inductive Front where
  | outOfBounds
  | incomplete
  | frame (msgBytes rest : List UInt8)
deriving DecidableEq

-- The length counts its own two bytes, which stay in front of the message.
def front : List UInt8 → Front
  | first :: second :: rest =>
      let rem := first :: second :: rest
      let len := decode .big [first, second]
      if len > rem.length then .incomplete else .frame (rem.take len) (rem.drop len)
  | _ => .outOfBounds

def errorReply (seq : UInt32) (kind : ErrorKind) : List UInt8 :=
  (Message.new seq kind : Message ResponseKind ErrorKind).asBytes

def replyTo (msgBytes : List UInt8) (seq : UInt32) : List UInt8 :=
  match (Message.tryRefFrom msgBytes : Option (Message RequestKind (List UInt8))) with
  | none => errorReply seq .invalid
  | some msg => if msg.sequenceNumber ≠ seq then errorReply seq .unexpectedSequenceNumber else []

inductive Validation where
  | returned (consumed : Nat) (writeBuf : List UInt8) (seq : UInt32)
  | panicked
  | running
deriving DecidableEq

def validateLoop (original : Nat) : Nat → List UInt8 → List UInt8 → UInt32 → Validation
  | 0, _, _, _ => .running
  | fuel + 1, rem, writeBuf, seq =>
      match front rem with
      | .outOfBounds => .panicked
      | .incomplete => .returned (original - rem.length) writeBuf seq
      | .frame msgBytes rest => validateLoop original fuel rest (writeBuf ++ replyTo msgBytes seq) (seq + 1)

-- A loop that is still running after an iteration for every byte never ends: a
-- frame of declared length 0 leaves the slice as it was.
def validate (rem writeBuf : List UInt8) (seq : UInt32) : Validation :=
  validateLoop rem.length (rem.length + 1) rem writeBuf seq

structure Frames where
  frames : List (List UInt8)
  rest : List UInt8
  ending : Option Front
deriving DecidableEq

def framesOf : Nat → List UInt8 → Frames
  | 0, rem => ⟨[], rem, none⟩
  | fuel + 1, rem =>
      match front rem with
      | .frame msgBytes rest =>
          let later := framesOf fuel rest
          ⟨msgBytes :: later.frames, later.rest, later.ending⟩
      | stop => ⟨[], rem, some stop⟩

def splitFrames (rem : List UInt8) : Frames := framesOf (rem.length + 1) rem

def replies : List (List UInt8) → UInt32 → List UInt8
  | [], _ => []
  | msgBytes :: rest, seq => replyTo msgBytes seq ++ replies rest (seq + 1)

def counterAfter (frames : List (List UInt8)) (seq : UInt32) : UInt32 := seq + .ofNat frames.length

theorem front_frame {rem msgBytes rest : List UInt8} (framed : front rem = .frame msgBytes rest) :
    rem = msgBytes ++ rest := by
  match rem with
  | first :: second :: tail =>
      rw [front] at framed
      split at framed
      · cases framed
      · cases framed
        exact (List.take_append_drop _ _).symm
  | [] | [_] => cases framed

theorem counter_after_cons (msgBytes : List UInt8) (rest : List (List UInt8)) (seq : UInt32) :
    counterAfter rest (seq + 1) = counterAfter (msgBytes :: rest) seq := by
  rw [counterAfter, counterAfter, List.length_cons, UInt32.ofNat_add, UInt32.add_assoc, UInt32.add_comm 1]
  rfl

-- The loop is its splitting into frames, with the replies to them.
theorem validate_loop_frames (original fuel : Nat) (rem writeBuf : List UInt8) (seq : UInt32) :
    validateLoop original fuel rem writeBuf seq =
      match (framesOf fuel rem).ending with
      | none => .running
      | some .incomplete => .returned (original - (framesOf fuel rem).rest.length)
          (writeBuf ++ replies (framesOf fuel rem).frames seq) (counterAfter (framesOf fuel rem).frames seq)
      | some _ => .panicked := by
  induction fuel generalizing rem writeBuf seq with
  | zero => rfl
  | succ fuel ih =>
      rw [validateLoop, framesOf]
      cases framed : front rem with
      | outOfBounds => rfl
      | incomplete => simp [replies, counterAfter]
      | frame msgBytes rest =>
          simp only
          rw [ih, counter_after_cons msgBytes]
          simp only [replies, List.append_assoc]

theorem frames_of_flatten (fuel : Nat) (rem : List UInt8) :
    rem = (framesOf fuel rem).frames.flatten ++ (framesOf fuel rem).rest := by
  induction fuel generalizing rem with
  | zero => rfl
  | succ fuel ih =>
      rw [framesOf]
      cases framed : front rem with
      | outOfBounds => rfl
      | incomplete => rfl
      | frame msgBytes rest =>
          simp only [List.flatten_cons, List.append_assoc]
          rw [← ih rest]
          exact front_frame framed

theorem validate_frames (rem writeBuf : List UInt8) (seq : UInt32) :
    validate rem writeBuf seq =
      match (splitFrames rem).ending with
      | none => .running
      | some .incomplete => .returned (rem.length - (splitFrames rem).rest.length)
          (writeBuf ++ replies (splitFrames rem).frames seq) (counterAfter (splitFrames rem).frames seq)
      | some _ => .panicked := validate_loop_frames rem.length (rem.length + 1) rem writeBuf seq

theorem split_frames_flatten (rem : List UInt8) :
    rem = (splitFrames rem).frames.flatten ++ (splitFrames rem).rest := frames_of_flatten (rem.length + 1) rem

theorem validate_consumed {rem writeBuf sent : List UInt8} {seq next : UInt32} {consumed : Nat}
    (returned : validate rem writeBuf seq = .returned consumed sent next) :
    consumed = (splitFrames rem).frames.flatten.length ∧ sent = writeBuf ++ replies (splitFrames rem).frames seq ∧
      next = counterAfter (splitFrames rem).frames seq ∧ (splitFrames rem).ending = some .incomplete := by
  have whole := congrArg List.length (split_frames_flatten rem)
  rw [List.length_append] at whole
  rw [validate_frames] at returned
  split at returned
  · cases returned
  · cases returned
    rename_i stops
    exact ⟨by omega, rfl, rfl, stops⟩
  · cases returned

theorem frames_of_more {fuel : Nat} {rem : List UInt8} (ends : (framesOf fuel rem).ending ≠ none) (more : Nat) :
    framesOf (fuel + more) rem = framesOf fuel rem := by
  induction fuel generalizing rem with
  | zero => exact absurd rfl ends
  | succ fuel ih =>
      rw [Nat.succ_add, framesOf, framesOf]
      rw [framesOf] at ends
      cases framed : front rem with
      | outOfBounds => rfl
      | incomplete => rfl
      | frame msgBytes rest =>
          rw [framed] at ends
          simp only at ends ⊢
          rw [ih ends]

theorem empty_frame_runs {rem rest : List UInt8} (framed : front rem = .frame [] rest) (fuel : Nat) :
    (framesOf fuel rem).ending = none := by
  obtain rfl : rem = rest := front_frame framed
  induction fuel with
  | zero => rfl
  | succ fuel ih =>
      rw [framesOf, framed]
      exact ih

theorem frames_of_within {fuel : Nat} {rem : List UInt8} (ends : (framesOf fuel rem).ending ≠ none) :
    framesOf (rem.length + 1) rem = framesOf fuel rem := by
  induction fuel generalizing rem with
  | zero => exact absurd rfl ends
  | succ fuel ih =>
      have always := ends
      rw [framesOf] at ends
      rw [framesOf, framesOf]
      cases framed : front rem with
      | outOfBounds => rfl
      | incomplete => rfl
      | frame msgBytes rest =>
          cases msgBytes with
          | nil => exact absurd (empty_frame_runs framed (fuel + 1)) always
          | cons byte bytes =>
              rw [framed] at ends
              simp only at ends ⊢
              have shorter : rem.length = rest.length + 1 + bytes.length := by
                rw [front_frame framed, List.length_append, List.length_cons]
                omega
              have within := ih ends
              have stillEnds : (framesOf (rest.length + 1) rest).ending ≠ none := by
                rw [within]
                exact ends
              rw [shorter, frames_of_more stillEnds, within]

-- One iteration for every byte and one more are enough for a loop that ends at all.
theorem running_never_ends {rem writeBuf : List UInt8} {seq : UInt32} (running : validate rem writeBuf seq = .running)
    (fuel : Nat) : validateLoop rem.length fuel rem writeBuf seq = .running := by
  have still : (splitFrames rem).ending = none := by
    rw [validate_frames] at running
    split at running
    · assumption
    · cases running
    · cases running
  have never : (framesOf fuel rem).ending = none := by
    by_contra ends
    rw [splitFrames, frames_of_within ends] at still
    exact ends still
  rw [validate_loop_frames, never]

end MktSim
