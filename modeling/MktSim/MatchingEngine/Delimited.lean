import MktSim.MatchingEngine.Validate

set_option autoImplicit false

namespace MktSim

open Endian

def declaredLength : List UInt8 → Option Nat
  | first :: second :: _ => some (decode .big [first, second])
  | _ => none

-- Each frame is as long as the two bytes at its start declare. Behind the last are two bytes
-- or more, which declare more than is there.
def FramesBefore : List (List UInt8) → List UInt8 → Prop
  | [], tail => ∃ length, declaredLength tail = some length ∧ tail.length < length
  | frame :: rest, tail =>
      frame ≠ [] ∧ declaredLength ((frame :: rest).flatten ++ tail) = some frame.length ∧ FramesBefore rest tail

def Delimited (rem : List UInt8) : Prop := ∃ frames tail, rem = frames.flatten ++ tail ∧ FramesBefore frames tail

theorem front_declared (rem : List UInt8) :
    front rem =
      match declaredLength rem with
      | none => .outOfBounds
      | some length => if length > rem.length then .incomplete else .frame (rem.take length) (rem.drop length) := by
  match rem with
  | [] | [_] => rfl
  | _ :: _ :: _ => rfl

theorem incomplete_iff (tail : List UInt8) :
    front tail = .incomplete ↔ ∃ length, declaredLength tail = some length ∧ tail.length < length := by
  rw [front_declared]
  cases declaredLength tail with
  | none => simp
  | some length =>
      simp only [Option.some.injEq, exists_eq_left']
      split <;> simp_all

theorem front_of_declared {frame rest : List UInt8} (declared : declaredLength (frame ++ rest) = some frame.length) :
    front (frame ++ rest) = .frame frame rest := by
  rw [front_declared, declared]
  simp only
  rw [if_neg (by rw [List.length_append]; omega), List.take_left, List.drop_left]

theorem declared_of_front {rem frame rest : List UInt8} (framed : front rem = .frame frame rest) :
    declaredLength rem = some frame.length := by
  rw [front_declared] at framed
  cases declared : declaredLength rem with
  | none =>
      rw [declared] at framed
      cases framed
  | some length =>
      rw [declared] at framed
      simp only at framed
      split at framed
      · cases framed
      · cases framed
        rw [List.length_take, Nat.min_eq_left (by omega)]

theorem frames_before_split {frames : List (List UInt8)} {tail : List UInt8} (framed : FramesBefore frames tail) :
    splitFrames (frames.flatten ++ tail) = ⟨frames, tail, some .incomplete⟩ := by
  have walked : framesOf (frames.length + 1) (frames.flatten ++ tail) = ⟨frames, tail, some .incomplete⟩ := by
    induction frames with
    | nil =>
        have stops := (incomplete_iff tail).mpr framed
        rw [List.flatten_nil, List.nil_append, List.length_nil, framesOf, stops]
    | cons frame rest ih =>
        obtain ⟨_, declared, later⟩ := framed
        rw [List.flatten_cons, List.append_assoc] at declared ⊢
        rw [List.length_cons, framesOf, front_of_declared declared]
        simp only [ih later]
  have ends : (framesOf (frames.length + 1) (frames.flatten ++ tail)).ending ≠ none := by
    rw [walked]
    exact Option.some_ne_none _
  rw [splitFrames, frames_of_within ends, walked]

theorem declared_append {frame : List UInt8} {length : Nat} (declared : declaredLength frame = some length)
    (rest : List UInt8) : declaredLength (frame ++ rest) = some length := by
  match frame with
  | [] | [_] => cases declared
  | _ :: _ :: _ => exact declared

theorem well_framed_before {frames : List (List UInt8)}
    (framed : ∀ frame ∈ frames, 2 ≤ frame.length ∧ declaredLength frame = some frame.length) {tail : List UInt8}
    (cut : ∃ length, declaredLength tail = some length ∧ tail.length < length) : FramesBefore frames tail := by
  induction frames with
  | nil => exact cut
  | cons frame rest ih =>
      obtain ⟨whole, declared⟩ := framed frame List.mem_cons_self
      refine ⟨List.ne_nil_of_length_pos (by omega), ?_, ih fun other member => framed other (List.mem_cons_of_mem _ member)⟩
      rw [List.flatten_cons, List.append_assoc]
      exact declared_append declared _

theorem validate_well_framed {frames : List (List UInt8)}
    (framed : ∀ frame ∈ frames, 2 ≤ frame.length ∧ declaredLength frame = some frame.length) {tail : List UInt8}
    (cut : ∃ length, declaredLength tail = some length ∧ tail.length < length) (writeBuf : List UInt8) (seq : UInt32) :
    validate (frames.flatten ++ tail) writeBuf seq =
      .returned frames.flatten.length (writeBuf ++ replies frames seq) (counterAfter frames seq) := by
  rw [validate_frames, frames_before_split (well_framed_before framed cut)]
  simp only [List.length_append, Nat.add_sub_cancel]

theorem walked_frames_before (fuel : Nat) (rem : List UInt8) (ends : (framesOf fuel rem).ending = some .incomplete) :
    FramesBefore (framesOf fuel rem).frames (framesOf fuel rem).rest := by
  induction fuel generalizing rem with
  | zero => cases ends
  | succ fuel ih =>
      cases framed : front rem with
      | outOfBounds =>
          rw [framesOf, framed] at ends
          cases ends
      | incomplete =>
          rw [framesOf, framed]
          exact (incomplete_iff rem).mp framed
      | frame msgBytes rest =>
          have nonempty : msgBytes ≠ [] := by
            rintro rfl
            rw [empty_frame_runs framed (fuel + 1)] at ends
            cases ends
          have whole : (msgBytes :: (framesOf fuel rest).frames).flatten ++ (framesOf fuel rest).rest = rem := by
            rw [List.flatten_cons, List.append_assoc, ← frames_of_flatten, front_frame framed]
          rw [framesOf, framed] at ends ⊢
          refine ⟨nonempty, ?_, ih rest ends⟩
          simp only [whole]
          exact declared_of_front framed

theorem split_frames_before {rem : List UInt8} (ends : (splitFrames rem).ending = some .incomplete) :
    FramesBefore (splitFrames rem).frames (splitFrames rem).rest := walked_frames_before (rem.length + 1) rem ends

theorem delimited_iff (rem : List UInt8) : Delimited rem ↔ (splitFrames rem).ending = some .incomplete := by
  constructor
  · intro delimited
    obtain ⟨frames, tail, rfl, framed⟩ := delimited
    rw [frames_before_split framed]
  · intro ends
    exact ⟨_, _, split_frames_flatten rem, split_frames_before ends⟩

theorem frames_nonempty {frames : List (List UInt8)} {tail : List UInt8} (framed : FramesBefore frames tail) :
    ∀ frame ∈ frames, frame ≠ [] := by
  induction frames with
  | nil => exact fun _ member => absurd member List.not_mem_nil
  | cons frame rest ih =>
      intro other member
      cases List.mem_cons.mp member with
      | inl same =>
          rw [same]
          exact framed.1
      | inr later => exact ih framed.2.2 other later

theorem frames_within {frames : List (List UInt8)} (nonempty : ∀ frame ∈ frames, frame ≠ []) :
    frames.length ≤ frames.flatten.length := by
  induction frames with
  | nil => exact Nat.le_refl 0
  | cons frame rest ih =>
      have first := List.length_pos_iff.mpr (nonempty frame List.mem_cons_self)
      have later := ih fun other member => nonempty other (List.mem_cons_of_mem _ member)
      rw [List.flatten_cons, List.length_append, List.length_cons]
      omega

@[simp] theorem error_reply_length (seq : UInt32) (kind : ErrorKind) : (errorReply seq kind).length = 6 := by
  rw [errorReply, Message.asBytes, List.length_cons, List.length_append, encode_length]
  cases kind <;> rfl

theorem reply_cases (msgBytes : List UInt8) (seq : UInt32) :
    replyTo msgBytes seq = [] ∨ ∃ kind, replyTo msgBytes seq = errorReply seq kind := by
  unfold replyTo
  split
  · exact .inr ⟨_, rfl⟩
  · split
    · exact .inr ⟨_, rfl⟩
    · exact .inl rfl

theorem reply_length (msgBytes : List UInt8) (seq : UInt32) : (replyTo msgBytes seq).length ≤ 6 := by
  cases reply_cases msgBytes seq with
  | inl none =>
      rw [none]
      exact Nat.zero_le 6
  | inr some =>
      obtain ⟨kind, reply⟩ := some
      rw [reply, error_reply_length]

theorem replies_length (frames : List (List UInt8)) (seq : UInt32) : (replies frames seq).length ≤ 6 * frames.length := by
  induction frames generalizing seq with
  | nil => exact Nat.le_refl 0
  | cons frame rest ih =>
      have first := reply_length frame seq
      have later := ih (seq + 1)
      rw [replies, List.length_append, List.length_cons]
      omega

/-- It comes back from the slices that end in the middle of a frame, behind its length, with no
frame of length 0 before it. At a frame's end it indexes past the slice, and on a frame of
length 0 it stays for good. -/
theorem validate_returns_iff (rem writeBuf : List UInt8) (seq : UInt32) :
    (∃ consumed sent next, validate rem writeBuf seq = .returned consumed (writeBuf ++ sent) next ∧
      consumed ≤ rem.length ∧ sent.length ≤ 6 * rem.length) ↔ Delimited rem := by
  rw [delimited_iff]
  constructor
  · intro returned
    obtain ⟨consumed, sent, next, returned, _⟩ := returned
    exact (validate_consumed returned).2.2.2
  · intro ends
    have whole := congrArg List.length (split_frames_flatten rem)
    have answered := replies_length (splitFrames rem).frames seq
    have few := frames_within (frames_nonempty (split_frames_before ends))
    rw [List.length_append] at whole
    refine ⟨_, _, _, by rw [validate_frames, ends], Nat.sub_le _ _, ?_⟩
    omega

theorem frame_boundary_panics : ¬ ∀ (rem writeBuf : List UInt8) (seq : UInt32),
    ∃ consumed sent next, validate rem writeBuf seq = .returned consumed (writeBuf ++ sent) next ∧
      consumed ≤ rem.length ∧ sent.length ≤ 6 * rem.length := by
  intro claimed
  obtain ⟨consumed, sent, next, returned, _⟩ := claimed [0, 7, 0, 0, 0, 0, 0] [] 0
  have panics : validate [0, 7, 0, 0, 0, 0, 0] [] 0 = .panicked := rfl
  rw [panics] at returned
  cases returned

end MktSim
