import MktSim.MatchingEngine.Verdicts

set_option autoImplicit false

namespace MktSim

open Endian

def rejection (frame : List UInt8) (count : Nat) : Option ErrorKind :=
  match parsedRequest frame with
  | none => some .invalid
  | some request => if request.sequenceNumber.toNat = count then none else some .unexpectedSequenceNumber

def kindByte : ErrorKind → UInt8
  | .invalid => 0
  | .unexpectedSequenceNumber => 1

def rejectionBytes (count : Nat) (kind : ErrorKind) : List UInt8 := 2 :: (encode .big 4 count ++ [kindByte kind])

def rejected (entry : List UInt8 × Nat) : Bool := (rejection entry.1 entry.2).isSome

def toldOff (entry : List UInt8 × Nat) : List UInt8 :=
  ((rejection entry.1 entry.2).map (rejectionBytes entry.2)).getD []

theorem rejection_bytes_length (count : Nat) (kind : ErrorKind) : (rejectionBytes count kind).length = 6 := by
  rw [rejectionBytes, List.length_cons, List.length_append, encode_length, List.length_singleton]

theorem verdict_rejection (frame : List UInt8) (seq : UInt32) : verdict frame seq = rejection frame seq.toNat := by
  rw [verdict, rejection]
  cases parsedRequest frame with
  | none => rfl
  | some request =>
      by_cases due : request.sequenceNumber = seq
      · simp only [ne_eq, due, not_true_eq_false, if_false, if_true]
      · have other : request.sequenceNumber.toNat ≠ seq.toNat := fun same => due (UInt32.toNat_inj.mp same)
        simp only [ne_eq, due, other, not_false_eq_true, if_true, if_false]

theorem error_reply_bytes (seq : UInt32) (kind : ErrorKind) : errorReply seq kind = rejectionBytes seq.toNat kind := by
  cases kind <;> rfl

theorem reply_told_off (frame : List UInt8) (seq : UInt32) : replyTo frame seq = toldOff (frame, seq.toNat) := by
  rw [reply_verdict, verdict_rejection, toldOff]
  cases rejection frame seq.toNat with
  | none => rfl
  | some kind => exact error_reply_bytes seq kind

theorem told_off_length (entries : List (List UInt8 × Nat)) :
    (entries.flatMap toldOff).length = 6 * entries.countP rejected := by
  induction entries with
  | nil => rfl
  | cons entry rest ih =>
      rw [List.flatMap_cons, List.length_append, List.countP_cons, ih, toldOff, rejected]
      cases rejection entry.1 entry.2 with
      | none => simp
      | some kind =>
          have six := rejection_bytes_length entry.2 kind
          simp only [Option.map_some, Option.getD_some, Option.isSome_some, if_true]
          omega

-- By induction on the frames: the counter of a frame is the first one and its place.
theorem replies_told_off (frames : List (List UInt8)) {seq : UInt32} (bounded : seq.toNat + frames.length < 2 ^ 32) :
    replies frames seq = (frames.zipIdx seq.toNat).flatMap toldOff := by
  induction frames generalizing seq with
  | nil => rfl
  | cons frame rest ih =>
      rw [List.length_cons] at bounded
      have next : (seq + 1).toNat = seq.toNat + 1 := counter_next (by omega)
      rw [replies, reply_told_off, List.zipIdx_cons, List.flatMap_cons, ← next, ih (by omega)]

/-- It returns the length of the frames and has counted them all, with a reply of 6 bytes to
each one that does not parse or does not carry the count it is at. -/
theorem validate_accounts (frames : List (List UInt8))
    (framed : ∀ frame ∈ frames, 2 ≤ frame.length ∧ declaredLength frame = some frame.length) (tail : List UInt8)
    (cut : ∃ length, declaredLength tail = some length ∧ tail.length < length) (writeBuf : List UInt8) (seq : UInt32)
    (bounded : seq.toNat + frames.length < 2 ^ 32) :
    validate (frames.flatten ++ tail) writeBuf seq =
        .returned frames.flatten.length (writeBuf ++ (frames.zipIdx seq.toNat).flatMap toldOff)
          (.ofNat (seq.toNat + frames.length)) ∧
      ((frames.zipIdx seq.toNat).flatMap toldOff).length = 6 * (frames.zipIdx seq.toNat).countP rejected := by
  refine ⟨?_, told_off_length _⟩
  rw [validate_well_framed framed cut, replies_told_off frames bounded, counterAfter, UInt32.ofNat_add, UInt32.ofNat_toNat]

def mixedFrames : List (List UInt8) := [[0, 7, 1, 7, 1, 7, 1], [0, 2], [0, 5, 0, 0, 9]]

theorem validate_accounts_mixed :
    validate (mixedFrames.flatten ++ [0, 3]) [9] 0x07010701 =
        .returned 14 [9, 2, 7, 1, 7, 2, 0, 2, 7, 1, 7, 3, 1] 0x07010704 ∧
      ((mixedFrames.zipIdx 0x07010701).flatMap toldOff).length = 6 * (mixedFrames.zipIdx 0x07010701).countP rejected :=
  validate_accounts mixedFrames (by decide) [0, 3] ⟨3, rfl, by decide⟩ [9] 0x07010701 (by decide)

end MktSim
