import MktSim.MatchingEngine.Connection
import MktSim.MatchingEngine.Verdicts

set_option autoImplicit false

namespace MktSim

def acceptedFrames : List (List UInt8) → UInt32 → List (List UInt8)
  | [], _ => []
  | frame :: rest, seq =>
      if replyTo frame seq = [] then frame :: acceptedFrames rest (seq + 1) else acceptedFrames rest (seq + 1)

-- What is committed for a read are its accepted frames, each whole and nothing else.
def JournalsAccepted (connection : Connection) (buf bytes : List UInt8) : Prop :=
  ((connection.finishRead buf bytes).2.getD []) = (acceptedFrames (splitFrames bytes).frames connection.seq).flatten

theorem finish_read_segment (connection : Connection) (buf bytes : List UInt8) :
    (connection.finishRead buf bytes).2 =
      if (splitFrames bytes).ending = some .incomplete then some (splitFrames bytes).frames.flatten else none := by
  cases done : connection.finishRead buf bytes with
  | mk next segment =>
      cases segment with
      | some segment =>
          obtain ⟨same, _, _, _, ends⟩ := finish_read_frames done
          rw [if_pos ends, same]
      | none =>
          rw [if_neg]
          intro ends
          have filled : (bytes ++ buf.drop bytes.length).take bytes.length = bytes := List.take_left
          have returned := validate_frames bytes connection.writeBuf connection.seq
          rw [ends] at returned
          rw [Connection.finishRead, filled, returned] at done
          cases done

theorem accepted_shorter (frames : List (List UInt8)) (seq : UInt32) :
    (acceptedFrames frames seq).flatten.length ≤ frames.flatten.length := by
  induction frames generalizing seq with
  | nil => exact Nat.le_refl 0
  | cons frame rest ih =>
      have later := ih (seq + 1)
      rw [acceptedFrames, List.flatten_cons, List.length_append]
      split
      · rw [List.flatten_cons, List.length_append]
        omega
      · omega

theorem accepted_all_iff {frames : List (List UInt8)} (nonempty : ∀ frame ∈ frames, frame ≠ []) (seq : UInt32) :
    frames.flatten = (acceptedFrames frames seq).flatten ↔ AtEach InTurn frames seq := by
  induction frames generalizing seq with
  | nil => exact iff_of_true rfl trivial
  | cons frame rest ih =>
      have later := ih (fun other member => nonempty other (List.mem_cons_of_mem _ member)) (seq + 1)
      have first := List.length_pos_iff.mpr (nonempty frame List.mem_cons_self)
      rw [acceptedFrames, AtEach, ← reply_none_iff, ← later]
      by_cases accepted : replyTo frame seq = []
      · rw [if_pos accepted, List.flatten_cons, List.flatten_cons, List.append_cancel_left_eq, and_iff_right accepted]
      · rw [if_neg accepted]
        refine iff_of_false ?_ fun both => accepted both.1
        intro same
        have lengths := congrArg List.length same
        have shorter := accepted_shorter rest (seq + 1)
        rw [List.flatten_cons, List.length_append] at lengths
        omega

theorem accepted_none_iff (frames : List (List UInt8)) (seq : UInt32) :
    [] = (acceptedFrames frames seq).flatten ↔ AtEach (fun frame at_ => ¬ InTurn frame at_) frames seq := by
  induction frames generalizing seq with
  | nil => exact iff_of_true rfl trivial
  | cons frame rest ih =>
      rw [acceptedFrames, AtEach, ← ih, ← reply_none_iff]
      by_cases accepted : replyTo frame seq = []
      · obtain ⟨request, parsed, _⟩ := (reply_none_iff frame seq).mp accepted
        have whole := parsed_request_length parsed
        rw [if_pos accepted]
        refine iff_of_false ?_ fun both => both.1 accepted
        intro same
        have lengths := congrArg List.length same
        rw [List.flatten_cons, List.length_append, List.length_nil] at lengths
        omega
      · rw [if_neg accepted, and_iff_right accepted]

/-- The segment is every frame of a buffer that is delimited, and nothing of one that is not. -/
theorem journals_accepted_iff (connection : Connection) (buf bytes : List UInt8) :
    JournalsAccepted connection buf bytes ↔
      (Delimited bytes ∧ AtEach InTurn (splitFrames bytes).frames connection.seq) ∨
        (¬ Delimited bytes ∧ AtEach (fun frame seq => ¬ InTurn frame seq) (splitFrames bytes).frames connection.seq) := by
  rw [JournalsAccepted, finish_read_segment, delimited_iff]
  by_cases ends : (splitFrames bytes).ending = some .incomplete
  · rw [if_pos ends, Option.getD_some, accepted_all_iff (frames_nonempty (split_frames_before ends))]
    simp only [ends, true_and, not_true_eq_false, false_and, or_false]
  · rw [if_neg ends, Option.getD_none, accepted_none_iff]
    simp only [ends, false_and, not_false_eq_true, true_and, false_or]

theorem told_off_journaled : ¬ ∀ (connection : Connection) (buf bytes : List UInt8), JournalsAccepted connection buf bytes := by
  intro claimed
  have journaled := claimed ⟨[], [], 0, .reading (List.replicate 9 0)⟩ (List.replicate 9 0) [0, 7, 0, 0, 0, 0, 0, 0, 3]
  revert journaled
  unfold JournalsAccepted
  decide

end MktSim
