import MktSim.MatchingEngine.Delimited
import MktSim.Protocol.Responses

set_option autoImplicit false

namespace MktSim

open Endian

-- What a client sends: the length of the whole frame and the message.
def framed (message : List UInt8) : List UInt8 := encode .big 2 (message.length + 2) ++ message

def parsedRequest (message : List UInt8) : Option (Message RequestKind (List UInt8)) := Message.tryRefFrom message

def InTurn (message : List UInt8) (seq : UInt32) : Prop :=
  ∃ request, parsedRequest message = some request ∧ request.sequenceNumber = seq

def AtEach (holds : List UInt8 → UInt32 → Prop) : List (List UInt8) → UInt32 → Prop
  | [], _ => True
  | frame :: rest, seq => holds frame seq ∧ AtEach holds rest (seq + 1)

-- The parser gets the length bytes too: it takes the first for the tag, and the second and
-- what follows it for the sequence number.
def misread (message : List UInt8) : Nat := decode .big (UInt8.ofNat (message.length + 2) :: message.take 3)

-- Behind its length bytes the message gets the reply it would get by itself.
def JudgedAlike (message : List UInt8) (seq : UInt32) : Prop :=
  match parsedRequest message with
  | none => message.length < 3 ∨ 510 ≤ message.length
  | some request => message.length < 510 ∧ (misread message = seq.toNat ↔ request.sequenceNumber = seq)

def verdictBytes (seq : UInt32) : Option ErrorKind → List UInt8
  | none => []
  | some kind => errorReply seq kind

def verdict (message : List UInt8) (seq : UInt32) : Option ErrorKind :=
  match parsedRequest message with
  | none => some .invalid
  | some request => if request.sequenceNumber ≠ seq then some .unexpectedSequenceNumber else none

theorem reply_verdict (message : List UInt8) (seq : UInt32) :
    replyTo message seq = verdictBytes seq (verdict message seq) := by
  unfold replyTo verdict parsedRequest
  cases (Message.tryRefFrom message : Option (Message RequestKind (List UInt8))) with
  | none => rfl
  | some request =>
      by_cases due : request.sequenceNumber = seq
      · simp only [ne_eq, due, not_true_eq_false, if_false]
        rfl
      · simp only [ne_eq, due, not_false_eq_true, if_true]
        rfl

theorem error_reply_injective {seq other : UInt32} {kind expected : ErrorKind}
    (same : errorReply seq kind = errorReply other expected) : seq = other ∧ kind = expected := by
  have equal := message_bytes_injective (same : (Message.new seq kind : Message ResponseKind ErrorKind).asBytes = _)
  injection equal with _ number payload
  exact ⟨number, payload⟩

theorem verdict_bytes_injective (seq : UInt32) : Function.Injective (verdictBytes seq) := by
  intro first second same
  cases first with
  | none =>
      cases second with
      | none => rfl
      | some kind => cases same
  | some kind =>
      cases second with
      | none => cases same
      | some other => exact congrArg some (error_reply_injective same).2

theorem reply_none_iff (message : List UInt8) (seq : UInt32) : replyTo message seq = [] ↔ InTurn message seq := by
  rw [reply_verdict, show ([] : List UInt8) = verdictBytes seq none from rfl, (verdict_bytes_injective seq).eq_iff, verdict, InTurn]
  cases parsedRequest message with
  | none => simp
  | some request => by_cases due : request.sequenceNumber = seq <;> simp [due]

theorem framed_bytes (message : List UInt8) :
    framed message = UInt8.ofNat ((message.length + 2) / 256) :: UInt8.ofNat (message.length + 2) :: message := rfl

theorem request_byte_iff {high : Nat} (byte : high < 256) :
    (Tag.tryFromByte (UInt8.ofNat high) : Option RequestKind) = none ↔ 2 ≤ high := by
  have value : (UInt8.ofNat high).toNat = high := UInt8.toNat_ofNat_of_lt' byte
  simp only [Tag.tryFromByte]
  split
  · rename_i zero
    rw [zero] at value
    simp at value ⊢
    omega
  · split
    · rename_i one
      rw [one] at value
      simp at value ⊢
      omega
    · rename_i notZero notOne
      simp only [true_iff]
      by_contra small
      have zeroOrOne : high = 0 ∨ high = 1 := by omega
      cases zeroOrOne with
      | inl zero => exact notZero (by rw [zero]; rfl)
      | inr one => exact notOne (by rw [one]; rfl)

theorem misread_parsed {message : List UInt8} (fits : message.length + 2 ≤ 65535) :
    (parsedRequest (framed message)).map (fun request => request.sequenceNumber.toNat) =
      if message.length < 3 ∨ 510 ≤ message.length then none else some (misread message) := by
  have byte : (message.length + 2) / 256 < 256 := by omega
  have tag := request_byte_iff byte
  rw [framed_bytes, parsedRequest]
  match message with
  | [] | [_] | [_, _] => rfl
  | a :: b :: c :: rest =>
      rw [Message.tryRefFrom]
      cases kind : (Tag.tryFromByte (UInt8.ofNat (((a :: b :: c :: rest).length + 2) / 256)) : Option RequestKind) with
      | none =>
          have large := tag.mp kind
          rw [if_pos (by omega)]
          rfl
      | some requestKind =>
          have small : ¬ 2 ≤ ((a :: b :: c :: rest).length + 2) / 256 := fun large => by
            rw [tag.mpr large] at kind
            cases kind
          have short : ¬ ((a :: b :: c :: rest).length < 3 ∨ 510 ≤ (a :: b :: c :: rest).length) := by
            simp only [List.length_cons] at small ⊢
            omega
          have value := decode_lt .big [UInt8.ofNat ((a :: b :: c :: rest).length + 2), a, b, c]
          rw [if_neg short, misread]
          exact congrArg some (UInt32.toNat_ofNat_of_lt' (by simpa using value))

theorem framed_verdict {message : List UInt8} (fits : message.length + 2 ≤ 65535) (seq : UInt32) :
    verdict (framed message) seq =
      if message.length < 3 ∨ 510 ≤ message.length then some .invalid
      else if misread message ≠ seq.toNat then some .unexpectedSequenceNumber else none := by
  have parsed := misread_parsed fits
  rw [verdict]
  by_cases outside : message.length < 3 ∨ 510 ≤ message.length
  · rw [if_pos outside] at parsed ⊢
    rw [Option.map_eq_none_iff.mp parsed]
  · rw [if_neg outside] at parsed ⊢
    obtain ⟨request, read, number⟩ := Option.map_eq_some_iff.mp parsed
    rw [read, ← number]
    simp only [ne_eq, UInt32.toNat_inj]

theorem parsed_request_length {message : List UInt8} {request : Message RequestKind (List UInt8)}
    (parsed : parsedRequest message = some request) : 5 ≤ message.length := by
  match message with
  | [] | [_] | [_, _] | [_, _, _] | [_, _, _, _] => simp [parsedRequest, Message.tryRefFrom] at parsed
  | _ :: _ :: _ :: _ :: _ :: _ =>
      simp only [List.length_cons]
      omega

theorem judged_alike_iff {message : List UInt8} (fits : message.length + 2 ≤ 65535) (seq : UInt32) :
    replyTo (framed message) seq = replyTo message seq ↔ JudgedAlike message seq := by
  rw [reply_verdict, reply_verdict, (verdict_bytes_injective seq).eq_iff, framed_verdict fits, verdict, JudgedAlike]
  cases parsed : parsedRequest message with
  | none =>
      by_cases outside : message.length < 3 ∨ 510 ≤ message.length
      · simp [outside]
      · by_cases number : misread message = seq.toNat <;> simp [outside, number]
  | some request =>
      have whole := parsed_request_length parsed
      by_cases large : 510 ≤ message.length
      · by_cases due : request.sequenceNumber = seq <;> simp [large, due]
      · have small : ¬ (message.length < 3 ∨ 510 ≤ message.length) := by omega
        have inside : message.length < 510 := by omega
        by_cases number : misread message = seq.toNat <;>
          by_cases due : request.sequenceNumber = seq <;> simp [small, inside, number, due]

theorem replies_start (frames : List (List UInt8)) (seq : UInt32) :
    replies frames seq = [] ∨ ∃ later < frames.length, ∃ kind rest,
      replies frames seq = errorReply (seq + .ofNat later) kind ++ rest := by
  induction frames generalizing seq with
  | nil => exact .inl rfl
  | cons frame rest ih =>
      rw [replies, reply_verdict]
      cases verdict frame seq with
      | some kind =>
          right
          refine ⟨0, Nat.zero_lt_succ _, kind, replies rest (seq + 1), ?_⟩
          rw [show UInt32.ofNat 0 = 0 from rfl, UInt32.add_zero]
          rfl
      | none =>
          rw [verdictBytes, List.nil_append]
          cases ih (seq + 1) with
          | inl none => exact .inl none
          | inr some =>
              obtain ⟨later, less, kind, more, starts⟩ := some
              right
              refine ⟨later + 1, Nat.succ_lt_succ less, kind, more, ?_⟩
              rw [starts, UInt32.ofNat_add, UInt32.add_assoc, UInt32.add_comm 1]
              rfl

theorem replies_not_for {frames : List (List UInt8)} (few : frames.length + 1 < 2 ^ 32) (seq : UInt32) (kind : ErrorKind)
    (rest : List UInt8) : replies frames (seq + 1) ≠ errorReply seq kind ++ rest := by
  intro same
  cases replies_start frames (seq + 1) with
  | inl none =>
      rw [none] at same
      cases same
  | inr some =>
      obtain ⟨later, less, other, more, starts⟩ := some
      have first := List.append_inj_left (same.symm.trans starts) (by simp)
      have numbers := congrArg UInt32.toNat (error_reply_injective first).1
      have place : later < UInt32.size := by
        change later < 4294967296
        omega
      rw [UInt32.add_assoc, UInt32.toNat_add, UInt32.toNat_add, UInt32.toNat_ofNat_of_lt' place] at numbers
      have fits := seq.toNat_lt
      have one : UInt32.toNat 1 = 1 := rfl
      rw [one] at numbers
      omega

theorem judged_alike_from_iff {messages : List (List UInt8)} (fits : ∀ message ∈ messages, message.length + 2 ≤ 65535)
    {seq : UInt32} (few : messages.length < 2 ^ 32) :
    replies (messages.map framed) seq = replies messages seq ↔ AtEach JudgedAlike messages seq := by
  induction messages generalizing seq with
  | nil => exact iff_of_true rfl trivial
  | cons message rest ih =>
      have own := fits message List.mem_cons_self
      have fewer : rest.length + 1 < 2 ^ 32 := few
      have fewerFramed : (rest.map framed).length + 1 < 2 ^ 32 := by rwa [List.length_map]
      have later := @ih (fun other member => fits other (List.mem_cons_of_mem _ member)) (seq + 1) (by omega)
      rw [List.map_cons, replies, replies, AtEach, ← judged_alike_iff own, ← later]
      refine ⟨fun same => ?_, fun both => congrArg₂ _ both.1 both.2⟩
      rw [reply_verdict, reply_verdict] at same ⊢
      cases first : verdict (framed message) seq with
      | none =>
          cases second : verdict message seq with
          | none =>
              rw [first, second] at same
              exact ⟨rfl, same⟩
          | some kind =>
              rw [first, second] at same
              exact absurd same (replies_not_for fewerFramed seq kind _)
      | some kind =>
          cases second : verdict message seq with
          | none =>
              rw [first, second] at same
              exact absurd same.symm (replies_not_for fewer seq kind _)
          | some other =>
              rw [first, second] at same
              exact List.append_inj same (by simp [verdictBytes])

theorem framed_declared {message : List UInt8} (fits : message.length + 2 ≤ 65535) :
    2 ≤ (framed message).length ∧ declaredLength (framed message) = some (framed message).length := by
  have value := decode_encode .big 2 (message.length + 2) (by omega)
  rw [framed, List.length_append, encode_length, Nat.add_comm 2]
  exact ⟨Nat.le_add_left 2 _, congrArg some value⟩

theorem validate_framed {messages : List (List UInt8)} (fits : ∀ message ∈ messages, message.length + 2 ≤ 65535)
    {tail : List UInt8} (incomplete : front tail = .incomplete) (writeBuf : List UInt8) (seq : UInt32) :
    validate (messages.flatMap framed ++ tail) writeBuf seq =
      .returned (messages.flatMap framed).length (writeBuf ++ replies (messages.map framed) seq)
        (seq + .ofNat messages.length) := by
  have wellFramed : ∀ frame ∈ messages.map framed, 2 ≤ frame.length ∧ declaredLength frame = some frame.length := by
    intro frame member
    obtain ⟨message, sent, rfl⟩ := List.mem_map.mp member
    exact framed_declared (fits message sent)
  have returned := validate_well_framed wellFramed ((incomplete_iff tail).mp incomplete) writeBuf seq
  rw [counterAfter, List.length_map] at returned
  rw [List.flatMap_def]
  exact returned

theorem replies_none_iff (messages : List (List UInt8)) (seq : UInt32) :
    replies messages seq = [] ↔ AtEach InTurn messages seq := by
  induction messages generalizing seq with
  | nil => exact iff_of_true rfl trivial
  | cons message rest ih => rw [replies, List.append_eq_nil_iff, reply_none_iff, ih, AtEach]

theorem decode_four (a b c d : UInt8) :
    decode .big [a, b, c, d] = d.toNat + 256 * (c.toNat + 256 * (b.toNat + 256 * (a.toNat + 256 * 0))) := rfl

theorem misread_half {message : List UInt8} {request : Message RequestKind (List UInt8)}
    (parsed : parsedRequest message = some request) : misread message % 65536 = request.sequenceNumber.toNat / 65536 := by
  have whole := parsed_request_length parsed
  match message with
  | tag :: a :: b :: c :: d :: payload =>
      rw [parsedRequest, Message.tryRefFrom] at parsed
      cases kind : (Tag.tryFromByte tag : Option RequestKind) with
      | none =>
          rw [kind] at parsed
          cases parsed
      | some requestKind =>
          rw [kind] at parsed
          obtain rfl := Option.some.inj parsed
          have fits := decode_lt .big [a, b, c, d]
          have high := a.toNat_lt
          have low := b.toNat_lt
          have third := c.toNat_lt
          have last := d.toNat_lt
          rw [misread, UInt32.toNat_ofNat_of_lt' (by simpa using fits), decode_four]
          simp only [List.take_succ_cons, List.take_zero]
          rw [decode_four]
          omega
  | [] | [_] | [_, _] | [_, _, _] | [_, _, _, _] => simp at whole

theorem counter_next {seq : UInt32} (bounded : seq.toNat + 1 < 2 ^ 32) : (seq + 1).toNat = seq.toNat + 1 := by
  rw [UInt32.toNat_add]
  exact Nat.mod_eq_of_lt bounded

-- Of two requests with numbers one apart, one is not read as its own number.
theorem numbered_alike_iff {messages : List (List UInt8)} {seq : UInt32} (numbered : AtEach InTurn messages seq)
    (bounded : seq.toNat + messages.length < 2 ^ 32) :
    AtEach JudgedAlike messages seq ↔
      messages = [] ∨ ∃ message, messages = [message] ∧ message.length < 510 ∧ misread message = seq.toNat := by
  cases messages with
  | nil => exact iff_of_true trivial (.inl rfl)
  | cons message rest =>
      obtain ⟨⟨request, parsed, number⟩, later⟩ := numbered
      have alike : JudgedAlike message seq ↔ message.length < 510 ∧ misread message = seq.toNat := by
        simp only [JudgedAlike, parsed, number, iff_true]
      cases rest with
      | nil => simp [AtEach, alike]
      | cons second others =>
          obtain ⟨⟨next, parsedNext, numberNext⟩, _⟩ := later
          refine iff_of_false ?_ (by simp)
          rw [AtEach, AtEach, alike]
          intro both
          have nextAlike := both.2.1
          simp only [JudgedAlike, parsedNext, numberNext, iff_true] at nextAlike
          have half := misread_half parsed
          have nextHalf := misread_half parsedNext
          have counted : (seq + 1).toNat = seq.toNat + 1 := by
            simp only [List.length_cons] at bounded
            exact counter_next (by omega)
          rw [number, both.1.2] at half
          rw [numberNext, nextAlike.2, counted] at nextHalf
          omega

/-- The replies are the ones the messages are due where each is judged as it would be without
its length bytes. Of requests in order that is at most one. -/
theorem replies_due_iff (messages : List (List UInt8)) (fits : ∀ message ∈ messages, message.length + 2 ≤ 65535)
    (tail : List UInt8) (incomplete : front tail = .incomplete) (writeBuf : List UInt8) (seq : UInt32)
    (bounded : seq.toNat + messages.length < 2 ^ 32) :
    (validate (messages.flatMap framed ++ tail) writeBuf seq =
        .returned (messages.flatMap framed).length (writeBuf ++ replies messages seq) (seq + .ofNat messages.length) ↔
      AtEach JudgedAlike messages seq) ∧
    (AtEach InTurn messages seq →
      (validate (messages.flatMap framed ++ tail) writeBuf seq =
          .returned (messages.flatMap framed).length writeBuf (seq + .ofNat messages.length) ↔
        messages = [] ∨ ∃ message, messages = [message] ∧ message.length < 510 ∧ misread message = seq.toNat)) := by
  have returned := validate_framed fits incomplete writeBuf seq
  have due : validate (messages.flatMap framed ++ tail) writeBuf seq =
        .returned (messages.flatMap framed).length (writeBuf ++ replies messages seq) (seq + .ofNat messages.length) ↔
      AtEach JudgedAlike messages seq := by
    rw [returned, ← judged_alike_from_iff fits (by omega)]
    simp only [Validation.returned.injEq, true_and, and_true, List.append_cancel_left_eq]
  refine ⟨due, fun numbered => ?_⟩
  rw [(replies_none_iff messages seq).mpr numbered, List.append_nil] at due
  rw [due, numbered_alike_iff numbered bounded]

-- Its length bytes and its tag happen to be read as its sequence number.
def luckyRequest : List UInt8 := [1, 7, 1, 7, 1]

theorem replies_due_iff_lucky :
    (validate ([luckyRequest].flatMap framed ++ [0, 3]) [] 0x07010701 =
        .returned ([luckyRequest].flatMap framed).length ([] ++ replies [luckyRequest] 0x07010701)
          (0x07010701 + .ofNat [luckyRequest].length) ↔
      AtEach JudgedAlike [luckyRequest] 0x07010701) ∧
    (AtEach InTurn [luckyRequest] 0x07010701 →
      (validate ([luckyRequest].flatMap framed ++ [0, 3]) [] 0x07010701 =
          .returned ([luckyRequest].flatMap framed).length [] (0x07010701 + .ofNat [luckyRequest].length) ↔
        [luckyRequest] = [] ∨ ∃ message, [luckyRequest] = [message] ∧ message.length < 510 ∧
          misread message = UInt32.toNat 0x07010701)) :=
  replies_due_iff [luckyRequest] (by decide) [0, 3] rfl [] 0x07010701 (by decide)

def firstOrder : List UInt8 := [0, 0, 0, 0, 0]

theorem first_order_told_off : ¬ ∀ (messages : List (List UInt8)),
    (∀ message ∈ messages, message.length + 2 ≤ 65535) → ∀ (tail : List UInt8), front tail = .incomplete →
      ∀ (writeBuf : List UInt8) (seq : UInt32), seq.toNat + messages.length < 2 ^ 32 → AtEach InTurn messages seq →
        validate (messages.flatMap framed ++ tail) writeBuf seq =
          .returned (messages.flatMap framed).length writeBuf (seq + .ofNat messages.length) := by
  intro claimed
  have numbered : AtEach InTurn [firstOrder] 0 := ⟨⟨⟨.newOrder, 0, []⟩, rfl, rfl⟩, trivial⟩
  have returned := claimed [firstOrder] (by decide) [0, 3] rfl [] 0 (Nat.one_lt_two_pow (Nat.succ_ne_zero 31)) numbered
  have replied : validate ([firstOrder].flatMap framed ++ [0, 3]) [] 0 =
      .returned 7 (errorReply 0 .unexpectedSequenceNumber) 1 := rfl
  rw [replied] at returned
  cases returned

end MktSim
