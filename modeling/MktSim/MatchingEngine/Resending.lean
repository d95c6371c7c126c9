import MktSim.MatchingEngine.Connection
import MktSim.MatchingEngine.Verdicts

set_option autoImplicit false

namespace MktSim

def repliesTo (seq : UInt32) : ReadResult → List UInt8
  | .ok bytes => replies (splitFrames bytes).frames seq
  | .failed => []

def counterPast (seq : UInt32) : ReadResult → UInt32
  | .ok bytes => counterAfter (splitFrames bytes).frames seq
  | .failed => seq

def generated : UInt32 → List Pass → List UInt8
  | _, [] => []
  | seq, pass :: rest => repliesTo seq pass.result ++ generated (counterPast seq pass.result) rest

def EachInTurn : UInt32 → List Pass → Prop
  | _, [] => True
  | seq, pass :: rest =>
      (∀ bytes, pass.result = .ok bytes → AtEach InTurn (splitFrames bytes).frames seq) ∧
        EachInTurn (counterPast seq pass.result) rest

-- Each pass writes the whole buffer, which only grows.
def written : UInt32 → List UInt8 → List Pass → List UInt8
  | _, _, [] => []
  | seq, writeBuf, pass :: rest =>
      (writeBuf ++ repliesTo seq pass.result) ++
        written (counterPast seq pass.result) (writeBuf ++ repliesTo seq pass.result) rest

def startingAt (connection : Connection) : Session := ⟨connection, [], [], []⟩

structure AfterRead (connection : Connection) (result : ReadResult) (next : Connection) : Prop where
  writing : ∃ held, next.phase = .writing held
  pending : next.writeBuf = connection.writeBuf ++ repliesTo connection.seq result
  counted : next.seq = counterPast connection.seq result

theorem finish_read_after {connection next : Connection} {buf bytes : List UInt8} {segment : Option (List UInt8)}
    (done : connection.finishRead buf bytes = (next, segment)) :
    AfterRead connection (.ok bytes) next ∨ next.phase = .panicked ∨ next.phase = .stuck := by
  cases segment with
  | some segment =>
      obtain ⟨_, _, sent, counted, _⟩ := finish_read_frames done
      rw [Connection.finishRead] at done
      split at done
      · cases done
        exact .inl ⟨⟨none, rfl⟩, sent, counted⟩
      · cases done
      · cases done
  | none =>
      rw [Connection.finishRead] at done
      split at done
      · cases done
      · cases done
        exact .inr (.inl rfl)
      · cases done
        exact .inr (.inr rfl)

theorem begin_cases {connection next : Connection} {request : Except GrantError WriteGrant} {segment : Option (List UInt8)}
    (fired : connection.step (.begin request) = some (next, segment)) :
    next.phase = .panicked ∨ next.writeBuf = connection.writeBuf ∧ next.seq = connection.seq := by
  cases connection_step_cases fired with
  | refused error ready => exact .inl rfl
  | granted grant ready =>
      rw [Connection.copyScratch]
      split
      · exact .inr ⟨rfl, rfl⟩
      · exact .inl rfl

theorem read_cases {connection next : Connection} {result : ReadResult} {segment : Option (List UInt8)}
    (fired : connection.step (.read result) = some (next, segment)) :
    AfterRead connection result next ∨ next.phase = .panicked ∨ next.phase = .stuck := by
  have stepped := connection_step_cases fired
  generalize same : (next, segment) = after at stepped
  cases stepped with
  | readFailed buf reading =>
      cases same
      exact .inl ⟨⟨_, rfl⟩, (List.append_nil _).symm, rfl⟩
  | read buf bytes reading fits => exact finish_read_after same.symm

theorem written_cases {connection next : Connection} {segment : Option (List UInt8)}
    (fired : connection.step (.written .ok) = some (next, segment)) :
    (∃ held, connection.phase = .writing held) ∧ next = { connection with phase := .ready } := by
  cases connection_step_cases fired with
  | written held writing => exact ⟨⟨held, writing⟩, rfl⟩

theorem session_step_some {session next : Session} {event : TaskEvent} (stepped : session.step event = some next) :
    ∃ segment, session.connection.step event = some (next.connection, segment) ∧
      next.sent = session.sent ++ sentBy session.connection event := by
  rw [Session.step] at stepped
  obtain ⟨⟨connection, segment⟩, fired, recorded⟩ := Option.bind_eq_some_iff.mp stepped
  obtain rfl := Option.some.inj recorded
  exact ⟨segment, fired, rfl⟩

theorem pass_written {session next : Session} {pass : Pass} (runs : pass.events.foldlM Session.step session = some next) :
    next.connection.writeBuf = session.connection.writeBuf ++ repliesTo session.connection.seq pass.result ∧
      next.connection.seq = counterPast session.connection.seq pass.result ∧
      next.sent = session.sent ++ (session.connection.writeBuf ++ repliesTo session.connection.seq pass.result) := by
  rw [Pass.events, List.foldlM_cons] at runs
  obtain ⟨begun, begins, runs⟩ := Option.bind_eq_some_iff.mp runs
  rw [List.foldlM_cons] at runs
  obtain ⟨read, reads, runs⟩ := Option.bind_eq_some_iff.mp runs
  rw [List.foldlM_cons] at runs
  obtain ⟨last, writes, ends⟩ := Option.bind_eq_some_iff.mp runs
  obtain rfl := Option.some.inj ends
  obtain ⟨_, beginStep, beginSent⟩ := session_step_some begins
  obtain ⟨_, readStep, readSent⟩ := session_step_some reads
  obtain ⟨_, writeStep, writeSent⟩ := session_step_some writes
  obtain ⟨⟨held, writing⟩, readied⟩ := written_cases writeStep
  have kept : begun.connection.writeBuf = session.connection.writeBuf ∧ begun.connection.seq = session.connection.seq := by
    cases begin_cases beginStep with
    | inl panicked =>
        rw [panicked_step panicked] at readStep
        cases readStep
    | inr kept => exact kept
  have after : AfterRead begun.connection pass.result read.connection := by
    cases read_cases readStep with
    | inl after => exact after
    | inr stopped =>
        rw [writing] at stopped
        cases stopped with
        | inl panicked => cases panicked
        | inr stuck => cases stuck
  have pending := after.pending
  have counted := after.counted
  rw [kept.1, kept.2] at pending
  rw [kept.2] at counted
  rw [readied, writeSent, readSent, beginSent]
  refine ⟨pending, counted, ?_⟩
  simp only [sentBy, List.append_nil, pending]

-- By induction on the passes, each starting from what the last has left in the buffer.
theorem passes_written (passes : List Pass) {session next : Session}
    (runs : (passes.flatMap Pass.events).foldlM Session.step session = some next) :
    next.sent = session.sent ++ written session.connection.seq session.connection.writeBuf passes := by
  induction passes generalizing session with
  | nil =>
      obtain rfl := Option.some.inj runs
      exact (List.append_nil _).symm
  | cons pass rest ih =>
      rw [List.flatMap_cons, List.foldlM_append] at runs
      obtain ⟨between, first, later⟩ := Option.bind_eq_some_iff.mp runs
      obtain ⟨pending, counted, sent⟩ := pass_written first
      rw [ih later, sent, pending, counted, written, List.append_assoc]

theorem replies_to_none_iff (seq : UInt32) (result : ReadResult) :
    repliesTo seq result = [] ↔ ∀ bytes, result = .ok bytes → AtEach InTurn (splitFrames bytes).frames seq := by
  cases result with
  | ok bytes =>
      rw [repliesTo, replies_none_iff]
      constructor
      · intro numbered other same
        cases same
        exact numbered
      · intro numbered
        exact numbered bytes rfl
  | failed => exact iff_of_true rfl fun _ same => by cases same

theorem generated_none_iff (passes : List Pass) (seq : UInt32) : generated seq passes = [] ↔ EachInTurn seq passes := by
  induction passes generalizing seq with
  | nil => exact iff_of_true rfl trivial
  | cons pass rest ih => rw [generated, List.append_eq_nil_iff, replies_to_none_iff, ih, EachInTurn]

theorem written_longer {passes : List Pass} (some_ : passes ≠ []) (seq : UInt32) (writeBuf : List UInt8) :
    writeBuf.length + (generated seq passes).length ≤ (written seq writeBuf passes).length := by
  induction passes generalizing seq writeBuf with
  | nil => exact absurd rfl some_
  | cons pass rest ih =>
      rw [generated, written, List.length_append, List.length_append, List.length_append]
      by_cases last : rest = []
      · rw [last]
        simp [generated]
      · have later := ih last (counterPast seq pass.result) (writeBuf ++ repliesTo seq pass.result)
        rw [List.length_append] at later
        omega

theorem written_once_iff (passes : List Pass) (seq : UInt32) (writeBuf : List UInt8) :
    written seq writeBuf passes = writeBuf ++ generated seq passes ↔
      passes.length = 1 ∨ writeBuf = [] ∧ generated seq passes.dropLast = [] := by
  induction passes generalizing seq writeBuf with
  | nil => simp [written, generated, eq_comm]
  | cons pass rest ih =>
      rw [written, generated, List.append_assoc, List.append_cancel_left_eq, List.append_cancel_left_eq]
      by_cases last : rest = []
      · rw [last]
        simp [written, generated]
      · have more : ¬ (pass :: rest).length = 1 := by simpa using last
        have own := ih (counterPast seq pass.result) (writeBuf ++ repliesTo seq pass.result)
        rw [List.dropLast_cons_of_ne_nil last, generated, List.append_eq_nil_iff]
        constructor
        · intro same
          have longer := written_longer last (counterPast seq pass.result) (writeBuf ++ repliesTo seq pass.result)
          rw [same] at longer
          have nothing : writeBuf ++ repliesTo seq pass.result = [] := List.length_eq_zero_iff.mp (by omega)
          have both := List.append_eq_nil_iff.mp nothing
          rw [nothing, List.nil_append] at own
          refine .inr ⟨both.1, both.2, ?_⟩
          cases own.mp (nothing ▸ same) with
          | inl one =>
              obtain ⟨single, rfl⟩ := List.length_eq_one_iff.mp one
              rfl
          | inr later => exact later.2
        · intro quiet
          cases quiet with
          | inl one => exact absurd one more
          | inr quiet =>
              have nothing : writeBuf ++ repliesTo seq pass.result = [] := List.append_eq_nil_iff.mpr ⟨quiet.1, quiet.2.1⟩
              rw [nothing, List.nil_append] at own
              rw [nothing]
              exact own.mpr (.inr ⟨rfl, quiet.2.2⟩)

/-- A pass writes again whatever was written before it. -/
theorem replies_sent_once_iff (connection : Connection) (passes : List Pass) (session : Session)
    (runs : (passes.flatMap Pass.events).foldlM Session.step (startingAt connection) = some session) :
    session.sent = connection.writeBuf ++ generated connection.seq passes ↔
      passes.length = 1 ∨ connection.writeBuf = [] ∧ EachInTurn connection.seq passes.dropLast := by
  have sent := passes_written passes runs
  rw [startingAt, List.nil_append] at sent
  rw [sent, ← generated_none_iff]
  exact written_once_iff passes connection.seq connection.writeBuf

def bytesLeft : Connection := ⟨List.replicate 9 0, [], 0, .ready⟩

def grantOf (length : Nat) (positive : 0 < length) (within : length ≤ 1 <<< 16) : WriteGrant :=
  ⟨List.replicate length 0, by rwa [List.length_replicate], by rwa [List.length_replicate]⟩

def repliedPasses : List Pass :=
  [⟨.ok (grantOf 9 (by decide) (by decide)), .ok [0, 7, 0, 0, 0, 0, 0, 0, 3]⟩,
    ⟨.ok (grantOf 2 (by decide) (by decide)), .ok [0, 3]⟩]

def afterPasses : Session := ⟨⟨[0, 3], errorReply 0 .unexpectedSequenceNumber, 1, .ready⟩,
  [0, 7, 0, 0, 0, 0, 0, 0, 3, 0, 3], errorReply 0 .unexpectedSequenceNumber ++ errorReply 0 .unexpectedSequenceNumber,
  [[0, 7, 0, 0, 0, 0, 0], []]⟩

theorem replied_passes_run :
    (repliedPasses.flatMap Pass.events).foldlM Session.step (startingAt bytesLeft) = some afterPasses := rfl

theorem replies_sent_once_iff_replied :
    afterPasses.sent = bytesLeft.writeBuf ++ generated bytesLeft.seq repliedPasses ↔
      repliedPasses.length = 1 ∨ bytesLeft.writeBuf = [] ∧ EachInTurn bytesLeft.seq repliedPasses.dropLast :=
  replies_sent_once_iff bytesLeft repliedPasses afterPasses replied_passes_run

theorem reply_sent_again : ¬ ∀ (connection : Connection) (passes : List Pass) (session : Session), passes ≠ [] →
    (passes.flatMap Pass.events).foldlM Session.step (startingAt connection) = some session →
      session.sent = connection.writeBuf ++ generated connection.seq passes := by
  intro claimed
  have once := claimed bytesLeft repliedPasses afterPasses (List.cons_ne_nil _ _) replied_passes_run
  revert once
  decide

end MktSim
