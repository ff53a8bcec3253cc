import Gamin.Library.Runs
import Mathlib.Data.List.Infix

/-! # Messages on a byte stream

A message is written by a loop around `write`, which may take a part of it, be interrupted, or
fail.  The stream of a channel on which messages follow each other, whatever became of the earlier
ones, is a concatenation of whole messages and a part of one at its end if and only if `write` takes
nothing more once it has failed within a message.
-/

namespace Gamin.Library

variable {Byte : Type*}

/-! ## The loop around `write` -/

/-- One answer of `write`: it takes some bytes, it is interrupted by a signal, or it fails. -/
inductive WriteResult where
  | accepted (count : Nat)
  | interrupted
  | failed
  deriving DecidableEq, Repr

/-- The loop that writes what is left until nothing is left: whether it succeeded, if it came to
an end, and the bytes that were taken.  After an interruption the loop condition is evaluated. -/
def writeLoop : List Byte → List WriteResult → Option Bool × List Byte
  | _, [] => (none, [])
  | data, .interrupted :: results => if data.isEmpty then (some true, []) else writeLoop data results
  | _, .failed :: _ => (some false, [])
  | data, .accepted count :: results =>
    if data.length ≤ count then (some true, data)
    else
      let rest := writeLoop (data.drop count) results
      (rest.1, data.take count ++ rest.2)

/-- Not one byte is taken. -/
def Refuses : List WriteResult → Bool
  | [] => true
  | .interrupted :: results => Refuses results
  | .failed :: _ => true
  | .accepted count :: results => count = 0 && Refuses results

/-- The bytes that `write` takes. -/
def taken : List WriteResult → Nat
  | [] => 0
  | .accepted count :: results => count + taken results
  | .interrupted :: results | .failed :: results => taken results

/-- `write` fails before it has taken so many bytes. -/
def Breaks (length : Nat) (results : List WriteResult) : Prop :=
  .failed ∈ results ∧ taken (results.takeWhile (· ≠ .failed)) < length

/-- There is no answer yet after which so many bytes have been taken, and no failure. -/
def Waits (length : Nat) (results : List WriteResult) : Prop := .failed ∉ results ∧ taken results < length

instance (length : Nat) (results : List WriteResult) : Decidable (Breaks length results) :=
  inferInstanceAs (Decidable (_ ∧ _))

instance (length : Nat) (results : List WriteResult) : Decidable (Waits length results) :=
  inferInstanceAs (Decidable (_ ∧ _))

theorem writeLoop_prefix (data : List Byte) (results : List WriteResult) :
    (writeLoop data results).2 <+: data := by
  fun_induction writeLoop data results with
  | case1 | case2 | case4 => exact List.nil_prefix
  | case3 data results nonempty inductionHypothesis => exact inductionHypothesis
  | case5 data count results whole => exact List.prefix_rfl
  | case6 data count results part rest inductionHypothesis =>
    obtain ⟨missing, front⟩ := inductionHypothesis
    refine ⟨missing, ?_⟩
    rw [List.append_assoc, front, List.take_append_drop]

theorem writeLoop_whole {data : List Byte} {results : List WriteResult}
    (success : (writeLoop data results).1 = some true) : (writeLoop data results).2 = data := by
  fun_induction writeLoop data results with
  | case1 | case4 => simp at success
  | case2 data results empty => exact (List.isEmpty_iff.mp empty).symm
  | case3 data results nonempty inductionHypothesis => exact inductionHypothesis success
  | case5 data count results whole => rfl
  | case6 data count results part rest inductionHypothesis =>
    simp only [rest, inductionHypothesis success, List.take_append_drop]

theorem writeLoop_part {data : List Byte} (nonempty : data ≠ []) {results : List WriteResult}
    (short : (writeLoop data results).1 ≠ some true) : (writeLoop data results).2 ≠ data := by
  fun_induction writeLoop data results with
  | case1 | case4 => exact nonempty.symm
  | case2 data results empty => exact absurd rfl short
  | case3 data results _ inductionHypothesis => exact inductionHypothesis nonempty short
  | case5 data count results whole => exact absurd rfl short
  | case6 data count results part rest inductionHypothesis =>
    have left : data.drop count ≠ [] :=
      List.ne_nil_of_length_pos (by rw [List.length_drop]; omega)
    intro same
    apply inductionHypothesis left short
    have halves := same.trans (List.take_append_drop count data).symm
    exact List.append_cancel_left halves

theorem writeLoop_refuses {data : List Byte} (nonempty : data ≠ []) (results : List WriteResult) :
    (writeLoop data results).2 = [] ↔ Refuses results = true := by
  fun_induction writeLoop data results with
  | case1 | case4 => simp [Refuses]
  | case2 data results empty => exact absurd (List.isEmpty_iff.mp empty) nonempty
  | case3 data results _ inductionHypothesis => exact inductionHypothesis nonempty
  | case5 data count results whole =>
    have positive := List.length_pos_iff.mpr nonempty
    have some : count ≠ 0 := by omega
    simp [Refuses, nonempty, some]
  | case6 data count results part rest inductionHypothesis =>
    have left : data.drop count ≠ [] :=
      List.ne_nil_of_length_pos (by rw [List.length_drop]; omega)
    simp [Refuses, nonempty, ← inductionHypothesis left, rest]

theorem writeLoop_breaks {data : List Byte} (nonempty : data ≠ []) (results : List WriteResult) :
    (writeLoop data results).1 = some false ↔ Breaks data.length results := by
  fun_induction writeLoop data results with
  | case1 => simp [Breaks]
  | case2 data results empty => exact absurd (List.isEmpty_iff.mp empty) nonempty
  | case3 data results _ inductionHypothesis =>
    rw [inductionHypothesis nonempty]
    simp [Breaks, taken]
  | case4 => simp [Breaks, taken, List.length_pos_iff.mpr nonempty]
  | case5 data count results whole =>
    have much := whole
    simp only [Option.some.injEq, Bool.true_eq_false, false_iff, Breaks, not_and, List.mem_cons, reduceCtorEq,
      false_or, List.takeWhile_cons, ne_eq, not_false_eq_true, decide_true, if_true, taken]
    omega
  | case6 data count results part rest inductionHypothesis =>
    have left : data.drop count ≠ [] :=
      List.ne_nil_of_length_pos (by rw [List.length_drop]; omega)
    rw [inductionHypothesis left, List.length_drop]
    simp only [Breaks, List.mem_cons, reduceCtorEq, false_or, List.takeWhile_cons, ne_eq, not_false_eq_true,
      decide_true, if_true, taken]
    exact and_congr_right fun _ => by omega

theorem writeLoop_waits {data : List Byte} (nonempty : data ≠ []) (results : List WriteResult) :
    (writeLoop data results).1 = none ↔ Waits data.length results := by
  fun_induction writeLoop data results with
  | case1 => simp [Waits, taken, List.length_pos_iff.mpr nonempty]
  | case2 data results empty => exact absurd (List.isEmpty_iff.mp empty) nonempty
  | case3 data results _ inductionHypothesis =>
    rw [inductionHypothesis nonempty]
    simp [Waits, taken]
  | case4 => simp [Waits]
  | case5 data count results whole =>
    have much := whole
    simp only [reduceCtorEq, false_iff, Waits, not_and, taken]
    omega
  | case6 data count results part rest inductionHypothesis =>
    have left : data.drop count ≠ [] :=
      List.ne_nil_of_length_pos (by rw [List.length_drop]; omega)
    rw [inductionHypothesis left, List.length_drop]
    simp only [Waits, List.mem_cons, reduceCtorEq, false_or, taken]
    exact and_congr_right fun _ => by omega

/-! ## Channels -/

/-- A message and the answers of `write` while it is written. -/
structure Transmission (Byte : Type*) where
  data : List Byte
  results : List WriteResult

def Transmission.outcome (message : Transmission Byte) : Option Bool :=
  (writeLoop message.data message.results).1

def Transmission.bytes (message : Transmission Byte) : List Byte :=
  (writeLoop message.data message.results).2

/-- The bytes that were taken, and the messages that were written or at least begun. -/
structure Channel (Byte : Type*) where
  stream : List Byte
  log : List (Transmission Byte)

def Channel.new : Channel Byte := { stream := [], log := [] }

/-- The loop has not come to an end, so that nothing else is done. -/
def Channel.blocked (channel : Channel Byte) : Bool := channel.log.any (·.outcome = none)

/-- The next message is written, whatever became of the earlier ones. -/
def Channel.write (channel : Channel Byte) (message : Transmission Byte) : Channel Byte :=
  if channel.blocked then channel
  else { stream := channel.stream ++ message.bytes, log := channel.log ++ [message] }

/-- The stream is made of the messages that succeeded, each once and in order, and at most a part
of one that did not at its end; and nothing is taken behind a failure. -/
structure Channel.Intact (channel : Channel Byte) : Prop where
  whole : ∃ torn, channel.stream =
      (channel.log.filter (·.outcome = some true)).flatMap Transmission.data ++ torn ∧
    (torn = [] ∨ ∃ message ∈ channel.log, message.outcome ≠ some true ∧
      torn <+: message.data ∧ torn ≠ message.data)
  silent : channel.log.Pairwise fun earlier later => earlier.outcome = some false → later.bytes = []

/-- What every sequence of writes keeps. -/
structure Channel.Sound (channel : Channel Byte) : Prop where
  stream : channel.stream = channel.log.flatMap Transmission.bytes
  nonempty : ∀ message ∈ channel.log, message.data ≠ []
  finished : channel.log.Pairwise fun earlier _ => earlier.outcome ≠ none

theorem Channel.new_sound : (Channel.new : Channel Byte).Sound :=
  ⟨rfl, fun _ member => (nomatch member), .nil⟩

theorem Channel.Sound.write {channel : Channel Byte} (sound : channel.Sound)
    {message : Transmission Byte} (nonempty : message.data ≠ []) : (channel.write message).Sound := by
  unfold Channel.write
  split
  · exact sound
  · rename_i free
    refine ⟨by simp [sound.stream], ?_, ?_⟩
    · intro other member
      cases List.mem_append.mp member with
      | inl old => exact sound.nonempty other old
      | inr new => rwa [List.mem_singleton.mp new]
    · refine List.pairwise_append.mpr ⟨sound.finished, List.pairwise_singleton .., ?_⟩
      intro earlier member last _ unfinished
      exact free (List.any_eq_true.mpr ⟨earlier, member, by simpa using unfinished⟩)

/-- Silence behind failures is all there is to a stream that is intact. -/
theorem intact_of_silent {log : List (Transmission Byte)}
    (nonempty : ∀ message ∈ log, message.data ≠ [])
    (finished : log.Pairwise fun earlier _ => earlier.outcome ≠ none)
    (silent : log.Pairwise fun earlier later => earlier.outcome = some false → later.bytes = []) :
    ∃ torn, log.flatMap Transmission.bytes =
        (log.filter (·.outcome = some true)).flatMap Transmission.data ++ torn ∧
      (torn = [] ∨ ∃ message ∈ log, message.outcome ≠ some true ∧ torn <+: message.data ∧
        torn ≠ message.data) := by
  induction log with
  | nil => exact ⟨[], rfl, .inl rfl⟩
  | cons message log inductionHypothesis =>
    obtain ⟨finishedHere, finishedLater⟩ := List.pairwise_cons.mp finished
    obtain ⟨silentHere, silentLater⟩ := List.pairwise_cons.mp silent
    have nonemptyLater := fun later member => nonempty later (List.mem_cons_of_mem _ member)
    by_cases success : message.outcome = some true
    · -- a whole message comes in front of what the rest makes
      obtain ⟨torn, stream, part⟩ := inductionHypothesis nonemptyLater finishedLater silentLater
      refine ⟨torn, ?_, part.imp_right ?_⟩
      · have bytes : message.bytes = message.data := writeLoop_whole success
        simp [success, bytes, stream]
      · rintro ⟨later, member, rest⟩
        exact ⟨later, List.mem_cons_of_mem _ member, rest⟩
    · -- nothing is taken behind a message that did not succeed
      have nothing : ∀ later ∈ log, later.bytes = [] := by
        intro later member
        cases outcome : message.outcome with
        | none => exact absurd outcome (finishedHere later member)
        | some result =>
          cases result with
          | true => exact absurd outcome success
          | false => exact silentHere later member outcome
      have unsuccessful : ∀ later ∈ log, later.outcome ≠ some true := by
        intro later member succeeded
        have bytes : later.bytes = later.data := writeLoop_whole succeeded
        exact nonemptyLater later member (bytes.symm.trans (nothing later member))
      refine ⟨message.bytes, ?_, .inr ⟨message, List.mem_cons_self, success, writeLoop_prefix _ _,
        writeLoop_part (nonempty message List.mem_cons_self) success⟩⟩
      have later : log.flatMap Transmission.bytes = [] := List.flatMap_eq_nil_iff.mpr nothing
      have none : log.filter (·.outcome = some true) = [] :=
        List.filter_eq_nil_iff.mpr fun later member => by simpa using unsuccessful later member
      simp [success, later, none]

theorem Channel.Sound.intact_iff {channel : Channel Byte} (sound : channel.Sound) :
    channel.Intact ↔
      channel.log.Pairwise fun earlier later => earlier.outcome = some false → later.bytes = [] := by
  refine ⟨Channel.Intact.silent, fun silent => ⟨?_, silent⟩⟩
  rw [sound.stream]
  exact intact_of_silent sound.nonempty sound.finished silent

/-! ## The answers of `write` -/

def Transmission.Breaks (message : Transmission Byte) : Prop := Library.Breaks message.data.length message.results

def Transmission.Waits (message : Transmission Byte) : Prop := Library.Waits message.data.length message.results

instance : DecidablePred (@Transmission.Breaks Byte) := fun _ => inferInstanceAs (Decidable (_ ∧ _))

instance : DecidablePred (@Transmission.Waits Byte) := fun _ => inferInstanceAs (Decidable (_ ∧ _))

/-- The messages up to the one for which `write` does not answer any more. -/
def attempted : List (Transmission Byte) → List (Transmission Byte)
  | [] => []
  | message :: messages => message :: if message.Waits then [] else attempted messages

/-- Once `write` has failed within a message it takes nothing of the later ones. -/
def ErrorsLast (messages : List (Transmission Byte)) : Prop :=
  (attempted messages).Pairwise fun earlier later => earlier.Breaks → Refuses later.results = true

/-- What is written behind a message that waits is not begun. -/
theorem run_blocked {channel : Channel Byte} (blocked : channel.blocked = true) (messages : List (Transmission Byte)) :
    run Channel.write channel messages = channel := by
  induction messages with
  | nil => rfl
  | cons message messages inductionHypothesis =>
    rw [run_cons, Channel.write, if_pos blocked]
    exact inductionHypothesis

theorem Transmission.waits_iff {message : Transmission Byte} (nonempty : message.data ≠ []) :
    message.outcome = none ↔ message.Waits :=
  writeLoop_waits nonempty message.results

/-- A channel that can go on begins the messages that are attempted. -/
theorem run_log {channel : Channel Byte} (free : channel.blocked = false) {messages : List (Transmission Byte)}
    (nonempty : ∀ message ∈ messages, message.data ≠ []) :
    (run Channel.write channel messages).log = channel.log ++ attempted messages := by
  induction messages generalizing channel with
  | nil => exact (List.append_nil _).symm
  | cons message messages inductionHypothesis =>
    have waits := Transmission.waits_iff (nonempty message List.mem_cons_self)
    have blocked : (channel.write message).blocked = decide message.Waits := by
      have before : channel.log.any (·.outcome = none) = false := free
      rw [Channel.write, if_neg (by simp [free]), Channel.blocked, List.any_append, before, Bool.false_or,
        List.any_cons, List.any_nil, Bool.or_false]
      exact decide_eq_decide.mpr waits
    have log : (channel.write message).log = channel.log ++ [message] := by
      rw [Channel.write, if_neg (by simp [free])]
    rw [run_cons, attempted]
    by_cases last : message.Waits
    · rw [run_blocked (blocked.trans (decide_eq_true last)), if_pos last, log]
    · rw [inductionHypothesis (blocked.trans (decide_eq_false last)) fun later member =>
        nonempty later (List.mem_cons_of_mem _ member), if_neg last, log, List.append_assoc]
      rfl

theorem mem_attempted {messages : List (Transmission Byte)} {message : Transmission Byte}
    (member : message ∈ attempted messages) : message ∈ messages := by
  induction messages with
  | nil => exact member
  | cons first messages inductionHypothesis =>
    rw [attempted] at member
    rcases List.mem_cons.mp member with rfl | later
    · exact List.mem_cons_self
    · split at later
      · contradiction
      · exact List.mem_cons_of_mem _ (inductionHypothesis later)

theorem Channel.run_sound {channel : Channel Byte} (sound : channel.Sound) {messages : List (Transmission Byte)}
    (nonempty : ∀ message ∈ messages, message.data ≠ []) : (run Channel.write channel messages).Sound := by
  induction messages generalizing channel with
  | nil => exact sound
  | cons message messages inductionHypothesis =>
    exact inductionHypothesis (sound.write (nonempty message List.mem_cons_self))
      fun later member => nonempty later (List.mem_cons_of_mem _ member)

/-- The stream of a channel is intact if and only if errors are the last that `write` answers. -/
theorem intact_iff_errorsLast {messages : List (Transmission Byte)}
    (nonempty : ∀ message ∈ messages, message.data ≠ []) :
    (run Channel.write .new messages).Intact ↔ ErrorsLast messages := by
  rw [(Channel.run_sound Channel.new_sound nonempty).intact_iff, run_log rfl nonempty]
  refine List.Pairwise.iff_of_mem fun {earlier later} earlierMember laterMember => ?_
  rw [Channel.new, List.nil_append] at earlierMember laterMember
  refine imp_congr ?_ ?_
  · exact writeLoop_breaks (nonempty earlier (mem_attempted earlierMember)) earlier.results
  · exact writeLoop_refuses (nonempty later (mem_attempted laterMember)) later.results

/-- The channel of some messages is blocked if `write` does not answer any more for one of them. -/
theorem run_blocked_iff {messages : List (Transmission Byte)} (nonempty : ∀ message ∈ messages, message.data ≠ []) :
    (run Channel.write .new messages).blocked = messages.any fun message => decide message.Waits := by
  rw [Channel.blocked, run_log rfl nonempty]
  show (attempted messages).any _ = _
  induction messages with
  | nil => rfl
  | cons message messages inductionHypothesis =>
    have waits := Transmission.waits_iff (nonempty message List.mem_cons_self)
    rw [attempted, List.any_cons, List.any_cons, decide_eq_decide.mpr waits]
    by_cases last : message.Waits
    · simp [last]
    · rw [if_neg last, inductionHypothesis fun later member => nonempty later (List.mem_cons_of_mem _ member)]

end Gamin.Library
