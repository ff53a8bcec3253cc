import Gamin.Client.Monitors
import Gamin.Library.Runs

/-! # The lock of a connection

Every public function takes the recursive lock of the connection and should give it back.
Two error returns do not: that of `FAMNextEvent` behind a failed read, and that of
`FAMPending` behind a failed `select`.  The functions that send balance on every path.
-/

namespace Gamin.Client

open Gamin Gamin.Library

/-! ## The functions that send -/

theorem famMonitor_balanced (type : Nat) (hasReqnum : Bool) (fc : FAMConnection)
    (filename : Option CString) (request : Option Int) (userData : Pointer) (memory : Allocation)
    (written : WriteAnswer) :
    (famMonitor type hasReqnum fc filename request userData memory written).2.2.1.lockDepth =
      fc.lockDepth := by
  unfold famMonitor
  split
  · split
    · rfl
    · split
      · rfl
      · split
        · rfl
        · exact Int.add_sub_cancel fc.lockDepth 1
  · rfl

theorem famCancelMonitor_balanced (fc : FAMConnection) (request : Option Int) (written : WriteAnswer) :
    (famCancelMonitor fc request written).2.1.lockDepth = fc.lockDepth := by
  unfold famCancelMonitor
  split
  · split
    · rfl
    · simp only
      split <;> exact Int.add_sub_cancel fc.lockDepth 1
  · rfl

theorem famNoExists_balanced {fc after : FAMConnection} {result : Int}
    (returned : famNoExists fc = some (result, after)) : after.lockDepth = fc.lockDepth := by
  unfold famNoExists at returned
  split at returned
  · contradiction
  · simp only [Option.some.injEq, Prod.mk.injEq] at returned
    rw [← returned.2]
    exact Int.add_sub_cancel fc.lockDepth 1

/-! ## The functions that read -/

/-- The credentials of the server have been checked, or the check succeeds now. -/
def Authenticated (conn : GAMData) (answers : ReadAnswers) : Prop :=
  conn.auth = 1 ∨ (conn.auth = 0 ∧ answers.credential = some 0 ∧ answers.sameUid = true)

/-- `read` delivers bytes, and the checks on the packet at the front of the buffer pass. -/
def ChunkAccepted (conn : GAMData) (answers : ReadAnswers) : Prop :=
  ∃ bytes, answers.read = .data bytes ∧
    0 ≤ (gaminDataConnData { conn with event := store conn.event conn.evnRead.toNat bytes }
      bytes.length).1

theorem gaminReadChunk_succeeds (conn : GAMData) (answers : ReadAnswers) :
    0 ≤ (gaminReadChunk conn answers).1 ↔ ChunkAccepted conn answers := by
  cases read : answers.read with
  | failed => simp [gaminReadChunk, ChunkAccepted, read]
  | endOfFile => simp [gaminReadChunk, ChunkAccepted, read]
  | data bytes =>
    simp only [gaminReadChunk, ChunkAccepted, read, ReadAnswer.data.injEq, exists_eq_left']
    split <;> omega

theorem gaminReadData_authenticated {conn : GAMData} {answers : ReadAnswers}
    (authenticated : Authenticated conn answers) :
    gaminReadData conn answers true = gaminReadChunk (gaminDataDoneAuth conn) answers := by
  cases authenticated with
  | inl done =>
    have same : gaminDataDoneAuth conn = conn := by rw [gaminDataDoneAuth, ← done]
    have need : gaminDataNeedAuth conn = 0 := by simp [gaminDataNeedAuth, done]
    simp [gaminReadData, need, same]
  | inr checked =>
    -- the first read on a connection checks the credentials
    obtain ⟨needed, credential, identity⟩ := checked
    have due : gaminDataNeedAuth conn = 1 := by simp [gaminDataNeedAuth, needed]
    simp [gaminReadData, due, gaminCheckCred, credential, identity]

theorem gaminReadData_refused {conn : GAMData} {answers : ReadAnswers}
    (refused : ¬ Authenticated conn answers) : (gaminReadData conn answers true).1 = -1 := by
  obtain ⟨undone, unchecked⟩ := not_or.mp refused
  by_cases needed : conn.auth = 0
  · have due : gaminDataNeedAuth conn = 1 := by simp [gaminDataNeedAuth, needed]
    have failed : (gaminCheckCred conn answers).1 = -1 := by
      cases credential : answers.credential with
      | none => simp [gaminCheckCred, credential]
      | some byte =>
        by_cases nul : byte = 0
        · have other : answers.sameUid = false := by
            cases identity : answers.sameUid with
            | false => rfl
            | true => exact absurd ⟨needed, nul ▸ credential, identity⟩ unchecked
          simp [gaminCheckCred, credential, nul, other]
        · simp [gaminCheckCred, credential, nul]
    simp only [gaminReadData, due, if_true, failed, Int.reduceNeg, Int.reduceLT]
  · have need : gaminDataNeedAuth conn = -1 := by simp [gaminDataNeedAuth, undone, needed]
    simp [gaminReadData, need]

/-- When the blocking read of `FAMNextEvent` succeeds. -/
theorem gaminReadData_succeeds (conn : GAMData) (answers : ReadAnswers) :
    0 ≤ (gaminReadData conn answers true).1 ↔
      Authenticated conn answers ∧ ChunkAccepted (gaminDataDoneAuth conn) answers := by
  by_cases authenticated : Authenticated conn answers
  · rw [gaminReadData_authenticated authenticated, gaminReadChunk_succeeds]
    exact ⟨fun accepted => ⟨authenticated, accepted⟩, And.right⟩
  · rw [gaminReadData_refused authenticated]
    exact iff_of_false (by decide) fun both => authenticated both.1

/-- The condition under which a call gives back the lock. -/
def GivesBackLock (fc : FAMConnection) : ApiCall → Prop
  | .nextEvent answers _ => ∀ conn, fc.client = some conn → 0 ≤ fc.fd →
      (gaminDataEventReady conn).1 = true ∨
        (Authenticated (gaminDataEventReady conn).2 answers ∧
          ChunkAccepted (gaminDataDoneAuth (gaminDataEventReady conn).2) answers)
  | .pending available _ _ => ∀ conn, fc.client = some conn →
      (gaminDataEventReady conn).1 = true ∨ (0 ≤ fc.fd ∧ 0 ≤ available)
  | _ => True

theorem famNextEvent_balanced_iff (fc : FAMConnection) (answers : ReadAnswers)
    (reconnect : ReconnectAnswers) :
    (famNextEvent fc answers reconnect).2.lockDepth = fc.lockDepth ↔
      GivesBackLock fc (.nextEvent answers reconnect) := by
  cases client : fc.client with
  | none => simp [famNextEvent, GivesBackLock, client]
  | some conn =>
    by_cases closed : fc.fd < 0
    · have never : ¬ 0 ≤ fc.fd := by omega
      simp [famNextEvent, GivesBackLock, client, closed, never]
    · have isOpen : 0 ≤ fc.fd := by omega
      have succeeds := gaminReadData_succeeds (gaminDataEventReady conn).2 answers
      simp only [famNextEvent, GivesBackLock, client, if_neg closed, Option.some.injEq, isOpen,
        forall_true_left, forall_eq']
      cases ready : (gaminDataEventReady conn).1 with
      | true => simp [apply_ite FAMConnection.lockDepth]
      | false =>
        simp only [Bool.false_eq_true, if_false, false_or, ← succeeds]
        by_cases failed : (gaminReadData (gaminDataEventReady conn).2 answers true).1 < 0
        · -- the early return, between lock and unlock
          have unread : ¬ 0 ≤ (gaminReadData (gaminDataEventReady conn).2 answers true).1 := by omega
          simp only [if_pos failed, unread, iff_false]
          omega
        · have read : 0 ≤ (gaminReadData (gaminDataEventReady conn).2 answers true).1 := by omega
          simp [failed, read, apply_ite FAMConnection.lockDepth]

theorem famPending_balanced_iff (fc : FAMConnection) (available : Int) (answers : ReadAnswers)
    (reconnect : ReconnectAnswers) :
    (famPending fc available answers reconnect).2.lockDepth = fc.lockDepth ↔
      GivesBackLock fc (.pending available answers reconnect) := by
  cases client : fc.client with
  | none => simp [famPending, GivesBackLock, client]
  | some conn =>
    simp only [famPending, GivesBackLock, client, Option.some.injEq, forall_eq']
    cases answer : gaminDataEventReady conn with
    | mk ready after =>
      cases ready with
      | true => simp
      | false =>
        by_cases closed : fc.fd < 0
        · simp only [if_pos closed, Int.reduceNeg, Int.reduceLT, if_true, Bool.false_eq_true, false_or]
          omega
        · simp only [if_neg closed, Bool.false_eq_true, false_or]
          by_cases failed : available < 0
          · simp only [if_pos failed]
            omega
          · simp only [if_neg failed, Int.add_sub_cancel, true_iff]
            omega

/-! ## Every sequence of calls -/

theorem apiStep_balanced_iff {fc after : FAMConnection} {call : ApiCall}
    (returned : apiStep fc call = some after) :
    after.lockDepth = fc.lockDepth ↔ GivesBackLock fc call := by
  cases call with
  | monitorDirectory =>
    cases returned
    exact iff_of_true (famMonitor_balanced ..) trivial
  | monitorFile =>
    cases returned
    exact iff_of_true (famMonitor_balanced ..) trivial
  | monitorDirectory2 =>
    cases returned
    exact iff_of_true (famMonitor_balanced ..) trivial
  | monitorFile2 =>
    cases returned
    exact iff_of_true (famMonitor_balanced ..) trivial
  | nextEvent answers reconnect =>
    cases returned
    exact famNextEvent_balanced_iff fc answers reconnect
  | pending available answers reconnect =>
    cases returned
    exact famPending_balanced_iff fc available answers reconnect
  | cancelMonitor =>
    cases returned
    exact iff_of_true (famCancelMonitor_balanced ..) trivial
  | noExists =>
    obtain ⟨result, answer, rfl⟩ := Option.map_eq_some_iff.mp returned
    exact iff_of_true (famNoExists_balanced answer) trivial

/-- The depth of the lock is the same behind every call of a sequence exactly when no call
takes one of the two returns that keep it. -/
theorem calls_balanced_iff (fc : FAMConnection) (calls : List ApiCall) :
    Throughout (partialStep apiStep) (IfAny fun after => after.lockDepth = fc.lockDepth) (some fc) calls ↔
      Guarded (partialStep apiStep) (GuardIfAny GivesBackLock) (some fc) calls := by
  have entered : IfAny (fun after => after.lockDepth = fc.lockDepth) (some fc) :=
    show fc.lockDepth = fc.lockDepth from rfl
  apply throughout_iff_guarded (fun _ => True) (fun _ _ _ => trivial) ?_ ?_ trivial entered
  · intro state call _ balanced guarded
    cases state with
    | none => trivial
    | some before =>
      cases answer : apiStep before call with
      | none => simp [partialStep, answer, IfAny]
      | some after =>
        have kept := (apiStep_balanced_iff answer).mpr guarded
        simp only [partialStep, Option.bind_some, answer]
        exact kept.trans balanced
  · intro state call _ balanced stillBalanced
    cases state with
    | none => trivial
    | some before =>
      cases answer : apiStep before call with
      | none =>
        -- a call without a result is one of FAMNoExists
        cases call with
        | noExists => trivial
        | _ => simp [apiStep] at answer
      | some after =>
        simp only [partialStep, Option.bind_some, answer] at stillBalanced
        exact (apiStep_balanced_iff answer).mp (Eq.trans stillBalanced (Eq.symm balanced))

/-- The credentials are in order, but the server has closed the connection. -/
def lostServer : ReadAnswers where
  credential := some 0
  sameUid := true
  available := 1
  read := .endOfFile

/-- The thread keeps the lock when the server is gone, and when `select` fails. -/
theorem failures_keep_lock :
    openedConnection.lockDepth = 0 ∧
      (apiStep openedConnection (.nextEvent lostServer ⟨true, true, true, true⟩)).map (·.lockDepth) =
        some 1 ∧
      (apiStep openedConnection (.pending (-1) lostServer ⟨true, true, true, true⟩)).map (·.lockDepth) =
        some 1 := by
  decide +kernel

end Gamin.Client
