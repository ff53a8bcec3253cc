import Gamin.Inotify.MoveHistory
import Mathlib.Data.List.Nodup

/-! # Move pairing loses and duplicates nothing

The queue is always a contiguous stretch of what has been read: events leave it at the front
and arrive at the back, in the order of their positions.  `Waiting` describes it by the position
of its front and by the mark behind the events that `ik_pair_moves` has seen, and ties the heap,
the cookie table and the calls of the user callback to these two numbers.  Reading moves the
back, the first pass of a tick moves the mark to the back, and the second pass moves the front.
-/

namespace Gamin.Inotify

open Gamin Gamin.Library

/-! ## Moves -/

def KernelEvent.MovedFrom (event : KernelEvent) : Prop := event.report.has inMovedFrom = true

def KernelEvent.MovedTo (event : KernelEvent) : Prop :=
  event.report.has inMovedFrom = false ∧ event.report.has inMovedTo = true

instance (event : KernelEvent) : Decidable event.MovedFrom :=
  inferInstanceAs (Decidable (_ = _))

instance (event : KernelEvent) : Decidable event.MovedTo :=
  inferInstanceAs (Decidable (_ ∧ _))

/-- The kernel gives every half of a move a cookie. -/
def CookieGiven (event : KernelEvent) : Prop :=
  event.MovedFrom ∨ event.MovedTo → event.cookie ≠ 0

instance (event : KernelEvent) : Decidable (CookieGiven event) :=
  inferInstanceAs (Decidable (_ → _))

/-- Two events read, the halves of one move as far as their cookies say. -/
def Mates (reads : List KernelEvent) (first second : Nat) : Prop :=
  ∃ source target, reads[first]? = some source ∧ reads[second]? = some target ∧
    source.MovedFrom ∧ target.MovedTo ∧ source.cookie = target.cookie

/-- An event was handed out when the other had not yet been read. -/
def HandedBefore (handed : List Handed) (event other : Nat) : Prop :=
  ∃ call ∈ handed, event ∈ call.members ∧ call.readSoFar ≤ other

/-- Of the events read until some time, a third one with the cookie that has met a given one in
the queue. -/
def Rival (reads : List KernelEvent) (handed : List Handed) (readSoFar : Nat)
    (event rival : Nat) : Prop :=
  rival ≠ event ∧ rival < readSoFar ∧ ¬ HandedBefore handed rival event ∧
    ∃ of other, reads[event]? = some of ∧ reads[rival]? = some other ∧
      other.cookie = of.cookie ∧ (other.MovedFrom ∨ rival < event)

/-- What the user callback gets for an event and its pair. -/
def deliveredAs (event : KernelEvent) : Option KernelEvent → IkEvent
  | some pair => { toIkReport := event.report, pair := some pair.report }
  | none => {
      toIkReport := if event.cookie ≠ 0 then unpairedReport event.report else event.report
      pair := none }

/-- What is known of one call of the user callback. -/
structure Handed.Sound (reads : List KernelEvent) (handed : List Handed) (call : Handed) : Prop where
  inTime : call.event < call.readSoFar ∧ call.readSoFar ≤ reads.length
  faithful : ∃ event, reads[call.event]? = some event ∧
    call.given = deliveredAs event (call.pair.bind (reads[·]?))
  mates : ∀ other, call.pair = some other →
    Mates reads call.event other ∧ call.event < other ∧ other < call.readSoFar
  missed : call.pair = none → ∀ other, Mates reads call.event other → call.event < other →
    other < call.readSoFar → ∃ rival, Rival reads handed call.readSoFar call.event rival

/-! ## The invariant -/

/-- What has been handed out, and what has left the queue. -/
structure Ledger (reads : List KernelEvent) (handed : List Handed) (front : Nat) : Prop where
  calls : ∀ call ∈ handed, call.Sound reads handed
  once : (handed.flatMap Handed.members).Nodup
  popped : ∀ call ∈ handed, call.event < front
  covered : ∀ position, position < front → position ∈ handed.flatMap Handed.members
  ordered : (handed.map Handed.event).Pairwise (· < ·)

/-- The cookie table refers to unpaired halves in the queue.  A half that is still unpaired can
be found by its cookie and has not been missed, unless it has met a rival. -/
structure Cookies (reads : List KernelEvent) (handed : List Handed) (mark front : Nat)
    (queue : MoveQueue) : Prop where
  hashed : ∀ (cookie address : Nat), queue.cookieHash cookie = some address →
    front ≤ address ∧ address < mark ∧ ∃ event, queue.events address = some event ∧
      event.MovedFrom ∧ event.cookie = cookie ∧ event.pair = none
  awaiting : ∀ (address : Nat) event, front ≤ address → address < mark →
    queue.events address = some event → event.MovedFrom → event.pair = none →
    (queue.cookieHash event.cookie = some address ∧
      ∀ other, address < other → other < mark → ¬ Mates reads address other) ∨
    ∃ rival, Rival reads handed reads.length address rival

structure Waiting (reads : List KernelEvent) (handed : List Handed) (mark front : Nat)
    (queue : MoveQueue) : Prop extends Ledger reads handed front,
    Cookies reads handed mark front queue where
  counted : queue.nextEvent = reads.length
  marked : mark ≤ reads.length
  inside : front ≤ mark
  stored : ∀ address, front ≤ address → address < reads.length →
    ∃ event, queue.events address = some event ∧ reads[address]? = some event.toKernelEvent ∧
      (event.seen = true ↔ address < mark) ∧
      (event.sent = true ↔ ∃ call ∈ handed, call.pair = some address)
  mated : ∀ (address : Nat) event (other : Nat), front ≤ address →
    queue.events address = some event → event.pair = some other →
    Mates reads address other ∧ address < other ∧ other < mark ∧
      ¬ ∃ call ∈ handed, call.pair = some other
  apart : ∀ (address : Nat) event (address' : Nat) event' (other : Nat), front ≤ address →
    front ≤ address' → queue.events address = some event → queue.events address' = some event' →
    event.pair = some other → event'.pair = some other → address = address'
  pairsSeen : ∀ call ∈ handed, ∀ other, call.pair = some other → other < mark

theorem Waiting.new : Waiting [] [] 0 0 .new where
  calls _ member := absurd member List.not_mem_nil
  once := List.nodup_nil
  popped _ member := absurd member List.not_mem_nil
  covered _ bound := absurd bound (Nat.not_lt_zero _)
  ordered := .nil
  hashed _ _ present := by cases present
  awaiting _ _ _ bound := absurd bound (Nat.not_lt_zero _)
  counted := rfl
  marked := le_rfl
  inside := le_rfl
  stored _ _ bound := absurd bound (Nat.not_lt_zero _)
  mated _ _ _ _ present _ := by cases present
  apart _ _ _ _ _ _ _ present := by cases present
  pairsSeen _ member := absurd member List.not_mem_nil

variable {reads : List KernelEvent} {handed : List Handed} {mark front : Nat} {queue : MoveQueue}

/-! ## Reading -/

theorem getElem?_grown {event : KernelEvent} {position : Nat} (more : List KernelEvent)
    (read : reads[position]? = some event) : (reads ++ more)[position]? = some event := by
  rw [List.getElem?_append_left (List.getElem?_eq_some_iff.mp read).1, read]

theorem Mates.bound {first second : Nat} (mates : Mates reads first second) :
    first < reads.length ∧ second < reads.length := by
  obtain ⟨_, _, readFirst, readSecond, _⟩ := mates
  exact ⟨(List.getElem?_eq_some_iff.mp readFirst).1, (List.getElem?_eq_some_iff.mp readSecond).1⟩

theorem Mates.halves {first second : Nat} {source target : KernelEvent}
    (mates : Mates reads first second) (readSource : reads[first]? = some source)
    (readTarget : reads[second]? = some target) :
    source.MovedFrom ∧ target.MovedTo ∧ source.cookie = target.cookie := by
  obtain ⟨source', target', readSource', readTarget', halves⟩ := mates
  obtain rfl : source = source' := Option.some.inj (readSource.symm.trans readSource')
  obtain rfl : target = target' := Option.some.inj (readTarget.symm.trans readTarget')
  exact halves

theorem mates_grown {first second : Nat} (more : List KernelEvent)
    (bound : first < reads.length ∧ second < reads.length) :
    Mates (reads ++ more) first second ↔ Mates reads first second := by
  unfold Mates
  rw [List.getElem?_append_left bound.1, List.getElem?_append_left bound.2]

theorem Rival.grown {readSoFar : Nat} {event rival : Nat} (more : List KernelEvent)
    (isRival : Rival reads handed readSoFar event rival) :
    Rival (reads ++ more) handed readSoFar event rival := by
  obtain ⟨different, bound, met, of, other, readOf, readOther, rest⟩ := isRival
  exact ⟨different, bound, met, of, other, getElem?_grown more readOf,
    getElem?_grown more readOther, rest⟩

theorem Rival.later {readSoFar later : Nat} {event rival : Nat} (bound : readSoFar ≤ later)
    (isRival : Rival reads handed readSoFar event rival) :
    Rival reads handed later event rival :=
  ⟨isRival.1, lt_of_lt_of_le isRival.2.1 bound, isRival.2.2⟩

theorem Handed.Sound.grown {call : Handed} (more : List KernelEvent)
    (sound : call.Sound reads handed) : call.Sound (reads ++ more) handed where
  inTime := ⟨sound.inTime.1, by rw [List.length_append]; exact Nat.le_add_right_of_le sound.inTime.2⟩
  faithful := by
    obtain ⟨event, readEvent, given⟩ := sound.faithful
    refine ⟨event, getElem?_grown more readEvent, given.trans ?_⟩
    cases pair : call.pair with
    | none => rfl
    | some other =>
      have bound := (sound.mates other pair).1.bound.2
      simp only [Option.bind_some, List.getElem?_append_left bound]
  mates other pair := by
    obtain ⟨mates, order, inTime⟩ := sound.mates other pair
    exact ⟨(mates_grown more mates.bound).mpr mates, order, inTime⟩
  missed unpaired other mates order inTime := by
    have bound := sound.inTime
    have readOther : call.event < reads.length ∧ other < reads.length := by omega
    obtain ⟨rival, isRival⟩ :=
      sound.missed unpaired other ((mates_grown more readOther).mp mates) order inTime
    exact ⟨rival, isRival.grown more⟩

theorem Ledger.grown (ledger : Ledger reads handed front) (more : List KernelEvent) :
    Ledger (reads ++ more) handed front :=
  { ledger with calls := fun call member => (ledger.calls call member).grown more }

theorem queueEvent_events (queue : MoveQueue) (event : KernelEvent) (time : Nat)
    {address : Nat} (old : address ≠ queue.nextEvent) :
    (queueEvent queue (event, time)).events address = queue.events address := by
  simp [queueEvent, MoveQueue.setEvent, old]

/-- Reading one event. -/
theorem Waiting.read (waiting : Waiting reads handed mark front queue) (event : KernelEvent)
    (time : Nat) :
    Waiting (reads ++ [event]) handed mark front (queueEvent queue (event, time)) := by
  have longer : (reads ++ [event]).length = reads.length + 1 := by simp
  have marked := waiting.marked
  -- the new event is the last one, and nothing else in the queue has changed
  have atNew : (queueEvent queue (event, time)).events reads.length =
      some { toKernelEvent := event, seen := false, sent := false,
             holdUntil := time + defaultHoldUntilTime, pair := none } := by
    simp [queueEvent, MoveQueue.setEvent, waiting.counted]
  have atOld : ∀ {address}, address ≠ reads.length →
      (queueEvent queue (event, time)).events address = queue.events address :=
    fun old => queueEvent_events queue event time (waiting.counted ▸ old)
  have paired : ∀ {address stored other}, (queueEvent queue (event, time)).events address =
      some stored → stored.pair = some other → queue.events address = some stored := by
    intro address stored other present pair
    by_cases new : address = reads.length
    · rw [new, atNew] at present
      cases present
      contradiction
    · rwa [atOld new] at present
  exact {
    toLedger := waiting.toLedger.grown [event]
    hashed := by
      intro cookie address found
      obtain ⟨after, seen, stored, present, rest⟩ := waiting.hashed cookie address found
      exact ⟨after, seen, stored, (atOld (by omega)).trans present, rest⟩
    awaiting := by
      intro address stored after seen present source unpaired
      rw [atOld (by omega)] at present
      refine (waiting.awaiting address stored after seen present source unpaired).imp ?_ ?_
      · rintro ⟨found, none⟩
        exact ⟨found, fun other order before mates =>
          none other order before ((mates_grown [event] ⟨by omega, by omega⟩).mp mates)⟩
      · rintro ⟨rival, isRival⟩
        exact ⟨rival, (isRival.grown [event]).later (by omega)⟩
    counted := by rw [longer, ← waiting.counted]; rfl
    marked := by omega
    inside := waiting.inside
    stored := by
      intro address after bound
      by_cases new : address = reads.length
      · subst new
        refine ⟨_, atNew, by simp, by simp; omega, ?_⟩
        simp only [Bool.false_eq_true, false_iff, not_exists, not_and]
        intro call member pair
        have before := waiting.pairsSeen call member _ pair
        omega
      · obtain ⟨stored, present, readStored, rest⟩ := waiting.stored address after (by omega)
        exact ⟨stored, (atOld new).trans present, getElem?_grown _ readStored, rest⟩
    mated := by
      intro address stored other after present pair
      obtain ⟨mates, rest⟩ := waiting.mated address stored other after (paired present pair) pair
      exact ⟨(mates_grown [event] mates.bound).mpr mates, rest⟩
    apart := fun address stored address' stored' other after after' present present' pair pair' =>
      waiting.apart address stored address' stored' other after after'
        (paired present pair) (paired present' pair') pair pair'
    pairsSeen := waiting.pairsSeen }

/-! ## Pairing -/

theorem setEvent_events (queue : MoveQueue) (address other : Nat) (event : IkEventInternal) :
    (queue.setEvent address event).events other =
      if other = address then some event else queue.events other :=
  Function.update_apply _ _ _ _

/-- The event behind the mark is as it was read. -/
theorem Waiting.atMark (waiting : Waiting reads handed mark front queue) (after : front ≤ mark)
    (inside : mark < reads.length) :
    ∃ event, queue.events mark = some event ∧ reads[mark]? = some event.toKernelEvent ∧
      event.seen = false ∧ event.sent = false ∧ event.pair = none := by
  obtain ⟨event, present, readEvent, seen, sent⟩ := waiting.stored mark after inside
  refine ⟨event, present, readEvent, ?_, ?_, ?_⟩
  · exact Bool.eq_false_iff.mpr fun isSeen => absurd (seen.mp isSeen) (lt_irrefl _)
  · refine Bool.eq_false_iff.mpr fun isSent => ?_
    obtain ⟨call, member, pair⟩ := sent.mp isSent
    exact absurd (waiting.pairsSeen call member mark pair) (lt_irrefl _)
  · refine Option.eq_none_iff_forall_ne_some.mpr fun other pair => ?_
    obtain ⟨_, order, before, _⟩ := waiting.mated mark event other after present pair
    exact absurd (order.trans before) (lt_irrefl _)

/-- The event behind the mark has not been handed out. -/
theorem Waiting.mark_unhanded (waiting : Waiting reads handed mark front queue)
    (after : front ≤ mark) (other : Nat) : ¬ HandedBefore handed mark other := by
  rintro ⟨call, member, within, _⟩
  cases List.mem_cons.mp within with
  | inl same =>
    have := waiting.popped call member
    omega
  | inr paired =>
    exact absurd (waiting.pairsSeen call member mark (Option.mem_toList.mp paired)) (lt_irrefl _)

/-- The event behind the mark is seen, and stays unpaired. -/
theorem Waiting.advance (waiting : Waiting reads handed mark front queue) (after : front ≤ mark)
    (inside : mark < reads.length) {event : IkEventInternal}
    (present : queue.events mark = some event) (holdUntil : Nat)
    (cookieHash : Nat → Option Pointer)
    (cookies : Cookies reads handed (mark + 1) front
      { queue.setEvent mark { event with seen := true, holdUntil := holdUntil } with
        cookieHash := cookieHash }) :
    Waiting reads handed (mark + 1) front
      { queue.setEvent mark { event with seen := true, holdUntil := holdUntil } with
        cookieHash := cookieHash } := by
  obtain ⟨event', present', readEvent, _, unsent, unpaired⟩ := waiting.atMark after inside
  obtain rfl : event = event' := Option.some.inj (present.symm.trans present')
  -- what has a pair is not the event behind the mark
  have paired : ∀ {address stored other},
      (queue.setEvent mark { event with seen := true, holdUntil := holdUntil }).events address =
        some stored →
      stored.pair = some other → queue.events address = some stored := by
    intro address stored other present pair
    rw [setEvent_events] at present
    split at present
    · cases present
      rw [unpaired] at pair
      contradiction
    · exact present
  exact {
    toLedger := waiting.toLedger
    toCookies := cookies
    counted := waiting.counted
    marked := inside
    inside := waiting.inside.trans (Nat.le_succ mark)
    stored := by
      intro address after bound
      obtain ⟨stored, isStored, readStored, seen, sent⟩ := waiting.stored address after bound
      by_cases new : address = mark
      · subst new
        obtain rfl : event = stored := Option.some.inj (present'.symm.trans isStored)
        exact ⟨_, (setEvent_events ..).trans (if_pos rfl), readEvent, by simp, sent⟩
      · exact ⟨stored, ((setEvent_events ..).trans (if_neg new)).trans isStored, readStored,
          seen.trans (by omega), sent⟩
    mated := by
      intro address stored other after present pair
      obtain ⟨mates, order, before, unsent⟩ :=
        waiting.mated address stored other after (paired present pair) pair
      exact ⟨mates, order, by omega, unsent⟩
    apart := fun address stored address' stored' other after after' present present' pair pair' =>
      waiting.apart address stored address' stored' other after after'
        (paired present pair) (paired present' pair') pair pair'
    pairsSeen := fun call member other pair =>
      (waiting.pairsSeen call member other pair).trans (Nat.lt_succ_self mark) }

/-- An event that neither opens nor closes a move is only marked. -/
theorem Waiting.markSeen (waiting : Waiting reads handed mark front queue)
    (after : front ≤ mark) (inside : mark < reads.length) {event : IkEventInternal}
    (present : queue.events mark = some event) (notSource : ¬ event.MovedFrom)
    (unmatched : event.MovedTo → queue.cookieHash event.cookie = none) :
    Waiting reads handed (mark + 1) front (queue.setEvent mark { event with seen := true }) := by
  obtain ⟨event', present', readEvent, _⟩ := waiting.atMark after inside
  obtain rfl : event = event' := Option.some.inj (present.symm.trans present')
  refine waiting.advance after inside present event.holdUntil queue.cookieHash
    { hashed := ?_, awaiting := ?_ }
  · intro cookie address found
    obtain ⟨after, seen, stored, present, rest⟩ := waiting.hashed cookie address found
    exact ⟨after, by omega, stored,
      ((setEvent_events ..).trans (if_neg (by omega))).trans present, rest⟩
  · intro address stored after seen isStored source unpaired
    replace isStored := (setEvent_events ..).symm.trans isStored
    split at isStored
    · cases isStored
      exact absurd source notSource
    · obtain ⟨stored', present'', readStored, _⟩ := waiting.stored address after (by omega)
      obtain rfl : stored = stored' := Option.some.inj (isStored.symm.trans present'')
      refine (waiting.awaiting address stored after (by omega) isStored source unpaired).imp_left ?_
      rintro ⟨found, none⟩
      refine ⟨found, fun other order before mates => ?_⟩
      rcases Nat.lt_succ_iff_lt_or_eq.mp before with earlier | rfl
      · exact none other order earlier mates
      · -- the mark would be the other half of an event that the table still refers to
        obtain ⟨_, target, same⟩ := mates.halves readStored readEvent
        have unmatched := unmatched target
        rw [← same, found] at unmatched
        contradiction

/-- The first half of a move enters the cookie table, and rivals what was there. -/
theorem Waiting.enter (waiting : Waiting reads handed mark front queue)
    (after : front ≤ mark) (inside : mark < reads.length) {event : IkEventInternal}
    (present : queue.events mark = some event) (source : event.MovedFrom) (holdUntil : Nat) :
    Waiting reads handed (mark + 1) front
      { queue.setEvent mark { event with seen := true, holdUntil := holdUntil } with
        cookieHash := Function.update queue.cookieHash event.cookie (some mark) } := by
  obtain ⟨event', present', readEvent, _, _, unpaired⟩ := waiting.atMark after inside
  obtain rfl : event = event' := Option.some.inj (present.symm.trans present')
  refine waiting.advance after inside present holdUntil _ { hashed := ?_, awaiting := ?_ }
  -- what the table has is the new event, or it was there before
  · intro cookie address found
    simp only [Function.update_apply] at found
    split at found
    · cases found
      rename_i same
      exact ⟨after, Nat.lt_succ_self mark, _, (setEvent_events ..).trans (if_pos rfl), source,
        same.symm, unpaired⟩
    · obtain ⟨after, seen, stored, isStored, rest⟩ := waiting.hashed cookie address found
      exact ⟨after, by omega, stored,
        ((setEvent_events ..).trans (if_neg (by omega))).trans isStored, rest⟩
  · intro address stored after' seen isStored isSource unpaired
    replace isStored := (setEvent_events ..).symm.trans isStored
    split at isStored
    · cases isStored
      rename_i same
      subst same
      exact .inl ⟨Function.update_self .., fun other order before => absurd before (by omega)⟩
    · rename_i different
      obtain ⟨stored', present'', readStored, _⟩ := waiting.stored address after' (by omega)
      obtain rfl : stored = stored' := Option.some.inj (isStored.symm.trans present'')
      -- an older half with the same cookie now has a rival
      by_cases same : stored.cookie = event.cookie
      · exact .inr ⟨mark, by omega, inside, waiting.mark_unhanded after address, _, _, readStored,
          readEvent, same.symm, .inl source⟩
      · refine (waiting.awaiting address stored after' (by omega) isStored isSource
          unpaired).imp_left ?_
        rintro ⟨found, none⟩
        refine ⟨(Function.update_of_ne same ..).trans found, fun other order before mates => ?_⟩
        rcases Nat.lt_succ_iff_lt_or_eq.mp before with earlier | rfl
        · exact none other order earlier mates
        · exact same (mates.halves readStored readEvent).2.2

/-- What becomes of the queue when the event behind the mark is paired with the first half that the table
has for its cookie. -/
structure PairedUp (queue : MoveQueue) (mark found : Nat) (event first : IkEventInternal) (holdUntil : Nat)
    (next : MoveQueue) : Prop where
  events : ∀ address : Nat, next.events address =
    if address = mark then some { event with seen := true, holdUntil := holdUntil }
    else if address = found then some { first with pair := some mark, holdUntil := holdUntil }
    else queue.events address
  cookieHash : next.cookieHash = Function.update queue.cookieHash event.cookie none
  nextEvent : next.nextEvent = queue.nextEvent

section

variable {event first : IkEventInternal} {found holdUntil : Nat} {next : MoveQueue}

/-- A pair in the new queue is the new one, or was there before. -/
theorem PairedUp.pair_cases (pairedUp : PairedUp queue mark found event first holdUntil next)
    (unpaired : event.pair = none) {address other : Nat} {stored : IkEventInternal}
    (isStored : next.events address = some stored) (pair : stored.pair = some other) :
    (address = found ∧ other = mark) ∨ queue.events address = some stored := by
  rw [pairedUp.events] at isStored
  split at isStored
  case isTrue =>
    cases isStored
    rw [unpaired] at pair
    contradiction
  case isFalse =>
    split at isStored
    case isTrue here =>
      cases isStored
      cases pair
      exact .inl ⟨here, rfl⟩
    case isFalse => exact .inr isStored

theorem Waiting.cookies_pairedUp (waiting : Waiting reads handed mark front queue) (after : front ≤ mark)
    (inside : mark < reads.length) (present : queue.events mark = some event) (target : event.MovedTo)
    (hashed : queue.cookieHash event.cookie = some found) (presentFirst : queue.events found = some first)
    (pairedUp : PairedUp queue mark found event first holdUntil next) :
    Cookies reads handed (mark + 1) front next := by
  obtain ⟨event', present', readEvent, _⟩ := waiting.atMark after inside
  obtain rfl : event = event' := Option.some.inj (present.symm.trans present')
  exact {
    -- the cookie is taken out of the table with the half that has found its pair
    hashed := by
      intro cookie address isFound
      rw [pairedUp.cookieHash, Function.update_apply] at isFound
      split at isFound
      case isTrue => contradiction
      case isFalse different =>
        obtain ⟨after, seen, stored, isStored, isSource, same, rest⟩ :=
          waiting.hashed cookie address isFound
        have other : address ≠ found := by
          rintro rfl
          obtain ⟨_, _, first', presentFirst', _, sameCookie, _⟩ := waiting.hashed event.cookie address hashed
          obtain rfl : stored = first' := Option.some.inj (isStored.symm.trans presentFirst')
          exact different (same.symm.trans sameCookie)
        refine ⟨after, by omega, stored, ?_, isSource, same, rest⟩
        rw [pairedUp.events, if_neg (by omega), if_neg other]
        exact isStored
    -- neither of the two halves waits any more, and they are no mates of those that do
    awaiting := by
      intro address stored after' seen isStored isSource isUnpaired
      rw [pairedUp.events] at isStored
      split at isStored
      case isTrue =>
        cases isStored
        exact absurd isSource (by simpa [KernelEvent.MovedFrom] using target.1)
      case isFalse =>
        split at isStored
        case isTrue =>
          cases isStored
          contradiction
        case isFalse different =>
          obtain ⟨stored', isStored', readStored, _⟩ := waiting.stored address after' (by omega)
          obtain rfl : stored = stored' := Option.some.inj (isStored.symm.trans isStored')
          refine (waiting.awaiting address stored after' (by omega) isStored isSource
            isUnpaired).imp_left ?_
          rintro ⟨isFound, none⟩
          have cookies : stored.cookie ≠ event.cookie := by
            intro same
            rw [same, hashed] at isFound
            exact different (Option.some.inj isFound).symm
          refine ⟨?_, fun other order before isMate => ?_⟩
          · rw [pairedUp.cookieHash]
            exact (Function.update_of_ne cookies ..).trans isFound
          · rcases Nat.lt_succ_iff_lt_or_eq.mp before with earlier | rfl
            · exact none other order earlier isMate
            · exact cookies (isMate.halves readStored readEvent).2.2 }

/-- The second half of a move is paired with the event that the table has for its cookie. -/
theorem Waiting.pairUp (waiting : Waiting reads handed mark front queue) (after : front ≤ mark)
    (inside : mark < reads.length) (present : queue.events mark = some event) (target : event.MovedTo)
    (hashed : queue.cookieHash event.cookie = some found) (presentFirst : queue.events found = some first)
    (pairedUp : PairedUp queue mark found event first holdUntil next) :
    Waiting reads handed (mark + 1) front next := by
  obtain ⟨event', present', readEvent, _, _, unpaired⟩ := waiting.atMark after inside
  obtain rfl : event = event' := Option.some.inj (present.symm.trans present')
  obtain ⟨afterFound, seenFound, first', presentFirst', source, sameCookie, _⟩ :=
    waiting.hashed event.cookie found hashed
  obtain rfl : first = first' := Option.some.inj (presentFirst.symm.trans presentFirst')
  obtain ⟨first', presentFirst'', readFirst, seenFirst, sentFirst⟩ :=
    waiting.stored found afterFound (seenFound.trans inside)
  obtain rfl : first = first' := Option.some.inj (presentFirst.symm.trans presentFirst'')
  have mates : Mates reads found mark :=
    ⟨_, _, readFirst, readEvent, source, target, sameCookie⟩
  -- nobody has been handed the second half yet
  have unsent : ¬ ∃ call ∈ handed, call.pair = some mark := by
    rintro ⟨call, member, pair⟩
    exact absurd (waiting.pairsSeen call member mark pair) (lt_irrefl _)
  exact {
    toLedger := waiting.toLedger
    toCookies := waiting.cookies_pairedUp after inside present target hashed presentFirst pairedUp
    counted := pairedUp.nextEvent.trans waiting.counted
    marked := inside
    inside := waiting.inside.trans (Nat.le_succ mark)
    stored := by
      intro address after bound
      obtain ⟨stored, isStored, readStored, seen, sent⟩ := waiting.stored address after bound
      by_cases isMark : address = mark
      · subst isMark
        obtain rfl : event = stored := Option.some.inj (present'.symm.trans isStored)
        exact ⟨_, (pairedUp.events _).trans (if_pos rfl), readEvent, by simp, sent⟩
      · by_cases isFound : address = found
        · subst isFound
          exact ⟨_, (pairedUp.events _).trans ((if_neg isMark).trans (if_pos rfl)), readFirst,
            seenFirst.trans (by omega), sentFirst⟩
        · exact ⟨stored, (pairedUp.events _).trans ((if_neg isMark).trans ((if_neg isFound).trans isStored)),
            readStored, seen.trans (by omega), sent⟩
    mated := by
      intro address stored other after isStored pair
      rcases pairedUp.pair_cases unpaired isStored pair with ⟨rfl, rfl⟩ | old
      · exact ⟨mates, seenFound, Nat.lt_succ_self _, unsent⟩
      · obtain ⟨mates, order, before, unsent⟩ := waiting.mated address stored other after old pair
        exact ⟨mates, order, by omega, unsent⟩
    -- the second half is the pair of the first alone
    apart := by
      intro address stored address' stored' other after₁ after₂ isStored isStored' pair pair'
      rcases pairedUp.pair_cases unpaired isStored pair with ⟨rfl, rfl⟩ | old
      · rcases pairedUp.pair_cases unpaired isStored' pair' with ⟨rfl, _⟩ | old'
        · rfl
        · exact absurd (waiting.mated address' stored' _ after₂ old' pair').2.2.1 (lt_irrefl _)
      · rcases pairedUp.pair_cases unpaired isStored' pair' with ⟨rfl, rfl⟩ | old'
        · exact absurd (waiting.mated address stored _ after₁ old pair).2.2.1 (lt_irrefl _)
        · exact waiting.apart address stored address' stored' other after₁ after₂ old old' pair pair'
    pairsSeen := fun call member other pair =>
      (waiting.pairsSeen call member other pair).trans (Nat.lt_succ_self mark) }

end

/-- What the first pass does not touch. -/
def SameFrame (queue after : MoveQueue) : Prop :=
  after.eventsToProcess = queue.eventsToProcess ∧ after.processEqRunning = queue.processEqRunning

/-- `ik_pair_moves` for the event behind the mark. -/
theorem ikPairMoves_waiting (waiting : Waiting reads handed mark front queue)
    (given : ∀ event ∈ reads, CookieGiven event) (after : front ≤ mark)
    (inside : mark < reads.length) :
    ∃ next, ikPairMoves queue mark = some next ∧ Waiting reads handed (mark + 1) front next ∧
      SameFrame queue next := by
  obtain ⟨event, present, readEvent, unseen, unsent, unpaired⟩ := waiting.atMark after inside
  have cookieGiven := given _ (List.mem_of_getElem? readEvent)
  simp only [ikPairMoves, present, Option.bind_some, unseen, unsent, Bool.false_eq_true, or_self,
    if_false]
  -- the first half of a move enters the table, the second looks its cookie up there
  by_cases source : event.MovedFrom
  · have hasCookie := cookieGiven (.inl source)
    have entered := waiting.enter after inside present source (event.holdUntil + moveHoldUntilTime)
    have isSource : event.report.has inMovedFrom = true := source
    refine ⟨_, ?_, entered, rfl, rfl⟩
    simp [hasCookie, pairByCookie, isSource, MoveQueue.setEvent]
  · have notSource : event.report.has inMovedFrom = false := Bool.eq_false_iff.mpr source
    cases found : queue.cookieHash event.cookie with
    | none =>
      refine ⟨_, ?_, waiting.markSeen after inside present source fun _ => found, rfl, rfl⟩
      simp [pairByCookie, notSource, found, present]
    | some partner =>
      by_cases target : event.report.has inMovedTo = true
      · have hasCookie := cookieGiven (.inr ⟨notSource, target⟩)
        obtain ⟨afterPartner, seenPartner, first, presentFirst, isSource, sameCookie, unpairedFirst⟩ :=
          waiting.hashed event.cookie partner found
        let holdUntil := max first.holdUntil event.holdUntil
        have paired : Waiting reads handed (mark + 1) front
            { (queue.setEvent partner { first with
                pair := some mark, holdUntil := holdUntil }).setEvent mark { event with
                  seen := true, holdUntil := holdUntil } with
              cookieHash := Function.update queue.cookieHash event.cookie none } :=
          waiting.pairUp after inside present ⟨notSource, target⟩ found presentFirst
            ⟨fun address => by rw [setEvent_events, setEvent_events], rfl, rfl⟩
        refine ⟨_, ?_, paired, rfl, rfl⟩
        simp [hasCookie, pairByCookie, notSource, target, found, ikPairEvents, present, presentFirst,
          sameCookie, unpairedFirst, unpaired, MoveQueue.setEvent, holdUntil]
      · refine ⟨_, ?_, waiting.markSeen after inside present source fun isTarget =>
          absurd isTarget.2 target, rfl, rfl⟩
        simp [pairByCookie, notSource, target, present]

/-- The first pass of a tick. -/
theorem pairMoves_waiting (given : ∀ event ∈ reads, CookieGiven event) (count position : Nat)
    (atEnd : position + count = reads.length) (after : front ≤ position)
    (waiting : Waiting reads handed mark front queue) (before : position ≤ mark) :
    ∃ next, (List.range' position count).foldlM ikPairMoves queue = some next ∧
      Waiting reads handed reads.length front next ∧ SameFrame queue next := by
  induction count generalizing position mark queue with
  | zero =>
    have marked := waiting.marked
    obtain rfl : mark = reads.length := by omega
    exact ⟨queue, rfl, waiting, rfl, rfl⟩
  | succ count inductionHypothesis =>
    simp only [List.range'_succ, List.foldlM_cons]
    rcases before.lt_or_eq with seen | rfl
    · have unchanged : ikPairMoves queue position = some queue := by
        obtain ⟨event, present, _, isSeen, _⟩ := waiting.stored position after (by omega)
        simp [ikPairMoves, present, isSeen.mpr seen]
      rw [unchanged]
      exact inductionHypothesis (position + 1) (by omega) (by omega) waiting seen
    · obtain ⟨next, paired, waitingNext, events, running⟩ :=
        ikPairMoves_waiting waiting given after (by omega)
      obtain ⟨last, rest, waitingLast, eventsLast, runningLast⟩ :=
        inductionHypothesis (position + 1) (by omega) (by omega) waitingNext le_rfl
      rw [paired]
      exact ⟨last, rest, waitingLast, eventsLast.trans events, runningLast.trans running⟩

/-! ## Handing out -/

theorem HandedBefore.of_more {call : Handed} {event other : Nat} (inTime : other < call.readSoFar)
    (before : HandedBefore (handed ++ [call]) event other) : HandedBefore handed event other := by
  obtain ⟨earlier, member, within, early⟩ := before
  cases List.mem_append.mp member with
  | inl old => exact ⟨earlier, old, within, early⟩
  | inr new =>
    rw [List.mem_singleton.mp new] at early
    omega

theorem Rival.handed_more {call : Handed} {readSoFar event rival : Nat}
    (inTime : event < call.readSoFar) (isRival : Rival reads handed readSoFar event rival) :
    Rival reads (handed ++ [call]) readSoFar event rival :=
  ⟨isRival.1, isRival.2.1, fun before => isRival.2.2.1 (before.of_more inTime), isRival.2.2.2⟩

theorem Handed.Sound.handed_more {call later : Handed} (latest : later.readSoFar = reads.length)
    (sound : call.Sound reads handed) : call.Sound reads (handed ++ [later]) where
  inTime := sound.inTime
  faithful := sound.faithful
  mates := sound.mates
  missed unpaired other mates order before := by
    have inTime := sound.inTime
    obtain ⟨rival, isRival⟩ := sound.missed unpaired other mates order before
    exact ⟨rival, isRival.handed_more (by omega)⟩

/-- An event in the queue that is not marked as sent has not been handed out. -/
theorem Waiting.unhanded (waiting : Waiting reads handed mark front queue) {address : Nat}
    (after : front ≤ address) (unsent : ¬ ∃ call ∈ handed, call.pair = some address) :
    address ∉ handed.flatMap Handed.members := by
  intro member
  obtain ⟨call, isCall, within⟩ := List.mem_flatMap.mp member
  cases List.mem_cons.mp within with
  | inl same =>
    have := waiting.popped call isCall
    omega
  | inr paired => exact unsent ⟨call, isCall, Option.mem_toList.mp paired⟩

/-- The next call is for the event at the front. -/
theorem Waiting.ledger_take (waiting : Waiting reads handed mark front queue) {call : Handed}
    (atFront : call.event = front) (sound : call.Sound reads (handed ++ [call]))
    (latest : call.readSoFar = reads.length)
    (unsent : ∀ member ∈ call.members, ¬ ∃ earlier ∈ handed, earlier.pair = some member) :
    Ledger reads (handed ++ [call]) (front + 1) where
  calls := by
    intro earlier member
    cases List.mem_append.mp member with
    | inl old => exact (waiting.calls earlier old).handed_more latest
    | inr new => rwa [List.mem_singleton.mp new]
  -- what is handed out was neither handed out before nor the pair of something that was
  once := by
    simp only [List.flatMap_append, List.flatMap_singleton]
    have after : ∀ member ∈ call.members, front ≤ member := by
      intro member within
      cases List.mem_cons.mp within with
      | inl same => omega
      | inr paired =>
        have order := (sound.mates member (Option.mem_toList.mp paired)).2.1
        omega
    refine List.Nodup.append waiting.once ?_ fun member earlier within =>
      waiting.unhanded (after member within) (unsent member within) earlier
    cases pair : call.pair with
    | none => simp [Handed.members, pair]
    | some other =>
      have order := (sound.mates other pair).2.1
      simp only [Handed.members, pair, Option.toList_some, List.nodup_cons, List.mem_singleton,
        List.not_mem_nil, not_false_eq_true, List.nodup_nil, and_true]
      omega
  popped := by
    intro earlier member
    cases List.mem_append.mp member with
    | inl old => exact (waiting.popped earlier old).trans (Nat.lt_succ_self front)
    | inr new => rw [List.mem_singleton.mp new, atFront]; exact Nat.lt_succ_self front
  covered := by
    intro position before
    rw [List.flatMap_append]
    rcases Nat.lt_succ_iff_lt_or_eq.mp before with earlier | rfl
    · exact List.mem_append_left _ (waiting.covered position earlier)
    · exact List.mem_append_right _ (by simp [Handed.members, atFront])
  ordered := by
    rw [List.map_append, List.pairwise_append]
    refine ⟨waiting.ordered, List.pairwise_singleton .., ?_⟩
    intro earlier member last isLast
    obtain ⟨earlierCall, isCall, rfl⟩ := List.mem_map.mp member
    rw [List.map_singleton, List.mem_singleton] at isLast
    rw [isLast, atFront]
    exact waiting.popped earlierCall isCall

/-- An event that was sent with the one it is the pair of leaves without a call. -/
theorem Waiting.popSent (waiting : Waiting reads handed reads.length front queue)
    (inside : front < reads.length) {event : IkEventInternal}
    (present : queue.events front = some event) (isSent : event.sent = true) :
    Waiting reads handed reads.length (front + 1) (queue.freeEvent front) := by
  obtain ⟨event', present', readEvent, _, sent⟩ := waiting.stored front le_rfl inside
  obtain rfl : event = event' := Option.some.inj (present.symm.trans present')
  obtain ⟨call, isCall, pair⟩ := sent.mp isSent
  have later : ∀ {address : Nat}, front + 1 ≤ address →
      (queue.freeEvent front).events address = queue.events address :=
    fun order => Function.update_of_ne (Nat.ne_of_gt order) ..
  exact {
    calls := waiting.calls
    once := waiting.once
    popped := fun call member => (waiting.popped call member).trans (Nat.lt_succ_self front)
    covered := by
      intro position before
      rcases Nat.lt_succ_iff_lt_or_eq.mp before with earlier | rfl
      · exact waiting.covered position earlier
      · exact List.mem_flatMap.mpr ⟨call, isCall, List.mem_cons_of_mem _ (by simp [pair])⟩
    ordered := waiting.ordered
    hashed := by
      intro cookie address found
      obtain ⟨after, seen, stored, isStored, source, rest⟩ := waiting.hashed cookie address found
      -- an event that has been sent as a pair is the target of a move, and the table holds sources
      have other : address ≠ front := by
        rintro rfl
        obtain rfl : event = stored := Option.some.inj (present.symm.trans isStored)
        obtain ⟨⟨_, _, _, readTarget, _, target, _⟩, _⟩ := (waiting.calls call isCall).mates _ pair
        obtain rfl := Option.some.inj (readEvent.symm.trans readTarget)
        exact absurd source (by simpa [KernelEvent.MovedFrom] using target.1)
      have order : front + 1 ≤ address := by omega
      exact ⟨order, seen, stored, (later order).trans isStored, source, rest⟩
    awaiting := fun address stored after seen isStored =>
      waiting.awaiting address stored (by omega) seen ((later after).symm.trans isStored)
    counted := waiting.counted
    marked := le_rfl
    inside := inside
    stored := by
      intro address after bound
      obtain ⟨stored, isStored, rest⟩ := waiting.stored address (by omega) bound
      exact ⟨stored, (later after).trans isStored, rest⟩
    mated := fun address stored other after isStored =>
      waiting.mated address stored other (by omega) ((later after).symm.trans isStored)
    apart := fun address stored address' stored' other after after' isStored isStored' =>
      waiting.apart address stored address' stored' other (by omega) (by omega)
        ((later after).symm.trans isStored) ((later after').symm.trans isStored')
    pairsSeen := waiting.pairsSeen }

/-- Nothing at or behind the front is handed out with an event that was sent. -/
theorem Waiting.unsent_front (waiting : Waiting reads handed mark front queue) (inside : front < reads.length)
    {event : IkEventInternal} (present : queue.events front = some event) (isUnsent : event.sent = false) :
    ¬ ∃ call ∈ handed, call.pair = some front := by
  obtain ⟨event', present', _, _, sent⟩ := waiting.stored front le_rfl inside
  obtain rfl : event = event' := Option.some.inj (present.symm.trans present')
  exact fun found => absurd (sent.mpr found) (by simp [isUnsent])

/-- The call for the event at the front. -/
theorem Waiting.sound_taken (waiting : Waiting reads handed reads.length front queue)
    (inside : front < reads.length) {event : IkEventInternal} (present : queue.events front = some event)
    {given : IkEvent} (faithful : given = deliveredAs event.toKernelEvent (event.pair.bind (reads[·]?))) :
    (Handed.mk front event.pair queue.nextEvent given).Sound reads
      (handed ++ [⟨front, event.pair, queue.nextEvent, given⟩]) := by
  obtain ⟨event', present', readEvent, _⟩ := waiting.stored front le_rfl inside
  obtain rfl : event = event' := Option.some.inj (present.symm.trans present')
  have latest := waiting.counted
  exact {
    inTime := ⟨by rw [latest]; exact inside, latest.le⟩
    faithful := ⟨_, readEvent, faithful⟩
    mates := by
      intro other pair
      obtain ⟨mates, order, before, _⟩ := waiting.mated front event other le_rfl present pair
      exact ⟨mates, order, by rw [latest]; exact before⟩
    missed := by
      intro unpaired other mates order before
      obtain ⟨source, _, readSource, _, isSource, _⟩ := id mates
      obtain rfl := Option.some.inj (readEvent.symm.trans readSource)
      rw [latest] at before ⊢
      cases waiting.awaiting front event le_rfl inside present isSource unpaired with
      | inl found => exact absurd mates (found.2 other order before)
      | inr rival =>
        obtain ⟨rival, isRival⟩ := rival
        exact ⟨rival, isRival.handed_more inside⟩ }

/-- A cookie that is still in the table refers to an event behind the front. -/
theorem Waiting.hash_taken (waiting : Waiting reads handed mark front queue) {event : IkEventInternal}
    (present : queue.events front = some event) {cookie address : Nat}
    (found : (if event.pair = none then Function.update queue.cookieHash event.cookie none
      else queue.cookieHash) cookie = some address) :
    queue.cookieHash cookie = some address ∧ address ≠ front := by
  by_cases unpaired : event.pair = none
  · rw [if_pos unpaired, Function.update_apply] at found
    split at found
    case isTrue => contradiction
    case isFalse different =>
      refine ⟨found, fun atFront => ?_⟩
      rw [atFront] at found
      obtain ⟨_, _, stored, isStored, _, same, _⟩ := waiting.hashed cookie front found
      obtain rfl := Option.some.inj (present.symm.trans isStored)
      exact different same.symm
  · rw [if_neg unpaired] at found
    refine ⟨found, fun atFront => ?_⟩
    rw [atFront] at found
    obtain ⟨_, _, stored, isStored, _, _, none⟩ := waiting.hashed cookie front found
    obtain rfl := Option.some.inj (present.symm.trans isStored)
    exact unpaired none

/-- What becomes of the queue when the event at the front is taken: the event that it is paired with is
marked, and an event without a pair leaves the cookie table. -/
structure FrontTaken (queue : MoveQueue) (front : Nat) (event : IkEventInternal) (next : MoveQueue) : Prop where
  nextEvent : next.nextEvent = queue.nextEvent
  events : ∀ address : Nat, front + 1 ≤ address → next.events address =
    (queue.events address).map fun other =>
      if event.pair = some address then { other with sent := true } else other
  cookieHash : next.cookieHash =
    if event.pair = none then Function.update queue.cookieHash event.cookie none else queue.cookieHash

theorem FrontTaken.before {event : IkEventInternal} {next : MoveQueue} (taken : FrontTaken queue front event next)
    {address : Nat} {stored : IkEventInternal} (after : front + 1 ≤ address)
    (isStored : next.events address = some stored) :
    ∃ before, queue.events address = some before ∧ stored.toKernelEvent = before.toKernelEvent ∧
      stored.pair = before.pair := by
  rw [taken.events address after] at isStored
  obtain ⟨before, isBefore, rfl⟩ := Option.map_eq_some_iff.mp isStored
  exact ⟨before, isBefore, by split <;> rfl, by split <;> rfl⟩

theorem Waiting.cookies_taken (waiting : Waiting reads handed reads.length front queue)
    (inside : front < reads.length) {event : IkEventInternal} (present : queue.events front = some event)
    (isUnsent : event.sent = false) {given : IkEvent} {next : MoveQueue}
    (taken : FrontTaken queue front event next) :
    Cookies reads (handed ++ [⟨front, event.pair, queue.nextEvent, given⟩]) reads.length (front + 1) next where
  hashed := by
    intro cookie address found
    rw [taken.cookieHash] at found
    obtain ⟨old, notFront⟩ := waiting.hash_taken present found
    obtain ⟨after, seen, stored, isStored, rest⟩ := waiting.hashed cookie address old
    have order : front + 1 ≤ address := Nat.lt_of_le_of_ne after notFront.symm
    refine ⟨order, seen, _, (taken.events address order).trans (congrArg _ isStored), ?_⟩
    split <;> exact rest
  awaiting := by
    intro address stored after seen isStored source isUnpaired
    obtain ⟨before, isBefore, kernel, pair⟩ := taken.before after isStored
    rw [kernel] at source ⊢
    obtain ⟨before', isBefore', readBefore, _⟩ := waiting.stored address (by omega) seen
    obtain rfl := Option.some.inj (isBefore.symm.trans isBefore')
    have inTime : address < queue.nextEvent := by rw [waiting.counted]; exact seen
    cases waiting.awaiting address before (by omega) seen isBefore source
        (pair.symm.trans isUnpaired) with
    | inr rival =>
      obtain ⟨rival, isRival⟩ := rival
      exact .inr ⟨rival, isRival.handed_more inTime⟩
    | inl found =>
      by_cases unpaired : event.pair = none
      · by_cases same : before.cookie = event.cookie
        · -- the table loses the event because of the one that is handed out
          obtain ⟨event', present', readEvent, _⟩ := waiting.stored front le_rfl inside
          obtain rfl : event = event' := Option.some.inj (present.symm.trans present')
          refine .inr ⟨front, by omega, inside, fun handedBefore => ?_, _, _, readBefore, readEvent,
            same.symm, .inr after⟩
          obtain ⟨call, member, within, _⟩ := handedBefore.of_more inTime
          exact waiting.unhanded le_rfl (waiting.unsent_front inside present isUnsent)
            (List.mem_flatMap.mpr ⟨call, member, within⟩)
        · refine .inl ⟨?_, found.2⟩
          rw [taken.cookieHash, if_pos unpaired]
          exact (Function.update_of_ne same ..).trans found.1
      · exact .inl ⟨by rw [taken.cookieHash, if_neg unpaired]; exact found.1, found.2⟩

/-- An event that was not sent is handed out, together with its pair. -/
theorem Waiting.take (waiting : Waiting reads handed reads.length front queue)
    (inside : front < reads.length) {event : IkEventInternal}
    (present : queue.events front = some event) (isUnsent : event.sent = false) {given : IkEvent}
    (faithful : given = deliveredAs event.toKernelEvent (event.pair.bind (reads[·]?)))
    {next : MoveQueue} (taken : FrontTaken queue front event next) :
    Waiting reads (handed ++ [⟨front, event.pair, queue.nextEvent, given⟩]) reads.length (front + 1)
      next := by
  have sound := waiting.sound_taken inside present faithful
  have ledger := waiting.ledger_take rfl sound waiting.counted (by
    intro member within
    cases List.mem_cons.mp within with
    | inl same =>
      rw [same]
      exact waiting.unsent_front inside present isUnsent
    | inr paired =>
      exact (waiting.mated front event member le_rfl present (Option.mem_toList.mp paired)).2.2.2)
  exact {
    toLedger := ledger
    toCookies := waiting.cookies_taken inside present isUnsent taken
    counted := taken.nextEvent.trans waiting.counted
    marked := le_rfl
    inside := inside
    stored := by
      intro address after bound
      obtain ⟨stored, isStored, readStored, seen, sent⟩ := waiting.stored address (by omega) bound
      refine ⟨_, (taken.events address after).trans (congrArg _ isStored), ?_, ?_, ?_⟩
      · split <;> exact readStored
      · split <;> exact seen
      · -- it counts as sent from now on if it is the pair of the event
        simp only [List.mem_append, List.mem_singleton, or_and_right, exists_or, exists_eq_left]
        split
        case isTrue pair => exact iff_of_true rfl (.inr pair)
        case isFalse other => rw [sent, or_iff_left other]
    mated := by
      intro address stored other after isStored pair
      obtain ⟨before, isBefore, _, samePair⟩ := taken.before after isStored
      obtain ⟨mates, order, seen, unsent⟩ :=
        waiting.mated address before other (by omega) isBefore (samePair.symm.trans pair)
      refine ⟨mates, order, seen, ?_⟩
      rintro ⟨call, member, sentPair⟩
      cases List.mem_append.mp member with
      | inl old => exact unsent ⟨call, old, sentPair⟩
      | inr new =>
        rw [List.mem_singleton.mp new] at sentPair
        have same := waiting.apart front event address before other le_rfl (by omega) present isBefore
          sentPair (samePair.symm.trans pair)
        omega
    apart := by
      intro address stored address' stored' other after after' isStored isStored' pair pair'
      obtain ⟨before, isBefore, _, samePair⟩ := taken.before after isStored
      obtain ⟨before', isBefore', _, samePair'⟩ := taken.before after' isStored'
      exact waiting.apart address before address' before' other (by omega) (by omega) isBefore
        isBefore' (samePair.symm.trans pair) (samePair'.symm.trans pair')
    pairsSeen := by
      intro call member other pair
      cases List.mem_append.mp member with
      | inl old => exact waiting.pairsSeen call old other pair
      | inr new =>
        rw [List.mem_singleton.mp new] at pair
        exact (waiting.mated front event other le_rfl present pair).2.2.1 }

/-- `takeEvent` for an event whose pair, if it has one, is in the queue. -/
theorem takeEvent_cases (queue : MoveQueue) {address : Nat} (event : IkEventInternal)
    (pairStored : ∀ other : Nat, event.pair = some other →
      other ≠ address ∧ ∃ second, queue.events other = some second) :
    ∃ next, takeEvent queue address event =
        some (next, deliveredAs event.toKernelEvent
          ((event.pair.bind queue.events).map IkEventInternal.toKernelEvent)) ∧
      next.nextEvent = queue.nextEvent ∧ SameFrame queue next ∧
      (∀ other : Nat, other ≠ address → next.events other = (queue.events other).map fun stored =>
        if event.pair = some other then { stored with sent := true } else stored) ∧
      next.cookieHash =
        if event.cookie ≠ 0 ∧ event.pair = none ∧ queue.cookieHash event.cookie ≠ none then
          Function.update queue.cookieHash event.cookie none
        else queue.cookieHash := by
  cases pair : event.pair with
  | some second =>
    obtain ⟨different, stored, present⟩ := pairStored second pair
    refine ⟨_, by
      simp only [takeEvent, pair, present, Option.map_some, Option.bind_some, deliveredAs,
          reduceCtorEq, false_and, and_false, if_false]; rfl, ?_, ?_, ?_, ?_⟩
    · rfl
    · exact ⟨rfl, rfl⟩
    · intro other notTaken
      by_cases same : second = other
      · subst same
        simp [MoveQueue.freeEvent, MoveQueue.setEvent, different, present]
      · simp [MoveQueue.freeEvent, MoveQueue.setEvent, notTaken, same, Ne.symm same]
    · simp [MoveQueue.freeEvent, MoveQueue.setEvent]
  | none =>
    -- an event alone takes the entry of its cookie out of the table
    by_cases cookie : event.cookie = 0
    · refine ⟨_, by
        simp only [takeEvent, pair, cookie, deliveredAs, Option.bind_none, Option.map_none, ne_eq,
            not_true, false_and, if_false]; rfl, ?_, ?_, ?_, ?_⟩
      · rfl
      · exact ⟨rfl, rfl⟩
      · intro other notTaken
        simp [MoveQueue.freeEvent, notTaken]
      · simp [cookie, MoveQueue.freeEvent]
    · by_cases found : queue.cookieHash event.cookie = none
      · refine ⟨_, by
          simp only [takeEvent, pair, cookie, found, deliveredAs, Option.bind_none, Option.map_none,
              ne_eq, not_true, not_false_eq_true, and_false, if_false, if_true]; rfl, ?_, ?_, ?_, ?_⟩
        · rfl
        · exact ⟨rfl, rfl⟩
        · intro other notTaken
          simp [MoveQueue.freeEvent, notTaken]
        · simp [found, MoveQueue.freeEvent]
      · refine ⟨_, by
          simp only [takeEvent, pair, cookie, found, deliveredAs, Option.bind_none, Option.map_none,
              ne_eq, not_false_eq_true, and_self, if_true]; rfl, ?_, ?_, ?_, ?_⟩
        · rfl
        · exact ⟨rfl, rfl⟩
        · intro other notTaken
          simp [MoveQueue.freeEvent, notTaken]
        · simp [cookie, found, MoveQueue.freeEvent]

/-- What becomes of the front in `ik_process_events`, if it was not sent. -/
theorem takeEvent_waiting (waiting : Waiting reads handed reads.length front queue)
    (cookies : ∀ event ∈ reads, CookieGiven event) (inside : front < reads.length)
    {event : IkEventInternal} (present : queue.events front = some event)
    (isUnsent : event.sent = false) :
    ∃ next given, takeEvent queue front event = some (next, given) ∧
      Waiting reads (handed ++ [⟨front, event.pair, queue.nextEvent, given⟩]) reads.length
        (front + 1) next ∧ SameFrame queue next := by
  have pairStored : ∀ other : Nat, event.pair = some other → other ≠ front ∧
      ∃ second, queue.events other = some second ∧
        reads[other]? = some second.toKernelEvent := by
    intro other pair
    obtain ⟨_, order, before, _⟩ := waiting.mated front event other le_rfl present pair
    obtain ⟨second, presentSecond, readSecond, _⟩ := waiting.stored other (by omega) before
    exact ⟨by omega, second, presentSecond, readSecond⟩
  -- the pair of the front is still there, for it has not been handed out
  obtain ⟨next, taken, nextEvent, frame, events, cookieHash⟩ := takeEvent_cases queue event
    fun other pair => ⟨(pairStored other pair).1, (pairStored other pair).2.imp fun _ => And.left⟩
  refine ⟨next, _, taken, waiting.take inside present isUnsent ?_
    ⟨nextEvent, fun address after => events address (by omega), ?_⟩, frame⟩
  · cases pair : event.pair with
    | none => rfl
    | some other =>
      obtain ⟨_, second, presentSecond, readSecond⟩ := pairStored other pair
      simp only [Option.bind_some, presentSecond, readSecond, Option.map_some]
  · rw [cookieHash]
    by_cases unpaired : event.pair = none
    · -- an entry for the cookie of the event can only be missing
      by_cases found : queue.cookieHash event.cookie = none
      · rw [if_neg fun entry => entry.2.2 found, if_pos unpaired]
        exact (Function.update_eq_self_iff.mpr found.symm).symm
      · obtain ⟨address, found'⟩ := Option.ne_none_iff_exists'.mp found
        obtain ⟨after, seen, stored, isStored, source, same, _⟩ :=
          waiting.hashed event.cookie address found'
        obtain ⟨stored', isStored', readStored, _⟩ := waiting.stored address after seen
        obtain rfl := Option.some.inj (isStored.symm.trans isStored')
        have hasCookie := cookies _ (List.mem_of_getElem? readStored) (.inl source)
        rw [same] at hasCookie
        simp [unpaired, found, hasCookie]
    · simp [unpaired]

/-- The second pass of a tick. -/
theorem takeLabelled_waiting (cookies : ∀ event ∈ reads, CookieGiven event) (count : Nat)
    (clock : Nat → Nat) (atEnd : front + count = reads.length)
    (waiting : Waiting reads handed reads.length front queue) :
    ∃ next more front', takeLabelled clock queue (List.range' front count) = some (next, more) ∧
      Waiting reads (handed ++ more) reads.length front' next ∧
      next.eventsToProcess = List.range' front' (reads.length - front') ∧
      next.processEqRunning = queue.processEqRunning ∧ front ≤ front' := by
  induction count generalizing front clock queue handed with
  | zero =>
    obtain rfl : front = reads.length := by omega
    exact ⟨_, [], reads.length, rfl, by simpa using { waiting with }, by simp, rfl, le_rfl⟩
  | succ count inductionHypothesis =>
    obtain ⟨event, present, _⟩ := waiting.stored front le_rfl (by omega)
    simp only [List.range'_succ, takeLabelled, present]
    -- one that was sent with its pair is dropped; the first that has to wait ends the pass
    by_cases isSent : event.sent = true
    · rw [if_pos isSent]
      obtain ⟨last, more, front', rest, waitingLast, eventsLast, runningLast, order⟩ :=
        inductionHypothesis clock (by omega) (waiting.popSent (by omega) present isSent)
      exact ⟨last, more, front', rest, waitingLast, eventsLast, runningLast, by omega⟩
    · rw [if_neg isSent]
      by_cases ready : ikEventReady event (clock 0) = true
      · obtain ⟨next, given, taken, waitingNext, _, running⟩ :=
          takeEvent_waiting waiting cookies (by omega) present (Bool.eq_false_iff.mpr isSent)
        obtain ⟨last, more, front', rest, waitingLast, eventsLast, runningLast, order⟩ :=
          inductionHypothesis (fun call => clock (call + 1)) (by omega) waitingNext
        rw [if_neg (not_not.mpr ready), taken, Option.bind_some, rest]
        refine ⟨last, _, front', rfl, ?_, eventsLast, runningLast.trans running, by omega⟩
        rwa [List.append_assoc] at waitingLast
      · rw [if_pos ready]
        refine ⟨_, [], front, rfl, by simpa using { waiting with }, ?_, rfl, le_rfl⟩
        rw [show reads.length - front = count + 1 by omega, List.range'_succ]

/-! ## Runs -/

/-- The queue is what `Waiting` says, and the timer is installed while the flag says so. -/
structure MoveHistory.Regular (history : MoveHistory) : Prop where
  cookies : ∀ event ∈ history.reads, CookieGiven event
  waiting : ∃ mark front, Waiting history.reads history.handed mark front history.queue ∧
    history.queue.eventsToProcess = List.range' front (history.reads.length - front)
  timer : history.timers = if history.queue.processEqRunning then 1 else 0
  busy : history.queue.eventsToProcess ≠ [] → history.queue.processEqRunning = true

theorem MoveHistory.new_regular : MoveHistory.new.Regular where
  cookies _ member := absurd member List.not_mem_nil
  waiting := ⟨0, 0, .new, rfl⟩
  timer := rfl
  busy nonempty := absurd rfl nonempty

/-- Reading a batch of events. -/
theorem queueEvents_waiting (buffer : List (KernelEvent × Nat))
    (waiting : Waiting reads handed mark front queue)
    (pending : queue.eventsToProcess = List.range' front (reads.length - front)) :
    Waiting (reads ++ buffer.map Prod.fst) handed mark front (buffer.foldl queueEvent queue) ∧
      (buffer.foldl queueEvent queue).eventsToProcess =
        List.range' front ((reads ++ buffer.map Prod.fst).length - front) ∧
      (buffer.foldl queueEvent queue).processEqRunning = queue.processEqRunning := by
  induction buffer generalizing reads queue with
  | nil => simpa using ⟨waiting, pending⟩
  | cons event buffer inductionHypothesis =>
    have inside := waiting.inside.trans waiting.marked
    have grown : (queueEvent queue event).eventsToProcess =
        List.range' front ((reads ++ [event.1]).length - front) := by
      rw [List.length_append, List.length_singleton,
        show reads.length + 1 - front = (reads.length - front) + 1 by omega, List.range'_1_concat,
        show front + (reads.length - front) = reads.length by omega, ← pending, ← waiting.counted]
      rfl
    have rest := inductionHypothesis (waiting.read event.1 event.2) grown
    simp only [List.map_cons, List.append_assoc, List.singleton_append, List.foldl_cons] at rest ⊢
    exact rest

theorem MoveHistory.Regular.step {history : MoveHistory} (regular : history.Regular)
    {step : MoveStep} (cookies : ∀ event ∈ step.reads, CookieGiven event) :
    ∃ next, history.step step = some next ∧ next.Regular ∧
      next.reads = history.reads ++ step.reads := by
  obtain ⟨mark, front, waiting, pending⟩ := regular.waiting
  have inside := waiting.inside.trans waiting.marked
  cases step with
  | read buffer =>
    obtain ⟨grown, pendingGrown, running⟩ := queueEvents_waiting buffer waiting pending
    refine ⟨_, rfl, ⟨?_, ⟨mark, front, { grown with }, pendingGrown⟩, ?_, ?_⟩, rfl⟩
    · intro event member
      cases List.mem_append.mp member with
      | inl old => exact regular.cookies event old
      | inr new => exact cookies event new
    · have timer := regular.timer
      cases buffer with
      | nil => simpa [readEvents] using timer
      | cons event buffer =>
        cases isRunning : history.queue.processEqRunning <;>
          simp [readEvents, isRunning, timer]
    · intro nonempty
      cases buffer with
      | nil => simpa [readEvents] using regular.busy nonempty
      | cons event buffer => simp [readEvents]
  | tick clock =>
    -- first the moves are paired over the whole queue, then the front is taken
    obtain ⟨paired, pass, waitingPaired, pendingPaired, runningPaired⟩ :=
      pairMoves_waiting regular.cookies _ front (Nat.add_sub_cancel' inside) le_rfl waiting
        waiting.inside
    obtain ⟨next, handed, front', taken, waitingNext, pendingNext, runningNext, order⟩ :=
      takeLabelled_waiting regular.cookies _ clock (Nat.add_sub_cancel' inside) waitingPaired
    have running : next.processEqRunning = history.queue.processEqRunning :=
      runningNext.trans runningPaired
    have ticked : history.step (.tick clock) = some { history with
        queue := { next with
          processEqRunning := if next.eventsToProcess = [] then false else next.processEqRunning }
        timers := if next.eventsToProcess = [] then history.timers - 1 else history.timers
        handed := history.handed ++ handed } := by
      simp only [MoveHistory.step, MoveHistory.tick, pending, pass, Option.bind_some, pendingPaired,
        taken, Option.map_some]
    refine ⟨_, ticked, ⟨regular.cookies, ⟨_, front', { waitingNext with }, pendingNext⟩, ?_, ?_⟩,
      (List.append_nil _).symm⟩
    · have timer := regular.timer
      by_cases drained : next.eventsToProcess = []
      · cases isRunning : history.queue.processEqRunning <;> simp [drained, timer, isRunning]
      · simpa [drained, running] using timer
    · intro nonempty
      have left : next.eventsToProcess ≠ [] := nonempty
      -- the timer goes on for what is left, which was there before
      have notDrained : history.queue.eventsToProcess ≠ [] := by
        rw [pendingNext, ne_eq, List.range'_eq_nil_iff] at left
        rw [pending, ne_eq, List.range'_eq_nil_iff]
        omega
      simpa [left, running] using regular.busy notDrained

/-- Everything that holds after a run holds of it by `Regular`; no assertion fails on the way. -/
theorem MoveHistory.run_regular {history : MoveHistory} (regular : history.Regular)
    {steps : List MoveStep} (cookies : ∀ step ∈ steps, ∀ event ∈ step.reads, CookieGiven event) :
    ∃ last, steps.foldlM MoveHistory.step history = some last ∧ last.Regular ∧
      last.reads = history.reads ++ steps.flatMap MoveStep.reads := by
  induction steps generalizing history with
  | nil => exact ⟨history, rfl, regular, (List.append_nil _).symm⟩
  | cons step steps inductionHypothesis =>
    obtain ⟨next, stepped, regularNext, readsNext⟩ := regular.step (cookies step List.mem_cons_self)
    obtain ⟨last, rest, regularLast, readsLast⟩ :=
      inductionHypothesis regularNext fun step member => cookies step (List.mem_cons_of_mem _ member)
    refine ⟨last, ?_, regularLast, ?_⟩
    · rw [List.foldlM_cons, stepped]
      exact rest
    · rw [readsLast, readsNext, List.append_assoc, List.flatMap_cons]

/-! ## The account -/

/-- The event at an address is in the queue's memory and was not sent with another. -/
def MoveQueue.unsent (queue : MoveQueue) (address : Pointer) : Bool :=
  (queue.events address).any fun event => !event.sent

/-- Only these two events carry the cookie, of all events that could have met: any third one was
handed out before the first was read, or read after it was handed out. -/
def MoveHistory.NoThird (history : MoveHistory) (call : Handed) (other : Nat) : Prop :=
  ∀ third < call.readSoFar, third ≠ call.event → third ≠ other →
    history.reads[third]?.map KernelEvent.cookie = history.reads[call.event]?.map KernelEvent.cookie →
    HandedBefore history.handed third call.event

structure MoveHistory.Accounts (history : MoveHistory) : Prop where
  onceEach : (history.handed.flatMap Handed.members ++
    history.queue.eventsToProcess.filter history.queue.unsent).Perm (List.range history.reads.length)
  faithful : ∀ call ∈ history.handed, ∃ event, history.reads[call.event]? = some event ∧
    call.given = deliveredAs event (call.pair.bind (history.reads[·]?))
  inOrder : (history.handed.map Handed.event ++ history.queue.eventsToProcess).Pairwise (· < ·)
  pairedHalves : ∀ call ∈ history.handed, ∀ other, call.pair = some other →
    Mates history.reads call.event other
  pairedExactly : ∀ call ∈ history.handed, ∀ other source target,
    history.reads[call.event]? = some source → history.reads[other]? = some target →
    source.MovedFrom → target.MovedTo → history.NoThird call other →
    (call.pair = some other ↔
      source.cookie = target.cookie ∧ call.event < other ∧ other < call.readSoFar)
  noLoneHalf : ∀ call ∈ history.handed, call.pair = none →
    call.given.has inMovedFrom = false ∧ call.given.has inMovedTo = false ∧
    ∀ event, history.reads[call.event]? = some event →
      (event.MovedFrom → call.given.mask = inDelete ||| (event.report.mask &&& inIsdir)) ∧
      (event.MovedTo → call.given.mask = inCreate ||| (event.report.mask &&& inIsdir))
  tableFresh : ∀ cookie address, history.queue.cookieHash cookie = some address →
    address ∈ history.queue.eventsToProcess
  timerRuns : history.queue.eventsToProcess ≠ [] → history.timers = 1

theorem unpairedReport_movedFrom {report : IkReport} (source : report.has inMovedFrom = true) :
    (unpairedReport report).mask = inDelete ||| (report.mask &&& inIsdir) := by
  have notTarget : ({ report with mask := inDelete ||| (report.mask &&& inIsdir) } : IkReport).has
      inMovedTo = false := by
    simp only [IkReport.has, Nat.and_or_distrib_right, Nat.and_assoc]
    simp [inDelete, inIsdir, inMovedTo]
  simp [unpairedReport, source, notTarget]

theorem unpairedReport_movedTo {report : IkReport} (notSource : report.has inMovedFrom = false)
    (target : report.has inMovedTo = true) :
    (unpairedReport report).mask = inCreate ||| (report.mask &&& inIsdir) := by
  simp [unpairedReport, notSource, target]

/-- The replacement for half of a move is no move. -/
theorem unpairedReport_noMove (report : IkReport) :
    (unpairedReport report).has inMovedFrom = false ∧
      (unpairedReport report).has inMovedTo = false := by
  by_cases source : report.has inMovedFrom = true
  · simp only [IkReport.has, unpairedReport_movedFrom source, Nat.and_or_distrib_right, Nat.and_assoc]
    simp [inDelete, inIsdir, inMovedTo, inMovedFrom]
  · have notSource := Bool.eq_false_iff.mpr source
    by_cases target : report.has inMovedTo = true
    · simp only [IkReport.has, unpairedReport_movedTo notSource target, Nat.and_or_distrib_right,
        Nat.and_assoc]
      simp [inCreate, inIsdir, inMovedTo, inMovedFrom]
    · simp [unpairedReport, notSource, Bool.eq_false_iff.mpr target]

theorem Handed.Sound.members_inTime {call : Handed} (sound : call.Sound reads handed) {member : Nat}
    (within : member ∈ call.members) : call.event ≤ member ∧ member < call.readSoFar := by
  cases List.mem_cons.mp within with
  | inl same => exact ⟨same.ge, same ▸ sound.inTime.1⟩
  | inr paired =>
    obtain ⟨_, order, inTime⟩ := sound.mates member (Option.mem_toList.mp paired)
    exact ⟨order.le, inTime⟩

theorem Waiting.onceEach (waiting : Waiting reads handed mark front queue)
    (pending : queue.eventsToProcess = List.range' front (reads.length - front)) :
    (handed.flatMap Handed.members ++ queue.eventsToProcess.filter queue.unsent).Perm
      (List.range reads.length) := by
  have inside := waiting.inside.trans waiting.marked
  have unsent : ∀ address, front ≤ address → address < reads.length →
      (queue.unsent address = true ↔ ¬ ∃ call ∈ handed, call.pair = some address) := by
    intro address after bound
    obtain ⟨event, present, _, _, sent⟩ := waiting.stored address after bound
    rw [← sent]
    simp [MoveQueue.unsent, present]
  refine (List.perm_ext_iff_of_nodup ?_ List.nodup_range).mpr fun position => ?_
  · refine List.Nodup.append waiting.once ?_ fun position isHanded isPending => ?_
    · rw [pending]
      exact List.Nodup.filter _ List.nodup_range'
    · rw [List.mem_filter, pending, List.mem_range'_1] at isPending
      obtain ⟨⟨after, bound⟩, isUnsent⟩ := isPending
      exact waiting.unhanded after ((unsent position after (by omega)).mp isUnsent) isHanded
  · rw [List.mem_append, List.mem_filter, pending, List.mem_range'_1, List.mem_range]
    constructor
    · rintro (isHanded | ⟨⟨_, bound⟩, _⟩)
      · obtain ⟨call, member, within⟩ := List.mem_flatMap.mp isHanded
        have inTime := ((waiting.calls call member).members_inTime within).2
        have readSoFar := (waiting.calls call member).inTime.2
        omega
      · omega
    · intro bound
      -- behind the front it has been handed out, before it either with its pair or not yet
      by_cases before : position < front
      · exact .inl (waiting.covered position before)
      · by_cases sent : ∃ call ∈ handed, call.pair = some position
        · obtain ⟨call, member, pair⟩ := sent
          exact .inl (List.mem_flatMap.mpr
            ⟨call, member, List.mem_cons_of_mem _ (Option.mem_toList.mpr pair)⟩)
        · exact .inr ⟨⟨by omega, by omega⟩, (unsent position (by omega) bound).mpr sent⟩

/-- A half that has been read in time, with no third event in between, is the pair. -/
theorem Waiting.pair_of_noThird {history : MoveHistory}
    (waiting : Waiting history.reads history.handed mark front history.queue) {call : Handed}
    (member : call ∈ history.handed) {other : Nat} (mates : Mates history.reads call.event other)
    (order : call.event < other) (inTime : other < call.readSoFar)
    (noThird : history.NoThird call other) : call.pair = some other := by
  have sound := waiting.calls call member
  obtain ⟨source, target, readSource, readTarget, isSource, isTarget, sameCookie⟩ := id mates
  cases pair : call.pair with
  | none =>
    obtain ⟨rival, different, bound, met, of, third, readOf, readThird, cookie, kind⟩ :=
      sound.missed pair other mates order inTime
    have notOther : rival ≠ other := by
      rintro rfl
      obtain rfl := Option.some.inj (readTarget.symm.trans readThird)
      cases kind with
      | inl isSource => exact absurd isSource (by simpa [KernelEvent.MovedFrom] using isTarget.1)
      | inr before => omega
    exact absurd (noThird rival bound different notOther (by simp [readThird, readOf, cookie])) met
  | some actual =>
    by_cases same : actual = other
    · rw [same]
    · obtain ⟨actualMates, actualOrder, actualInTime⟩ := sound.mates actual pair
      obtain ⟨source', target', readSource', readTarget', _, _, cookie⟩ := actualMates
      obtain ⟨earlier, isCall, within, early⟩ := noThird actual actualInTime
        (Nat.ne_of_gt actualOrder) same (by simp [readSource', readTarget', cookie])
      have := ((waiting.calls earlier isCall).members_inTime within).2
      omega

theorem Handed.Sound.noLoneHalf {call : Handed} (sound : call.Sound reads handed)
    (cookies : ∀ event ∈ reads, CookieGiven event) (unpaired : call.pair = none) :
    call.given.has inMovedFrom = false ∧ call.given.has inMovedTo = false ∧
    ∀ event, reads[call.event]? = some event →
      (event.MovedFrom → call.given.mask = inDelete ||| (event.report.mask &&& inIsdir)) ∧
      (event.MovedTo → call.given.mask = inCreate ||| (event.report.mask &&& inIsdir)) := by
  obtain ⟨event, readEvent, given⟩ := sound.faithful
  have cookieGiven := cookies event (List.mem_of_getElem? readEvent)
  rw [unpaired, Option.bind_none] at given
  have only : ∀ event', reads[call.event]? = some event' → event' = event := fun event' readEvent' =>
    Option.some.inj (readEvent'.symm.trans readEvent)
  by_cases hasCookie : event.cookie = 0
  · have noMove : ¬ (event.MovedFrom ∨ event.MovedTo) := fun move => cookieGiven move hasCookie
    have report : call.given.toIkReport = event.report := by
      rw [given, deliveredAs, if_neg (not_not.mpr hasCookie)]
    have notSource : event.report.has inMovedFrom = false :=
      Bool.eq_false_iff.mpr fun source => noMove (.inl source)
    refine ⟨report ▸ notSource, report ▸ ?_, fun event' readEvent' => ?_⟩
    · exact Bool.eq_false_iff.mpr fun target => noMove (.inr ⟨notSource, target⟩)
    · obtain rfl := only event' readEvent'
      exact ⟨fun source => absurd (.inl source) noMove, fun target => absurd (.inr target) noMove⟩
  · have report : call.given.toIkReport = unpairedReport event.report := by
      rw [given, deliveredAs, if_pos hasCookie]
    have noMove := unpairedReport_noMove event.report
    refine ⟨report ▸ noMove.1, report ▸ noMove.2, fun event' readEvent' => ?_⟩
    obtain rfl := only event' readEvent'
    rw [report]
    exact ⟨unpairedReport_movedFrom, fun target => unpairedReport_movedTo target.1 target.2⟩

theorem MoveHistory.Regular.accounts {history : MoveHistory} (regular : history.Regular) :
    history.Accounts := by
  obtain ⟨mark, front, waiting, pending⟩ := regular.waiting
  exact {
    onceEach := waiting.onceEach pending
    faithful := fun call member => (waiting.calls call member).faithful
    inOrder := by
      rw [List.pairwise_append, pending]
      refine ⟨waiting.ordered, List.pairwise_lt_range', ?_⟩
      intro event isCall later isPending
      obtain ⟨call, member, rfl⟩ := List.mem_map.mp isCall
      have before := waiting.popped call member
      have after := (List.mem_range'_1.mp isPending).1
      omega
    pairedHalves := fun call member other pair => ((waiting.calls call member).mates other pair).1
    pairedExactly := by
      intro call member other source target readSource readTarget isSource isTarget noThird
      constructor
      · intro pair
        obtain ⟨mates, order, inTime⟩ := (waiting.calls call member).mates other pair
        exact ⟨(mates.halves readSource readTarget).2.2, order, inTime⟩
      · rintro ⟨sameCookie, order, inTime⟩
        exact waiting.pair_of_noThird member
          ⟨source, target, readSource, readTarget, isSource, isTarget, sameCookie⟩ order inTime noThird
    noLoneHalf := fun call member => (waiting.calls call member).noLoneHalf regular.cookies
    tableFresh := by
      intro cookie address found
      obtain ⟨after, seen, _⟩ := waiting.hashed cookie address found
      have marked := waiting.marked
      rw [pending, List.mem_range'_1]
      omega
    timerRuns := by
      intro nonempty
      rw [regular.timer, if_pos (regular.busy nonempty)] }

/-- Whatever is read, whenever the callback runs and whatever the clock says, no assertion fails
and every event is accounted for. -/
theorem moves_accounted (steps : List MoveStep)
    (cookies : ∀ step ∈ steps, ∀ event ∈ step.reads, CookieGiven event) :
    ∃ history, MoveHistory.after steps = some history ∧
      history.reads = steps.flatMap MoveStep.reads ∧ history.Accounts := by
  obtain ⟨history, ran, regular, reads⟩ := MoveHistory.run_regular MoveHistory.new_regular cookies
  exact ⟨history, ran, reads, regular.accounts⟩

/-- A batch with one half of a move, a tick while the clock is behind, and the other half. -/
theorem moves_accounted_split :
    ∃ history, MoveHistory.after
        [.read [(⟨⟨1, inMovedFrom, [97]⟩, 7⟩, 5)], .tick fun _ => 3,
          .read [(⟨⟨1, inMovedTo, [98]⟩, 7⟩, 4)], .tick fun _ => 4] = some history ∧
      history.reads = [⟨⟨1, inMovedFrom, [97]⟩, 7⟩, ⟨⟨1, inMovedTo, [98]⟩, 7⟩] ∧
      history.Accounts :=
  moves_accounted _ (by decide)

end Gamin.Inotify
