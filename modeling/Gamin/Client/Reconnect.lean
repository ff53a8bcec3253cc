import Gamin.Client.Monitors
import Gamin.Client.Sessions
import Mathlib.Algebra.GroupWithZero.Nat

/-! # Registering the requests again

What `gamin_try_reconnect` writes to the new server, compared with the requests the
application still wants.  The loop sends every entry of the table that has a name,
cancelled or not, and it does not look at the result of a write.
-/

namespace Gamin.Client

open Gamin Gamin.Library

/-! ## What is written and what is wanted -/

/-- The bytes the loop of `gamin_try_reconnect` writes; the results of the writes are ignored. -/
def resentBytes : List GAMReqData → (Nat → WriteAnswer) → Bytes
  | [], _ => []
  | req :: requests, written =>
    (match gaminResendRequest req with
    | none => []
    | some packet => (gaminWriteByte packet.encode (written 0)).2) ++
      resentBytes requests fun index => written (index + 1)

/-- A packet that registers a request again: the server decodes its number, path and kind. -/
structure Resent (req : GAMReqData) (packet : GAMPacket) : Prop where
  wellFormed : packet.WellFormed fun _ => false
  seq : (packet.seq : Int) = req.reqno
  path : req.filename = some packet.path
  kind : packet.type &&& 0xF = req.type

/-- The requests the application has not cancelled. -/
def wantedRequests (reqTab : List GAMReqData) : List GAMReqData :=
  reqTab.filter fun req => req.state ≠ .reqCancelled

/-- The wanted requests are written, each once, and nothing else. -/
def ResentExactly (reqTab : List GAMReqData) (bytes : Bytes) : Prop :=
  ∃ requests packets, requests.Perm (wantedRequests reqTab) ∧ List.Forall₂ Resent requests packets ∧
    bytes = packets.flatMap GAMPacket.encode

/-- The request fits a packet: it has a name, and its number and type are in their range.
The name and the type of a request of the `FAMMonitor` family are, if `strdup` succeeds. -/
structure Resendable (req : GAMReqData) : Prop where
  named : ∃ path, req.filename = some path ∧ 0 < path.length ∧ path.length ≤ maxPathLen
  nonnegative : 0 ≤ req.reqno
  short : req.reqno < 65536
  type : req.type < 16

/-- The whole packet of every request is written. -/
def WrittenWhole (reqTab : List GAMReqData) (written : Nat → WriteAnswer) : Prop :=
  ∀ index req packet, reqTab[index]? = some req → gaminResendRequest req = some packet →
    (gaminWriteByte packet.encode (written index)).1 = 0

theorem noexists_keeps_type : ∀ type < 16,
    (type ||| gamOptNoexists) &&& 0xF = type ∧ type ||| gamOptNoexists < 65536 := by
  decide

theorem gaminResendRequest_resent {req : GAMReqData} (resendable : Resendable req) :
    ∃ packet, gaminResendRequest req = some packet ∧ Resent req packet := by
  obtain ⟨path, named, nonempty, short⟩ := resendable.named
  obtain ⟨kind, typeFits⟩ := noexists_keeps_type req.type resendable.type
  have positive := resendable.nonnegative
  have small := resendable.short
  refine ⟨_, by rw [gaminResendRequest, named]; rfl, ?_⟩
  exact {
    wellFormed := {
      version := rfl
      seq := by simp only; omega
      type := typeFits
      path := .inr nonempty
      short := short }
    seq := by simp only; omega
    path := named
    kind := kind }

/-- Writes that go through leave a packet for each request that has a name, in the order of the table. -/
theorem resentBytes_packets {reqTab : List GAMReqData} {written : Nat → WriteAnswer}
    (whole : WrittenWhole reqTab written) :
    resentBytes reqTab written = (reqTab.filterMap gaminResendRequest).flatMap GAMPacket.encode := by
  induction reqTab generalizing written with
  | nil => rfl
  | cons req reqTab inductionHypothesis =>
    have rest := inductionHypothesis fun index other packet entry =>
      whole (index + 1) other packet (by simpa using entry)
    cases sent : gaminResendRequest req with
    | none => simp only [resentBytes, sent, rest, List.nil_append, List.filterMap_cons_none]
    | some packet =>
      have complete := gaminWriteByte_whole (whole 0 req packet rfl sent)
      rw [List.filterMap_cons_some sent, List.flatMap_cons, ← rest, ← complete]
      simp only [resentBytes, sent]

/-- When every request can be resent, the packets are those wanted of the whole table. -/
theorem resent_filterMap {reqTab : List GAMReqData} (resendable : ∀ req ∈ reqTab, Resendable req) :
    List.Forall₂ Resent reqTab (reqTab.filterMap gaminResendRequest) := by
  induction reqTab with
  | nil => exact .nil
  | cons req reqTab inductionHypothesis =>
    obtain ⟨packet, sent, resent⟩ := gaminResendRequest_resent (resendable req List.mem_cons_self)
    rw [List.filterMap_cons_some sent]
    exact .cons resent (inductionHypothesis fun other member => resendable other (List.mem_cons_of_mem _ member))

/-- The bytes of a table if every request were written whole. -/
def wantedLength (reqTab : List GAMReqData) : Nat :=
  (reqTab.map fun req => gamPacketHeaderLen + (req.filename.getD []).length).sum

theorem resent_length {requests : List GAMReqData} {packets : List GAMPacket}
    (resent : List.Forall₂ Resent requests packets) :
    (packets.flatMap GAMPacket.encode).length = wantedLength requests := by
  induction resent with
  | nil => rfl
  | cons first rest inductionHypothesis =>
    simp only [List.flatMap_cons, List.length_append, GAMPacket.encode_length, inductionHypothesis,
      wantedLength, List.map_cons, List.sum_cons, first.path, Option.getD_some]

theorem resentBytes_length (reqTab : List GAMReqData) (written : Nat → WriteAnswer) :
    (resentBytes reqTab written).length ≤ wantedLength reqTab ∧
      ((resentBytes reqTab written).length = wantedLength reqTab → WrittenWhole reqTab written) := by
  induction reqTab generalizing written with
  | nil => exact ⟨Nat.le_refl _, fun _ index req packet entry => by simp at entry⟩
  | cons req reqTab inductionHypothesis =>
    obtain ⟨atMost, wholeRest⟩ := inductionHypothesis fun index => written (index + 1)
    simp only [wantedLength, List.map_cons, List.sum_cons] at atMost wholeRest ⊢
    cases name : req.filename with
    | none =>
      -- nothing is written for it, so the bytes are too few
      have silent : gaminResendRequest req = none := by rw [gaminResendRequest, name]; rfl
      simp only [resentBytes, silent, List.nil_append, gamPacketHeaderLen] at atMost ⊢
      exact ⟨by omega, fun all => by omega⟩
    | some path =>
      obtain ⟨packet, sent, same⟩ : ∃ packet, gaminResendRequest req = some packet ∧
          packet.path = path := ⟨_, by rw [gaminResendRequest, name]; rfl, rfl⟩
      obtain ⟨atMostFirst, wholeFirst⟩ := gaminWriteByte_length packet.encode (written 0)
      rw [GAMPacket.encode_length, same] at atMostFirst wholeFirst
      simp only [resentBytes, sent, List.length_append, Option.getD_some] at atMost ⊢
      refine ⟨by omega, fun all => ?_⟩
      intro index other otherPacket entry otherSent
      cases index with
      | zero =>
        rw [List.getElem?_cons_zero, Option.some.injEq] at entry
        rw [← entry, sent, Option.some.injEq] at otherSent
        rw [← otherSent]
        exact wholeFirst (by omega)
      | succ index =>
        exact wholeRest (by omega) index other otherPacket (by simpa using entry) otherSent

theorem resendable_of_resent {requests : List GAMReqData} {packets : List GAMPacket}
    (resent : List.Forall₂ Resent requests packets) : ∀ req ∈ requests, Resendable req := by
  induction resent with
  | nil => exact fun req member => nomatch member
  | @cons request packet _ _ first rest inductionHypothesis =>
    intro req member
    cases member with
    | head =>
      have seq := first.seq
      have small := first.wellFormed.seq
      have type := Nat.and_lt_two_pow packet.type (show 0xF < 2 ^ 4 by decide)
      rw [first.kind] at type
      have nonempty := first.wellFormed.path.resolve_left Bool.false_ne_true
      exact ⟨⟨_, first.path, nonempty, first.wellFormed.short⟩, by omega, by omega, type⟩
    | tail _ behind => exact inductionHypothesis req behind

/-! ## A reconnection -/

theorem gaminTryReconnect_success {conn : GAMData} {fd : Int} {answers : ReconnectAnswers}
    (reconnected : (gaminTryReconnect conn fd answers).1 = 0) :
    gaminTryReconnect conn fd answers =
      (0, (gaminDataReset conn).2, (gaminDataReset conn).1.filterMap gaminResendRequest) := by
  revert reconnected
  simp only [gaminTryReconnect]
  repeat' split
  all_goals intro reconnected
  all_goals first | contradiction | rfl

/-- If no write breaks off, the bytes of the loop are the packets of the requests it has gone through. -/
theorem gaminTryReconnect_resends {conn : GAMData} {fd : Int} {answers : ReconnectAnswers}
    (reconnected : (gaminTryReconnect conn fd answers).1 = 0) {written : Nat → WriteAnswer}
    (whole : WrittenWhole (gaminDataReset conn).1 written) :
    resentBytes (gaminDataReset conn).1 written =
      (gaminTryReconnect conn fd answers).2.2.flatMap GAMPacket.encode := by
  rw [gaminTryReconnect_success reconnected]
  exact resentBytes_packets whole

/-- The requests that are registered again are those the application wants, and no cancelled
request stays behind, exactly when no request is cancelled at the time, every request can
be resent, and every write goes through. -/
theorem reconnect_resends_wanted_iff (conn : GAMData) (fd : Int) (answers : ReconnectAnswers)
    (reconnected : (gaminTryReconnect conn fd answers).1 = 0) (written : Nat → WriteAnswer) :
    (ResentExactly conn.reqTab (resentBytes (gaminDataReset conn).1 written) ∧
        ∀ req ∈ (gaminTryReconnect conn fd answers).2.1.reqTab, req.state ≠ .reqCancelled) ↔
      (∀ req ∈ conn.reqTab, req.state ≠ .reqCancelled ∧ Resendable req) ∧
        WrittenWhole conn.reqTab written := by
  have sameTable : (gaminTryReconnect conn fd answers).2.1.reqTab = conn.reqTab := by
    rw [gaminTryReconnect_success reconnected]
    rfl
  have resetTable : (gaminDataReset conn).1 = conn.reqTab := rfl
  rw [sameTable, resetTable]
  constructor
  · rintro ⟨⟨requests, packets, permuted, resent, bytes⟩, live⟩
    have all : wantedRequests conn.reqTab = conn.reqTab :=
      List.filter_eq_self.mpr fun req member => by simpa using live req member
    rw [all] at permuted
    have resendable := resendable_of_resent resent
    have length : (resentBytes conn.reqTab written).length = wantedLength conn.reqTab := by
      rw [bytes, resent_length resent]
      exact (permuted.map _).sum_nat
    exact ⟨fun req member => ⟨live req member, resendable req (permuted.mem_iff.mpr member)⟩,
      (resentBytes_length conn.reqTab written).2 length⟩
  · rintro ⟨eligible, whole⟩
    have live : ∀ req ∈ conn.reqTab, req.state ≠ .reqCancelled := fun req member => (eligible req member).1
    have all : wantedRequests conn.reqTab = conn.reqTab :=
      List.filter_eq_self.mpr fun req member => by simpa using live req member
    have resent := resent_filterMap fun req member => (eligible req member).2
    exact ⟨⟨conn.reqTab, _, by rw [all], resent, resentBytes_packets whole⟩, live⟩

/-! ## Two connections that are lost -/

/-- The request on /b is cancelled, and the server goes before it has acknowledged that. -/
def cancelledConnection : GAMData := (gaminDataCancel monitoringConnection 1).2

def serverBack : ReconnectAnswers := ⟨true, true, true, true⟩

/-- The cancelled request is registered again, and it stays in the table. -/
theorem cancelled_request_resent :
    (gaminTryReconnect cancelledConnection 3 serverBack).1 = 0 ∧
      resentBytes (gaminDataReset cancelledConnection).1 (fun _ => .complete) =
        [(⟨1, 1, gamReqFile ||| gamOptNoexists, [47, 98]⟩ : GAMPacket)].flatMap GAMPacket.encode ∧
      ¬ ResentExactly cancelledConnection.reqTab
        (resentBytes (gaminDataReset cancelledConnection).1 fun _ => .complete) ∧
      (gaminTryReconnect cancelledConnection 3 serverBack).2.1.reqTab.map (·.state) = [.reqCancelled] := by
  refine ⟨by decide +kernel, by decide +kernel, ?_, by decide +kernel⟩
  rintro ⟨requests, packets, permuted, resent, bytes⟩
  have unwanted : wantedRequests cancelledConnection.reqTab = [] := by decide +kernel
  rw [unwanted, List.perm_nil] at permuted
  rw [permuted] at resent
  cases resent with
  | nil => exact absurd bytes (by decide +kernel)

/-- The same request, not cancelled, is registered again and stays wanted. -/
theorem wanted_request_resent :
    ResentExactly monitoringConnection.reqTab
        (resentBytes (gaminDataReset monitoringConnection).1 fun _ => .complete) ∧
      ∀ req ∈ (gaminTryReconnect monitoringConnection 3 serverBack).2.1.reqTab,
        req.state ≠ .reqCancelled := by
  have table : monitoringConnection.reqTab = [⟨1, .reqInit, gamReqFile, some [47, 98], 9⟩] := by
    decide +kernel
  apply (reconnect_resends_wanted_iff monitoringConnection 3 serverBack (by decide +kernel) _).mpr
  constructor
  · rw [table]
    intro req member
    cases List.mem_singleton.mp member
    exact ⟨by decide, ⟨_, rfl, by decide, by decide⟩, by decide, by decide, by decide⟩
  · exact fun _ _ _ _ _ => rfl

end Gamin.Client
