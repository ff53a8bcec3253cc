import Gamin.Protocol

/-! # Subscriptions and the events they want

`GamSubscription` with the filter of `gam_subscription_wants_event`, and the part of
`gam_server_emit_one_event` that decides what is sent for an event.
-/

namespace Gamin.Server

open Gamin

/-- `GaminEventType`; `invalid` is the -1 that some backends pass on for a kernel event they
do not know. -/
inductive GaminEventType where
  | changed
  | created
  | deleted
  | moved
  | exists
  | endexists
  | unknown
  | invalid
  deriving DecidableEq, Repr

def GaminEventType.code : GaminEventType → Nat
  | .changed => 16
  | .created => 32
  | .deleted => 64
  | .moved => 128
  | .exists => 256
  | .endexists => 512
  | .unknown => 1024
  | .invalid => 4294967295

/-- `GamSubscription`, identified by its address. -/
structure GamSubscription where
  address : Pointer
  path : Bytes
  events : Nat
  reqno : Nat
  options : Nat
  isDir : Bool
  cancelled : Bool
  deriving DecidableEq, Repr

/-- `gam_subscription_new`, which accepts the events about the initial state in any case. -/
def gamSubscriptionNew (address : Pointer) (path : Bytes) (events reqno : Nat) (isDir : Bool)
    (options : Nat) : GamSubscription where
  address := address
  path := path
  events := events ||| (GaminEventType.exists.code ||| GaminEventType.endexists.code)
  reqno := reqno
  options := options
  isDir := isDir
  cancelled := false

/-- The events `gam_connection_request` asks for. -/
def requestedEvents : Nat :=
  GaminEventType.changed.code ||| GaminEventType.created.code ||| GaminEventType.deleted.code |||
    GaminEventType.moved.code ||| GaminEventType.exists.code

def gamSubscriptionHasEvent (sub : GamSubscription) (event : GaminEventType) : Bool :=
  sub.events &&& event.code ≠ 0

/-- `gam_subscription_wants_event`. -/
def gamSubscriptionWantsEvent (sub : GamSubscription) (name : Bytes) (isDirNode : Bool)
    (event : GaminEventType) (force : Bool) : Bool :=
  if sub.cancelled then false
  else if sub.options &&& gamOptNoexists ≠ 0 ∧ (event = .exists ∨ event = .endexists) then false
  else if ¬ sub.isDir ∧ name ≠ sub.path then false
  else if ¬ gamSubscriptionHasEvent sub event then false
  else if force then true
  else if sub.isDir ∧ isDirNode ∧ name = sub.path ∧
      (event = .exists ∨ event = .changed ∨ event = .endexists) then false
  else true

/-- An event on its way to a client: the path it is about, and the path on the wire. -/
structure Emission where
  sub : GamSubscription
  path : Bytes
  subpath : Bytes
  event : GaminEventType
  deriving DecidableEq, Repr

/-- The path of a directory entry goes without the common directory part. -/
def relativePath (sub : GamSubscription) (path : Bytes) : Bytes :=
  if sub.isDir ∧ path.length > sub.path.length + 1 ∧ path[sub.path.length]? = some 47 then
    path.drop (sub.path.length + 1)
  else path

/-- `gam_server_emit_one_event`: what is sent, if anything. -/
def gamServerEmitOneEvent (path : Bytes) (nodeIsDir : Bool) (event : GaminEventType)
    (sub : GamSubscription) (force : Bool) : List Emission :=
  if gamSubscriptionWantsEvent sub path nodeIsDir event force then
    [{ sub := sub, path := path, subpath := relativePath sub path, event := event }]
  else []

theorem mem_gamServerEmitOneEvent {path : Bytes} {nodeIsDir : Bool} {event : GaminEventType}
    {sub : GamSubscription} {force : Bool} {emission : Emission} :
    emission ∈ gamServerEmitOneEvent path nodeIsDir event sub force ↔
      gamSubscriptionWantsEvent sub path nodeIsDir event force = true ∧
        emission = { sub := sub, path := path, subpath := relativePath sub path, event := event } := by
  unfold gamServerEmitOneEvent
  split <;> simp_all

end Gamin.Server
