import Gamin.Server.Subscription

/-! # The subscriptions of a client

The list of `gam_listener.c`.  A subscription is found by the number of its request; the one
that was added last comes first.
-/

namespace Gamin.Server

open Gamin

/-- `gam_listener_add_subscription`, which asserts that the subscription is not there. -/
def gamListenerAddSubscription (subs : List GamSubscription) (sub : GamSubscription) :
    Option (List GamSubscription) :=
  if sub ∈ subs then none else some (sub :: subs)

/-- `gam_listener_get_subscription_by_reqno`. -/
def gamListenerGetSubscriptionByReqno (subs : List GamSubscription) (reqno : Nat) :
    Option GamSubscription :=
  subs.find? (·.reqno = reqno)

/-- `gam_listener_remove_subscription` for a subscription that is there. -/
def gamListenerRemoveSubscription (subs : List GamSubscription) (sub : GamSubscription) :
    List GamSubscription :=
  subs.erase sub

theorem getSubscriptionByReqno_mem {subs : List GamSubscription} {reqno : Nat}
    {sub : GamSubscription} (found : gamListenerGetSubscriptionByReqno subs reqno = some sub) :
    sub ∈ subs ∧ sub.reqno = reqno :=
  ⟨List.mem_of_find?_eq_some found, by simpa using List.find?_some found⟩

theorem getSubscriptionByReqno_eq_none {subs : List GamSubscription} {reqno : Nat} :
    gamListenerGetSubscriptionByReqno subs reqno = none ↔ ∀ sub ∈ subs, sub.reqno ≠ reqno := by
  simp [gamListenerGetSubscriptionByReqno]

end Gamin.Server
