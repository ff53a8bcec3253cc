import Gamin.Kqueue.Accounts

/-! # The accounts of the kqueue backend over runs

In every run in which no attempt to enable a path that is polled as unsupported succeeds, the counter, the
descriptors and the modes agree after every call.  The first attempt that does succeed leaves the monitor
on the poller, where it is enabled again later.
-/

namespace Gamin.Kqueue

open Gamin Gamin.Server Gamin.Inotify Gamin.Library

variable {state : Backend} {smon : Pointer}

/-! ## The start -/

theorem moded_new (maxOpenFiles : Nat) (answers : Nat → Answers) : Moded (.new maxOpenFiles answers) where
  filed := {
    held := {
      counted := rfl
      bounded := Nat.zero_le _
      distinct := .nil
      owned := fun _ _ => ⟨nofun, nofun⟩
      fresh := fun _ _ => rfl }
    subKnown := nofun
    fileKnown := nofun
    tables := nofun }
  orderly _ _ := DeferredSet.orderly_new
  distinct _ _ := .nil
  known _ _ _ polled := absurd polled (DeferredSet.not_holds_new _)
  moded := nofun
  bare _ polled := absurd polled (DeferredSet.not_holds_new _)

theorem calm_new (maxOpenFiles : Nat) (answers : Nat → Answers) : Calm none (.new maxOpenFiles answers) :=
  ⟨fun _ _ => rfl, fun _ => nofun⟩

/-! ## What the tables show -/

/-- The mode of a monitor as its descriptor and the pollers show it. -/
def ShowsMode (state : Backend) (smon : Pointer) : Mode → Prop
  | .kqueue => (state.fdOf smon).isSome ∧ smon ∉ (state.pollers .unsupportedSmon).smons.main ∧
      smon ∉ (state.pollers .missingSmon).smons.main
  | .unsupported => state.fdOf smon = none ∧ smon ∈ (state.pollers .unsupportedSmon).smons.main ∧
      smon ∉ (state.pollers .missingSmon).smons.main
  | .missing => state.fdOf smon = none ∧ smon ∉ (state.pollers .unsupportedSmon).smons.main ∧
      smon ∈ (state.pollers .missingSmon).smons.main

theorem showsMode_unique {first second : Mode} (shows : ShowsMode state smon first)
    (showsToo : ShowsMode state smon second) : first = second := by
  cases first with
  | kqueue =>
    cases second with
    | kqueue => rfl
    | unsupported => exact absurd showsToo.2.1 shows.2.1
    | missing => exact absurd showsToo.2.2 shows.2.2
  | unsupported =>
    cases second with
    | kqueue => exact absurd shows.2.1 showsToo.2.1
    | unsupported => rfl
    | missing => exact absurd shows.2.1 showsToo.2.1
  | missing =>
    cases second with
    | kqueue => exact absurd shows.2.2 showsToo.2.2
    | unsupported => exact absurd shows.2.2 showsToo.2.2
    | missing => rfl

/-- Outside of walks the pollers hold what is in them. -/
theorem InMode.shows {mode : Mode} (inMode : InMode state smon mode)
    (polled : ∀ kind, kind ≠ .unsupportedFmon →
      (state.polledBy kind smon ↔ smon ∈ (state.pollers kind).smons.main)) : ShowsMode state smon mode := by
  have unsupported := polled .unsupportedSmon (by decide)
  have missing := polled .missingSmon (by decide)
  cases mode with
  | kqueue =>
    exact ⟨Option.isSome_iff_ne_none.mpr inMode.1, mt unsupported.mpr inMode.2.1, mt missing.mpr inMode.2.2⟩
  | unsupported => exact ⟨inMode.1, unsupported.mp inMode.2.1, mt missing.mpr inMode.2.2⟩
  | missing => exact ⟨inMode.1, mt unsupported.mpr inMode.2.1, missing.mp inMode.2.2⟩

/-- The counter, the descriptors and the modes agree; no table is being walked. -/
structure Accounted (state : Backend) : Prop where
  counted : state.openFiles = state.watchingMonitors
  bounded : state.openFiles ≤ state.maxOpenFiles
  distinct : (state.descriptors.map Prod.fst).Nodup
  owned : ∀ fd ∈ state.descriptors.map Prod.fst, ∃! mon, state.fdOf mon = some fd
  resting : ∀ kind, (state.pollers kind).smons.iterating = false
  restingFiles : ∀ smon sub, state.subMonitors smon = some sub →
    sub.fmons.iterating = false ∧ sub.unsupportedFmons.iterating = false
  moded : ∀ smon, (state.subMonitors smon).isSome → ∃! mode, ShowsMode state smon mode

theorem Moded.accounted (moded : Moded state) (calm : Calm none state) : Accounted state where
  counted := moded.filed.held.watchingMonitors
  bounded := moded.filed.held.bounded
  distinct := moded.filed.held.distinct
  owned fd isOpen := by
    have held := moded.filed.held
    obtain ⟨⟨_, mon⟩, member, rfl⟩ := List.mem_map.mp isOpen
    refine ⟨mon, (held.owned _ mon).mp member, fun other has => ?_⟩
    exact congrArg Prod.snd
      (List.inj_on_of_nodup_map held.distinct ((held.owned _ other).mpr has) member rfl)
  resting kind := calm.pollers kind nofun
  restingFiles smon sub found := calm.tables smon sub found
  moded smon known := by
    obtain ⟨mode, inMode⟩ := moded.moded smon known nofun
    have shows := inMode.shows fun kind isSmon => (moded.orderly kind isSmon).holds (calm.pollers kind nofun)
    exact ⟨mode, shows, fun other showsToo => showsMode_unique showsToo shows⟩

/-! ## Runs -/

/-- The accounts are in order throughout a run in which no path that is polled as unsupported comes to be
watched. -/
theorem run_accounted (maxOpenFiles : Nat) (answers : Nat → Answers) (inputs : List Input)
    (guarded : Guarded step RetriesMeet (.new maxOpenFiles answers) inputs) :
    Throughout step Accounted (.new maxOpenFiles answers) inputs := by
  have throughout := @Throughout.of_guarded _ _ step RetriesMeet
    (fun state => Moded state ∧ Calm none state)
    (fun state input holds fails => step_moded holds.1 holds.2 fails) _ inputs
    ⟨moded_new maxOpenFiles answers, calm_new maxOpenFiles answers⟩ guarded
  exact throughout.imp fun state holds => holds.1.accounted holds.2

/-! ## The first monitor that is enabled from the poller -/

/-- A kernel in which the first attempts to open a file fail, and all later ones succeed. -/
def lateAnswers (failures call : Nat) : Answers where
  lstat _ := some { Stat.zero with ino := 7 }
  opens _ := if call < failures then none else some 7
  kevent := true
  listing _ := none
  order := []

def fileSubscription : GamSubscription where
  address := 1
  path := [47, 102]
  events := 0
  reqno := 1
  options := 0
  isDir := false
  cancelled := false

theorem run_accounted_late : Throughout step Accounted (.new 200 (lateAnswers 100))
    (.addSubscription fileSubscription :: List.replicate 12 (.poll .unsupportedSmon)) :=
  run_accounted 200 (lateAnswers 100) _ (by decide +kernel)

/-- The file can be opened from the second attempt on: it is opened again ten ticks after that. -/
theorem not_run_accounted : ¬ ∀ maxOpenFiles answers inputs,
    Throughout step Accounted (.new maxOpenFiles answers) inputs := by
  intro accounted
  have last := (accounted 200 (lateAnswers 3)
    (.addSubscription fileSubscription :: List.replicate 20 (.poll .unsupportedSmon))).last.counted
  revert last
  decide +kernel

end Gamin.Kqueue
