import Gamin.Inotify.Dispatching

/-! # Adding, cancelling and scanning

These operations find nothing queued.  A new subscription and those that a scan takes from the
missing list are put in place, and all others stay where they are.
-/

namespace Gamin.Inotify

open Gamin Gamin.Server Gamin.Library

/-! ## What holds when nothing is queued -/

/-- What is to be shown of a world in which nothing is queued. -/
structure Resting (world : World) : Prop where
  settled : Settled world
  wellFormed : WellFormed world.backend
  sited : Sited world.tree world.backend
  quiet : world.backend.kernel.deleteSelfQueued = []
  inodes : ∀ {inode wd}, (inode, wd) ∈ world.backend.kernel.watches → inode < world.tree.nextInode
  site : ∀ sub ∈ world.backend.subList, ∀ path, Named sub path → OnTheWay world.backend sub path ∨
    sub.isDir = false ∧ sub ∈ world.backend.missingSubList ∧ ∃ gone ∈ world.lost, gone <+: path
  reported : ∀ sub ∈ world.backend.subList, createdReports world.backend.sent sub = world.due sub
  sentUsed : ∀ report ∈ world.backend.sent, report.emission.sub.address < world.nextAddress
  place : ∀ sub ∈ world.backend.subList, ∀ path, Named sub path →
    (sub.isDir = true ∨ world.tree.Has path) → Placed world.tree world.backend sub path ∨
      sub.isDir = false ∧ sub ∈ world.backend.missingSubList
  top : ∀ sub ∈ world.backend.subList, ∀ path, Named sub path → world.tree.Has (path.take 1) ∨
    sub.isDir = false ∧ sub ∈ world.backend.missingSubList

theorem Resting.worldOk {world : World} (resting : Resting world) : WorldOk world where
  settled := resting.settled
  wellFormed := resting.wellFormed
  sited := resting.sited
  inodes := resting.inodes
  known := by simp
  ended := by simp [resting.quiet]
  endsOnce := .nil
  site := resting.site
  told := fun sub member _ _ _ => .all (resting.reported sub member) (by simp)
  found := fun sub member _ => resting.reported sub member
  sentUsed := resting.sentUsed
  place := fun sub member path named concerned => (resting.place sub member path named concerned).imp id .inr
  top := fun sub member path named =>
    (resting.top sub member path named).imp id fun below => ⟨below.1, .inl below.2⟩

theorem WorldOk.top_or_missing {world : World} (ok : WorldOk world) {sub : IhSub}
    (member : sub ∈ world.backend.subList) {path : Path} (named : Named sub path) :
    world.tree.Has (path.take 1) ∨ sub.isDir = false ∧ sub ∈ world.backend.missingSubList := by
  refine (ok.top sub member path named).imp id fun below => ⟨below.1, ?_⟩
  exact below.2.resolve_right not_leaving_nil

theorem OnTheWay.undisturbed {touched : List IhSub} {before after : Backend} {sub : IhSub} {path : Path}
    (onTheWay : OnTheWay before sub path) (undisturbed : Undisturbed touched before after)
    (untouched : sub ∉ touched) : OnTheWay after sub path := by
  obtain ⟨address, dir, place, attached, found, dirPath, rest⟩ := onTheWay
  obtain ⟨kept, foundKept, samePath, _⟩ := undisturbed.dirs sub untouched address dir attached found
  exact ⟨address, kept, place, (undisturbed.attached sub untouched).trans attached, foundKept,
    samePath.trans dirPath, rest⟩

/-- The watches are still for inodes that have been used. -/
theorem WorldOk.inodes_grown {world : World} (ok : WorldOk world) {after : Backend}
    (grown : Grown world.tree world.backend after) {inode wd : Nat}
    (watched : (inode, wd) ∈ after.kernel.watches) : inode < world.tree.nextInode := by
  rcases grown.watches watched with old | ⟨_, place, known⟩
  · exact ok.inodes old
  · exact ok.settled.tree.used known

/-- Nothing is deleted, so every object that can be joined is alive. -/
theorem joinsLive_of_quiet {state : Backend} (quiet : state.kernel.deleteSelfQueued = []) (sub : IhSub) :
    JoinsLive state sub := by
  intro address _ dir _
  rw [quiet]
  exact List.not_mem_nil

/-! ## Adding -/

theorem gamInotifySendInitialEvents_report {view : FsView} {pathname : Bytes}
    {sub : GamSubscription} {isDir wasMissing : Bool} {emission : Emission}
    (member : emission ∈ gamInotifySendInitialEvents view pathname sub isDir wasMissing) :
    emission.sub = sub ∧ (wasMissing = false → emission.event ≠ .created) := by
  simp only [gamInotifySendInitialEvents, List.mem_append, List.mem_flatMap] at member
  have gevent : wasMissing = false → (if wasMissing = true then GaminEventType.created
      else if view.present pathname = true then .exists else .deleted) ≠ .created := by
    intro present
    rw [if_neg (by simp [present])]
    split <;> simp
  rcases member with (own | ⟨entry, _, listed⟩) | last
  · obtain ⟨_, rfl⟩ := mem_gamServerEmitOneEvent.mp own
    exact ⟨rfl, gevent⟩
  · obtain ⟨_, rfl⟩ := mem_gamServerEmitOneEvent.mp listed
    exact ⟨rfl, gevent⟩
  · split at last
    · contradiction
    · obtain ⟨_, rfl⟩ := mem_gamServerEmitOneEvent.mp last
      exact ⟨rfl, fun _ => by simp⟩

/-- The directory part of a path in normal form. -/
theorem ihSubNew_dirname {names : Path} (valid : ValidPath names) (address : Pointer)
    (isDir : Bool) (sub : GamSubscription) (nonempty : isDir = false → names ≠ []) :
    (ihSubNew address (render names) isDir sub).dirname =
      render (if isDir then names else names.dropLast) := by
  simp only [ihSubNew, ihSubFixDirname_eq]
  cases isDir with
  | true => rfl
  | false =>
    obtain ⟨parent, name, rfl⟩ := (List.eq_nil_or_concat' names).resolve_left (nonempty rfl)
    simp only [Bool.false_eq_true, if_false, gPathGetDirname_render valid, List.dropLast_concat]

theorem gPathGetBasename_render {path : Path} {name : Bytes} (valid : ValidPath (path ++ [name])) :
    gPathGetBasename (render (path ++ [name])) = name := by
  obtain ⟨_, nonempty, noSlash⟩ := validPath_concat.mp valid
  have whole : (render (path ++ [name])).rdropWhile (· = slash) = render (path ++ [name]) := by
    rw [render_of_ne_nil (by simp), joined_rdropWhile valid]
  have taken : ∀ front : Bytes, (front ++ slash :: name).rtakeWhile (· ≠ slash) = name := by
    intro front
    rw [List.rtakeWhile, List.reverse_append, List.reverse_cons, List.append_assoc,
      List.takeWhile_append_of_pos (by
        intro byte member
        exact decide_eq_true (ne_of_mem_of_not_mem (List.mem_reverse.mp member) noSlash))]
    simp
  simp only [gPathGetBasename, whole]
  simp only [render_concat, taken]
  simp

theorem requested_created (user : Pointer) (path : Bytes) (reqno : Nat) (isDir : Bool) (options : Nat) :
    gamSubscriptionHasEvent (gamSubscriptionNew user path requestedEvents reqno isDir options) .created =
      true := by
  have bits : (requestedEvents ||| (GaminEventType.exists.code ||| GaminEventType.endexists.code))
    &&& GaminEventType.created.code ≠ 0 := by decide
  exact decide_eq_true bits

theorem directorySub_new (address : Pointer) (path : Bytes) (user : Pointer) (reqno options : Nat) :
    DirectorySub (ihSubNew address path true
      (gamSubscriptionNew user path requestedEvents reqno true options)) where
  isDir := rfl
  filename := rfl
  pathname := (ihSubFixDirname_eq path).symm
  wanted := fun name => by
    have has := requested_created user path reqno true options
    simp [gamSubscriptionWantsEvent, ihSubNew, gamSubscriptionNew] at has ⊢
    exact has

theorem fileSub_new (address : Pointer) {names : Path} (valid : ValidPath names) (nonempty : names ≠ [])
    (user : Pointer) (reqno options : Nat) :
    FileSub (ihSubNew address (render names) false
      (gamSubscriptionNew user (render names) requestedEvents reqno false options)) where
  names := by
    obtain ⟨parent, name, rfl⟩ := (List.eq_nil_or_concat' names).resolve_left nonempty
    have dirname := ihSubNew_dirname valid address false
      (gamSubscriptionNew user (render (parent ++ [name])) requestedEvents reqno false options)
      fun _ => nonempty
    simp only [Bool.false_eq_true, if_false, List.dropLast_concat] at dirname
    refine ⟨parent, name, ⟨(validPath_concat.mp valid).1, dirname⟩, ?_, render_concat parent name⟩
    simp only [ihSubNew, Bool.false_eq_true, if_false, gPathGetBasename_render valid]
  user := rfl
  isFile := rfl
  wanted := by
    have has := requested_created user (render names) reqno false options
    simp [gamSubscriptionWantsEvent, ihSubNew, gamSubscriptionNew] at has ⊢
    exact has

/-- A subscription joins the list whose user subscription has the next address. -/
theorem Settled.join {world after : World} (settled : Settled world) {sub : IhSub}
    (subList : after.backend.subList = sub :: world.backend.subList)
    (unlisted : sub ∉ world.backend.subList) (tree : after.tree = world.tree) (lost : after.lost = world.lost)
    (named : ∃ path, Named sub path) (directory : sub.isDir = true → DirectorySub sub)
    (file : sub.isDir = false → FileSub sub) (address : sub.usersubdata.address = world.nextAddress)
    (later : world.nextAddress < after.nextAddress) : Settled after := by
  have fresh : ∀ other ∈ world.backend.subList, other.usersubdata ≠ sub.usersubdata := by
    intro other member same
    have used := settled.used other member
    rw [same, address] at used
    exact lt_irrefl _ used
  refine ⟨tree ▸ settled.tree, lost ▸ settled.lost, ?_, ?_, ?_, ?_, ?_, ?_⟩ <;>
    simp only [Distinct, subList, List.nodup_cons, List.forall_mem_cons]
  · exact ⟨unlisted, settled.once⟩
  · exact ⟨named, settled.named⟩
  · exact ⟨directory, settled.directory⟩
  · exact ⟨file, settled.file⟩
  · exact ⟨address ▸ later, fun other member => (settled.used other member).trans later⟩
  · refine ⟨⟨fun _ => trivial, fun other member same => absurd same.symm (fresh other member)⟩,
      fun other member => ⟨fun same => absurd same (fresh other member), settled.distinct other member⟩⟩

/-- Adding a subscription comes down to `ip_start_watching` and the initial events. -/
theorem World.step_addSubscription {world : World} {path : Bytes} {isDir : Bool} {reqno options : Nat}
    {view : FsView} {user : GamSubscription} (userEq : user = world.subscription path isDir reqno options)
    {sub : IhSub} (subEq : sub = ihSubNew (world.nextAddress + 1) path isDir user) {started : Backend}
    (unlisted : sub ∉ world.backend.subList)
    (ran : ipStartWatching world.backend sub world.tree.watch = some (started, true)) :
    let reports := (gamInotifySendInitialEvents view path user isDir false).map (Report.mk .initial)
    let backend := { started with subList := sub :: started.subList, sent := started.sent ++ reports }
    Inotify.step world.backend (.addSubscription (world.nextAddress + 1) user world.tree.watch view) = some backend ∧
      world.step (.addSubscription path isDir reqno options view) =
        some { world with
          backend := backend
          nextAddress := world.nextAddress + 2
          due := Function.update world.due sub 0 } := by
  intro reports backend
  have same : ihSubNew (world.nextAddress + 1) user.path user.isDir user = sub := by
    rw [subEq, userEq]
    rfl
  have ofUser : user.path = path ∧ user.isDir = isDir := by
    rw [userEq]
    exact ⟨rfl, rfl⟩
  have result : Inotify.step world.backend
      (.addSubscription (world.nextAddress + 1) user world.tree.watch view) = some backend := by
    simp only [Inotify.step, gamInotifyAddSubscription]
    rw [same]
    simp only [ihSubAdd, if_neg unlisted, ran, if_true, Option.map_some, ofUser.1, ofUser.2]
    rfl
  refine ⟨result, ?_⟩
  simp only [World.step, ← userEq, result, Option.map_some, ← subEq]

/-- What is known of a subscription before it is started. -/
structure Fresh (world : World) (sub : IhSub) : Prop where
  unlisted : sub ∉ world.backend.subList
  detached : world.backend.subDirHash sub = none
  reachable : ∃ path, Reachable world.tree sub path
  directory : sub.isDir = true → DirectorySub sub
  file : sub.isDir = false → FileSub sub
  address : sub.usersubdata.address = world.nextAddress

theorem WorldOk.fresh {world : World} (ok : WorldOk world) {path : Bytes} {isDir : Bool} {reqno options : Nat}
    {view : FsView} (guard : WorldGuard world (.addSubscription path isDir reqno options view)) :
    Fresh world (ihSubNew (world.nextAddress + 1) path isDir (world.subscription path isDir reqno options)) := by
  obtain ⟨normal, valid, notRoot, top⟩ := guard
  obtain ⟨user, userEq⟩ : ∃ user, user = world.subscription path isDir reqno options := ⟨_, rfl⟩
  obtain ⟨sub, subEq⟩ : ∃ sub, sub = ihSubNew (world.nextAddress + 1) path isDir user := ⟨_, rfl⟩
  have address : sub.usersubdata.address = world.nextAddress := by
    rw [subEq, userEq]
    rfl
  have dirname := ihSubNew_dirname valid (world.nextAddress + 1) isDir user notRoot
  rw [normal, ← subEq] at dirname
  -- every listed one has an address that was given out before
  have unlisted : sub ∉ world.backend.subList := by
    intro listed
    have used := ok.settled.used sub listed
    rw [address] at used
    exact lt_irrefl _ used
  rw [← userEq, ← subEq]
  refine ⟨unlisted, ?_, ⟨_, ⟨?_, dirname⟩, top⟩, ?_, ?_, address⟩
  · by_contra attached
    exact unlisted (ok.wellFormed.listed sub (.inl attached))
  · split
    · exact valid
    · exact valid.ancestor (List.dropLast_prefix _)
  · intro isDirectory
    have given : isDir = true := by rw [subEq] at isDirectory; exact isDirectory
    rw [subEq, userEq, given]
    exact directorySub_new _ _ _ _ _
  · intro isFile
    have given : isDir = false := by rw [subEq] at isFile; exact isFile
    rw [subEq, userEq, given, ← normal]
    exact fileSub_new _ valid (notRoot given) _ _ _

theorem WorldOk.addSubscription {world : World} (ok : WorldOk world) {path : Bytes} {isDir : Bool}
    {reqno options : Nat} {view : FsView}
    (guard : WorldGuard world (.addSubscription path isDir reqno options view)) :
    ∃ after, world.step (.addSubscription path isDir reqno options view) = some after ∧
      WorldOk after := by
  have fresh := ok.fresh guard
  obtain ⟨user, userEq⟩ : ∃ user, user = world.subscription path isDir reqno options := ⟨_, rfl⟩
  obtain ⟨sub, subEq⟩ : ∃ sub, sub = ihSubNew (world.nextAddress + 1) path isDir user := ⟨_, rfl⟩
  rw [← userEq, ← subEq] at fresh
  have subUser : sub.usersubdata = user := by rw [subEq]; rfl
  have unlisted := fresh.unlisted
  obtain ⟨names, reachable⟩ := fresh.reachable
  obtain ⟨started, ran, sited, undisturbed, grown, placed⟩ :=
    ok.sited.ipStartWatching reachable fresh.detached (joinsLive_of_quiet ok.quiet sub)
  obtain ⟨missing, subList, sent⟩ := ipStartWatching_frame ran
  obtain ⟨reports, reportsEq⟩ : ∃ reports, reports =
      (gamInotifySendInitialEvents view path user isDir false).map (Report.mk .initial) := ⟨_, rfl⟩
  have fromUser : ∀ report ∈ reports, report.emission.sub = sub.usersubdata ∧
      report.emission.event ≠ .created := by
    intro report member
    rw [reportsEq] at member
    obtain ⟨emission, emitted, rfl⟩ := List.mem_map.mp member
    obtain ⟨own, notCreated⟩ := gamInotifySendInitialEvents_report emitted
    exact ⟨own.trans subUser.symm, notCreated rfl⟩
  obtain ⟨result, stepped⟩ := @World.step_addSubscription world path isDir reqno options view user userEq sub
    subEq started unlisted ran
  rw [← reportsEq] at result stepped
  refine ⟨_, stepped, ?_⟩
  have later : world.nextAddress < world.nextAddress + 2 :=
    Nat.lt_add_of_pos_right Nat.two_pos
  have others : ∀ {other}, other ∈ world.backend.subList → other ∉ [sub] :=
    fun member => List.mem_singleton.not.mpr (ne_of_mem_of_not_mem member unlisted)
  -- the path of the new subscription is known
  have own : ∀ {other}, Named sub other → other = names := fun named => named.unique reachable.toNamed
  have silent : ∀ other, createdReports reports other = 0 := fun other =>
    createdReports_eq_zero fun report member _ _ _ => (fromUser report member).2
  -- no report is from a subscription whose address has not been given out
  have unheard : createdReports world.backend.sent sub = 0 := by
    apply createdReports_eq_zero
    intro report member same
    have used := ok.sentUsed report member
    rw [same, fresh.address] at used
    exact absurd used (lt_irrefl _)
  refine Resting.worldOk {
    settled := ok.settled.join (by simp only [subList]) unlisted rfl rfl ⟨_, reachable.toNamed⟩ fresh.directory
      fresh.file fresh.address later
    wellFormed := ok.wellFormed.step result
    sited := ⟨sited.linked, sited.kernel, sited.sites⟩
    quiet := undisturbed.queued.trans ok.quiet
    inodes := fun watched => ok.inodes_grown grown watched
    site := ?site
    reported := ?reported
    sentUsed := ?sentUsed
    place := ?place
    top := ?top }
  case site =>
    simp only [subList, List.forall_mem_cons, missing]
    refine ⟨fun other named => .inl ?_, fun other member otherPath named => ?_⟩
    · rw [own named]
      have here := placed.onTheWay reachable.top
      exact here
    · refine (ok.site other member otherPath named).imp (fun onTheWay => ?_) id
      have after := onTheWay.undisturbed undisturbed (others member)
      exact after
  case reported =>
    simp only [subList, List.forall_mem_cons, sent, createdReports_append, silent, Nat.add_zero]
    constructor
    · rw [unheard, Function.update_self]
    · intro other member
      rw [Function.update_of_ne (ne_of_mem_of_not_mem member unlisted)]
      exact ok.reported member
  case sentUsed =>
    simp only [sent]
    intro report member
    rcases List.mem_append.mp member with old | new
    · exact (ok.sentUsed report old).trans later
    · rw [(fromUser report new).1, fresh.address]
      exact later
  case place =>
    simp only [subList, List.forall_mem_cons, missing]
    refine ⟨fun other named _ => .inl ?_, fun other member otherPath named concerned => ?_⟩
    · rw [own named]
      exact placed
    · refine (ok.placed member named concerned).imp (fun place => ?_) id
      have after := place.undisturbed undisturbed (others member)
      exact after
  case top =>
    simp only [subList, List.forall_mem_cons, missing]
    refine ⟨fun other named => .inl ?_, fun other member otherPath named => ok.top_or_missing member named⟩
    rw [own named]
    exact reachable.top

/-! ## Cancelling -/

theorem Settled.fewer {world : World} (settled : Settled world) {after : Backend}
    (fewer : List.Sublist after.subList world.backend.subList) : Settled { world with backend := after } where
  tree := settled.tree
  lost := settled.lost
  once := settled.once.sublist fewer
  named := fun sub member => settled.named sub (fewer.subset member)
  directory := fun sub member => settled.directory sub (fewer.subset member)
  file := fun sub member => settled.file sub (fewer.subset member)
  used := fun sub member => settled.used sub (fewer.subset member)
  distinct := fun first inFirst second inSecond =>
    settled.distinct first (fewer.subset inFirst) second (fewer.subset inSecond)

theorem WorldOk.cancel {world : World} (ok : WorldOk world) {sub : IhSub}
    (alone : StopsAlone world.backend sub) :
    ∃ after, world.step (.cancel sub) = some after ∧ WorldOk after := by
  refine ⟨_, rfl, ?_⟩
  have wellFormed := ok.wellFormed.ihSubCancel sub
  unfold ihSubCancel at wellFormed ⊢
  split
  case isFalse => exact ok
  case isTrue listed =>
    rw [if_pos listed] at wellFormed
    have removed : Sited world.tree (imRm world.backend sub) :=
      ⟨ok.sited.linked, ok.sited.kernel, ok.sited.sites⟩
    -- the object stays or goes without anybody else losing its watch
    obtain ⟨sited, undisturbed⟩ := removed.ipStopWatching alone
    have grown := Grown.ipStopWatching world.tree removed.linked sub
    obtain ⟨missing, subList, sent⟩ := ipStopWatching_frame (imRm world.backend sub) sub
    have left : ∀ {other}, other ∈ (ipStopWatching (imRm world.backend sub) sub).subList.erase sub →
        other ∈ world.backend.subList ∧ other ≠ sub := by
      intro other member
      rw [subList] at member
      exact (ok.settled.once.mem_erase_iff.mp member).symm
    have stillMissing : ∀ {other}, other ≠ sub → other ∈ world.backend.missingSubList →
        other ∈ (ipStopWatching (imRm world.backend sub) sub).missingSubList := by
      intro other different member
      rw [missing]
      exact (List.mem_erase_of_ne different).mpr member
    refine Resting.worldOk {
      settled := by
        refine ok.settled.fewer ?_
        simp only [subList]
        exact List.erase_sublist
      wellFormed := wellFormed
      sited := ⟨sited.linked, sited.kernel, sited.sites⟩
      quiet := undisturbed.queued.trans ok.quiet
      inodes := fun watched => ok.inodes_grown ⟨grown.nextWd, grown.watches, grown.dirs⟩ watched
      site := ?site
      reported := ?reported
      sentUsed := ?sentUsed
      place := ?place
      top := ?top }
    case site =>
      intro other member path named
      obtain ⟨before, different⟩ := left member
      refine (ok.site other before path named).imp (fun onTheWay => ?_) fun away =>
        ⟨away.1, stillMissing different away.2.1, away.2.2⟩
      have here : OnTheWay (imRm world.backend sub) other path := onTheWay
      have after := here.undisturbed undisturbed (List.mem_singleton.not.mpr different)
      exact after
    case reported =>
      intro other member
      simp only [sent]
      exact ok.reported (left member).1
    case sentUsed =>
      simp only [sent]
      exact ok.sentUsed
    case place =>
      intro other member path named concerned
      obtain ⟨before, different⟩ := left member
      refine (ok.placed before named concerned).imp (fun placed => ?_) fun away =>
        ⟨away.1, stillMissing different away.2⟩
      have here : Placed world.tree (imRm world.backend sub) other path := placed
      have after := here.undisturbed undisturbed (List.mem_singleton.not.mpr different)
      exact after
    case top =>
      intro other member path named
      obtain ⟨before, different⟩ := left member
      exact (ok.top_or_missing before named).imp id fun away => ⟨away.1, stillMissing different away.2⟩

/-! ## Scanning -/

/-- What a scan reports of the subscriptions that it takes from the missing list. -/
def foundReports (view : IhSub → FsView) (subs : List IhSub) : List Report :=
  subs.flatMap fun sub => (ihFoundCallback (view sub) sub).map
    (Report.mk (.found ((view sub).present sub.usersubdata.path)))

/-- A scan puts every missing subscription in place. -/
theorem Sited.scanLoop {tree : DirTree} {view : IhSub → FsView} {subs : List IhSub}
    {state : Backend} (sited : Sited tree state) (quiet : state.kernel.deleteSelfQueued = [])
    (once : subs.Nodup) (detached : ∀ sub ∈ subs, state.subDirHash sub = none)
    (reachable : ∀ sub ∈ subs, ∃ path, Reachable tree sub path) :
    ∃ after, scanLoop (fun _ => tree.watch) view state subs = some (after, []) ∧
      Sited tree after ∧ Undisturbed subs state after ∧ Grown tree state after ∧
      after.subList = state.subList ∧ after.sent = state.sent ++ foundReports view subs ∧
      ∀ sub ∈ subs, ∀ path, Named sub path → Placed tree after sub path := by
  induction subs generalizing state with
  | nil => exact ⟨state, rfl, sited, .refl state, .refl tree state, rfl, by simp [foundReports], by simp⟩
  | cons first subs inductionHypothesis =>
    obtain ⟨firstUnlisted, once⟩ := List.nodup_cons.mp once
    obtain ⟨path, firstReachable⟩ := reachable first List.mem_cons_self
    obtain ⟨next, started, nextSited, frame, grown, placed⟩ := sited.ipStartWatching firstReachable
      (detached first List.mem_cons_self) (joinsLive_of_quiet quiet first)
    obtain ⟨_, subList, sent⟩ := ipStartWatching_frame started
    have foundSited : Sited tree (reportFound (view first) first next) :=
      ⟨nextSited.linked, nextSited.kernel, nextSited.sites⟩
    -- the others on the list are still nowhere
    have restDetached : ∀ sub ∈ subs,
        (reportFound (view first) first next).subDirHash sub = none := by
      intro sub member
      rw [reportFound_toWatchTables, frame.attached sub (by
        simpa using ne_of_mem_of_not_mem member firstUnlisted)]
      exact detached sub (List.mem_cons_of_mem _ member)
    obtain ⟨after, done, afterSited, afterFrame, afterGrown, afterSubList, afterSent, restPlaced⟩ :=
      inductionHypothesis foundSited (frame.queued.trans quiet) once restDetached
        (fun sub member => reachable sub (List.mem_cons_of_mem _ member))
    have foundFrame : Undisturbed [first] state (reportFound (view first) first next) :=
      ⟨frame.queued, frame.attached, frame.dirs⟩
    have foundGrown : Grown tree state (reportFound (view first) first next) :=
      ⟨grown.nextWd, grown.watches, grown.dirs⟩
    refine ⟨after, ?_, afterSited, foundFrame.trans afterFrame, foundGrown.trans afterGrown,
      afterSubList.trans subList, ?_, ?_⟩
    · simp only [Inotify.scanLoop, started, done]
    · rw [afterSent, reportFound, sent, List.append_assoc]
      rfl
    · intro sub member subPath named
      rcases List.mem_cons.mp member with rfl | member
      · rw [named.unique firstReachable.toNamed]
        have here : Placed tree (reportFound (view sub) sub next) sub path := placed
        exact here.undisturbed afterFrame firstUnlisted
      · exact restPlaced sub member subPath named

theorem emission_of_found {view : FsView} {sub : IhSub} {emission : Emission}
    (emitted : emission ∈ ihFoundCallback view sub) : emission.sub = sub.usersubdata := by
  unfold ihFoundCallback at emitted
  split at emitted
  · exact (gamInotifySendInitialEvents_report emitted).1
  · contradiction

/-- A file that is there is reported as created, once. -/
theorem createdReports_found {view : FsView} {sub : IhSub} (file : FileSub sub) (isFile : sub.isDir = false)
    {path : Path} (named : Named sub path) (nonempty : path ≠ []) (present : Bool) :
    createdReports ((ihFoundCallback view sub).map (Report.mk (.found present))) sub =
      if view.present sub.pathname = true then 1 else 0 := by
  obtain ⟨⟨samePath, name, same, filename, pathname⟩, user, userFile, wanted⟩ := file
  obtain rfl := same.unique named
  have test : foundTest view sub = view.present sub.pathname := by
    simp only [foundTest, filename, pathname, named.dirname, render_of_ne_nil nonempty]
  have callback : gamInotifyFoundCallback view sub.usersubdata =
      [{ sub := sub.usersubdata, path := sub.pathname,
         subpath := relativePath sub.usersubdata sub.pathname, event := .created }] := by
    simp [gamInotifyFoundCallback, gamInotifySendInitialEvents, gamServerEmitOneEvent, userFile, user, wanted]
  rw [ihFoundCallback, test, callback]
  split <;> simp [createdReports, Cause.ofScan, isFile]

/-- Every subscription of the missing list has been reported once, if its file is there, and no
other one has. -/
theorem WorldOk.createdReports_scan {world : World} (ok : WorldOk world) (view : IhSub → FsView) {sub : IhSub}
    (listed : sub ∈ world.backend.subList) :
    createdReports (foundReports view world.backend.missingSubList) sub =
      if world.finds view sub then 1 else 0 := by
  have others : ∀ other ∈ world.backend.missingSubList, other ≠ sub → ∀ present,
      createdReports ((ihFoundCallback (view other) other).map (Report.mk (.found present))) sub = 0 := by
    intro other missing different present
    apply createdReports_eq_zero
    intro report member ofSub
    obtain ⟨emission, emitted, rfl⟩ := List.mem_map.mp member
    have same := (emission_of_found emitted).symm.trans ofSub
    exact absurd (ok.settled.distinct other (ok.wellFormed.listed other (.inr missing)) sub listed same) different
  by_cases missing : sub ∈ world.backend.missingSubList
  · obtain ⟨path, named⟩ := ok.settled.named sub listed
    -- who is missing is the subscription of a file below the root
    rcases ok.site sub listed path named with ⟨_, _, _, attached, _⟩ | ⟨isFile, _, gone, lost, isPrefix⟩
    · rw [ok.wellFormed.missingDetached sub missing] at attached
      contradiction
    · have nonempty : path ≠ [] := by
        rintro rfl
        exact ok.settled.lost gone lost (List.prefix_nil.mp isPrefix)
      rw [foundReports, createdReports, countP_flatMap_single ok.wellFormed.missingOnce missing
        fun other member different => others other member different _, ← createdReports,
        createdReports_found (ok.settled.file sub listed isFile) isFile named nonempty]
      simp [World.finds, isFile, missing]
  · rw [if_neg fun finds => missing finds.2.1]
    apply createdReports_eq_zero
    intro report member ofSub
    obtain ⟨other, isMissing, inside⟩ := List.mem_flatMap.mp member
    obtain ⟨emission, emitted, rfl⟩ := List.mem_map.mp inside
    have same := ok.settled.distinct other (ok.wellFormed.listed other (.inr isMissing)) sub listed
      ((emission_of_found emitted).symm.trans ofSub)
    exact absurd (same ▸ isMissing) missing

theorem WorldOk.scanMissing {world : World} (ok : WorldOk world) {view : IhSub → FsView}
    (guard : WorldGuard world (.scanMissing view)) :
    ∃ after, world.step (.scanMissing view) = some after ∧ WorldOk after := by
  have listed := fun sub (missing : sub ∈ world.backend.missingSubList) =>
    ok.wellFormed.listed sub (.inr missing)
  have reachable : ∀ sub ∈ world.backend.missingSubList, ∃ path, Reachable world.tree sub path := by
    intro sub missing
    obtain ⟨path, named⟩ := ok.settled.named sub (listed sub missing)
    have top := guard sub missing
    rw [named.dirname, components_render named.valid] at top
    exact ⟨path, named, top⟩
  obtain ⟨scanned, done, sited, undisturbed, grown, subList, sent, placed⟩ :=
    @Sited.scanLoop world.tree view _ _ ok.sited ok.quiet ok.wellFormed.missingOnce
      ok.wellFormed.missingDetached reachable
  have result : Inotify.step world.backend (.scanMissing (fun _ => world.tree.watch) view) =
      some { scanned with missingSubList := [], scanMissingRunning := false } := by
    simp only [Inotify.step, imScanMissing, done, Option.map_some, if_true]
  refine ⟨_, by simp only [World.step, result, Option.map_some]; rfl, ?_⟩
  -- who has been missing is in place, and the others stay where they are
  have inPlace : ∀ sub ∈ world.backend.subList, ∀ path, Named sub path →
      (sub.isDir = true ∨ world.tree.Has path) → Placed world.tree scanned sub path := by
    intro sub member path named concerned
    by_cases missing : sub ∈ world.backend.missingSubList
    · exact placed sub missing path named
    · have before := (ok.placed member named concerned).resolve_right fun away => missing away.2
      exact before.undisturbed undisturbed missing
  have topThere : ∀ sub ∈ world.backend.subList, ∀ path, Named sub path → world.tree.Has (path.take 1) := by
    intro sub member path named
    by_cases missing : sub ∈ world.backend.missingSubList
    · obtain ⟨same, sameReachable⟩ := reachable sub missing
      exact named.unique sameReachable.toNamed ▸ sameReachable.top
    · exact (ok.top_or_missing member named).resolve_right fun away => missing away.2
  have onTheWay : ∀ sub ∈ world.backend.subList, ∀ path, Named sub path → OnTheWay scanned sub path := by
    intro sub member path named
    by_cases missing : sub ∈ world.backend.missingSubList
    · exact (placed sub missing path named).onTheWay (topThere sub member path named)
    · have before := (ok.site sub member path named).resolve_right fun away => missing away.2.1
      exact before.undisturbed undisturbed missing
  refine Resting.worldOk {
    settled := ok.settled.of_subList ok.settled.tree (by simp) subList rfl
    wellFormed := ok.wellFormed.step result
    sited := ⟨sited.linked, sited.kernel, sited.sites⟩
    quiet := undisturbed.queued.trans ok.quiet
    inodes := fun watched => ok.inodes_grown ⟨grown.nextWd, grown.watches, grown.dirs⟩ watched
    site := fun sub member path named => .inl (onTheWay sub (subList ▸ member) path named)
    reported := ?reported
    sentUsed := ?sentUsed
    place := fun sub member path named concerned => .inl (inPlace sub (subList ▸ member) path named concerned)
    top := fun sub member path named => .inl (topThere sub (subList ▸ member) path named) }
  case reported =>
    intro sub member
    simp only [subList] at member
    simp only [sent, createdReports_append, ok.createdReports_scan view member, ok.reported member]
  case sentUsed =>
    simp only [sent]
    intro report inside
    rcases List.mem_append.mp inside with old | new
    · exact ok.sentUsed report old
    · obtain ⟨sub, missing, inside⟩ := List.mem_flatMap.mp new
      obtain ⟨emission, emitted, rfl⟩ := List.mem_map.mp inside
      rw [emission_of_found emitted]
      exact ok.settled.used sub (listed sub missing)

end Gamin.Inotify
