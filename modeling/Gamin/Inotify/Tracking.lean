import Gamin.Inotify.World

/-! # What holds between a change and its events

While a batch is made and while its events are dispatched, every subscription is attached to an
object on the way to its directory, or is that of a file on the missing list.  A subscription
that has to move is moved by an event of the queue, and the creation that a subscriber is to be
told of is the first event of the queue that moves it.
-/

namespace Gamin.Inotify

open Gamin Gamin.Server Gamin.Library

/-! ## Counting reports -/

/-- Only one element of the list contributes. -/
theorem countP_flatMap_single {Element Value : Type*} [DecidableEq Element] {list : List Element}
    {values : Element → List Value} {counted : Value → Bool} {element : Element}
    (once : list.Nodup) (member : element ∈ list)
    (others : ∀ other ∈ list, other ≠ element → (values other).countP counted = 0) :
    (list.flatMap values).countP counted = (values element).countP counted := by
  obtain ⟨before, after, rfl, unlisted⟩ := List.eq_append_cons_of_mem member
  have unlistedAfter := (List.nodup_cons.mp (List.nodup_append.mp once).2.1).1
  have zero : ∀ part : List Element, (∀ other ∈ part, (values other).countP counted = 0) →
      (part.flatMap values).countP counted = 0 := by
    intro part none
    simp only [List.countP_eq_zero, List.mem_flatMap] at none ⊢
    rintro value ⟨other, memberOther, inside⟩
    exact none other memberOther value inside
  rw [List.flatMap_append, List.flatMap_cons, List.countP_append, List.countP_append,
    zero before, zero after]
  · simp
  · intro other memberOther
    exact others other (by simp [memberOther]) (ne_of_mem_of_not_mem memberOther unlistedAfter)
  · intro other memberOther
    exact others other (by simp [memberOther]) (ne_of_mem_of_not_mem memberOther unlisted)

theorem createdReports_append (sent more : List Report) (sub : IhSub) :
    createdReports (sent ++ more) sub = createdReports sent sub + createdReports more sub :=
  List.countP_append

theorem createdReports_eq_zero {sent : List Report} {sub : IhSub}
    (none : ∀ report ∈ sent, report.emission.sub = sub.usersubdata →
      report.emission.path = sub.pathname → (sub.isDir = false → report.cause.ofScan = true) →
      report.emission.event ≠ .created) : createdReports sent sub = 0 := by
  rw [createdReports, List.countP_eq_zero]
  intro report member counted
  obtain ⟨same, path, event, cause⟩ := of_decide_eq_true counted
  exact none report member same path cause event

/-- What a directory subscription of this system looks like. -/
structure DirectorySub (sub : IhSub) : Prop where
  isDir : sub.isDir = true
  filename : sub.filename = none
  pathname : sub.pathname = sub.dirname
  wanted : ∀ name, gamSubscriptionWantsEvent sub.usersubdata name sub.usersubdata.isDir .created
    true = true

theorem emission_of_dispatch {dir : IpWatchedDir} {event : IkReport} {sub : IhSub}
    {emission : Emission} (member : emission ∈ dispatchToSub dir event sub) :
    emission.sub = sub.usersubdata ∧ emission.event = ihMaskToEventType event.mask ∧
      (emission.path = sub.dirname ++ slash :: event.name ∨ sub.dirname = eventPath dir event) := by
  have forwarded : ∀ sub : IhSub, emission ∈ ihEventCallback event sub →
      emission.sub = sub.usersubdata ∧ emission.event = ihMaskToEventType event.mask ∧
        emission.path = sub.dirname ++ slash :: event.name := by
    intro sub member
    obtain ⟨_, rfl⟩ := mem_gamServerEmitOneEvent.mp member
    exact ⟨rfl, rfl, rfl⟩
  unfold dispatchToSub at member
  split at member
  case isTrue => contradiction
  case isFalse =>
    split at member
    case isTrue =>
      split at member
      case isTrue same =>
        obtain ⟨user, kind, _⟩ := forwarded _ member
        exact ⟨user, kind, .inr same⟩
      case isFalse => contradiction
    case isFalse =>
      obtain ⟨user, kind, path⟩ := forwarded _ member
      exact ⟨user, kind, .inl path⟩

/-- An event that is not a creation, or that is about another path, is no report of the
creation of the subscribed directory. -/
theorem createdReports_dispatch_zero {dir : IpWatchedDir} {event : IkReport} {sub target : IhSub}
    {cause : Cause} (directory : DirectorySub target)
    (distinct : sub.usersubdata = target.usersubdata → sub = target)
    (other : ihMaskToEventType event.mask ≠ .created ∨ target ≠ sub ∨
      target.dirname ≠ eventPath dir event) :
    createdReports ((dispatchToSub dir event sub).map (Report.mk cause)) target = 0 := by
  apply createdReports_eq_zero
  intro report member user path _ created
  obtain ⟨emission, emitted, rfl⟩ := List.mem_map.mp member
  obtain ⟨ofSub, kind, where_⟩ := emission_of_dispatch emitted
  have same := distinct (ofSub.symm.trans user)
  subst same
  rcases other with notCreated | different | elsewhere
  · exact notCreated (kind.symm.trans created)
  · exact different rfl
  · rcases where_ with below | here
    · rw [path, directory.pathname] at below
      have := congrArg List.length below
      simp at this
    · exact elsewhere here

/-- The creation of the subscribed directory is reported by the parent's watch, once. -/
theorem createdReports_dispatch_one {dir : IpWatchedDir} {event : IkReport} {sub : IhSub}
    {cause : Cause} (directory : DirectorySub sub)
    (created : ihMaskToEventType event.mask = .created)
    (here : sub.dirname = eventPath dir event)
    (path : dir.path ++ slash :: event.name = sub.dirname) :
    createdReports ((dispatchToSub dir event sub).map (Report.mk cause)) sub = 1 := by
  have wanted := directory.wanted (dir.path ++ slash :: event.name)
  have emitted : dispatchToSub dir event sub =
      [{ sub := sub.usersubdata, path := dir.path ++ slash :: event.name,
         subpath := relativePath sub.usersubdata (dir.path ++ slash :: event.name),
         event := .created }] := by
    simp [dispatchToSub, nameMatches, directory.filename, ← here, ihEventCallback,
      gamInotifyEventCallback, gamServerEmitOneEvent, created, wanted]
  simp [emitted, createdReports, path, directory.pathname, directory.isDir]

/-- The subscriptions of the backend can be told apart by the subscription of the client. -/
def Distinct (state : Backend) : Prop :=
  ∀ first ∈ state.subList, ∀ second ∈ state.subList,
    first.usersubdata = second.usersubdata → first = second

theorem forwardedReports_single {state : Backend} {event : IkEvent} (single : event.pair = none)
    (dirList pairDirList : List Pointer) :
    forwardedReports state dirList pairDirList event =
      (dirsOf state dirList).flatMap fun dir => dir.subs.flatMap fun sub =>
        (dispatchToSub dir event.toIkReport sub).map
          (Report.mk (.forwarded dir.path event.name)) := by
  simp [forwardedReports, single]

/-- What is forwarded is for subscriptions of the list, and comes from no scan. -/
theorem forwardedReports_sub {state : Backend} (wellFormed : WellFormed state) {event : IkEvent}
    (single : event.pair = none) (dirList pairDirList : List Pointer) {report : Report}
    (member : report ∈ forwardedReports state dirList pairDirList event) :
    report.cause.ofScan = false ∧ ∃ sub ∈ state.subList, report.emission.sub = sub.usersubdata := by
  rw [forwardedReports_single single] at member
  simp only [List.mem_flatMap, List.mem_map] at member
  obtain ⟨dir, dirMember, sub, subMember, emission, emitted, rfl⟩ := member
  obtain ⟨address, _, found⟩ := mem_dirsOf.mp dirMember
  exact ⟨rfl, sub, (wellFormed.attached_not_missing found subMember).2, (emission_of_dispatch emitted).1⟩

theorem createdReports_forwarded_file {state : Backend} (wellFormed : WellFormed state)
    {event : IkEvent} (single : event.pair = none) {target : IhSub} (file : target.isDir = false)
    (dirList pairDirList : List Pointer) :
    createdReports (forwardedReports state dirList pairDirList event) target = 0 := by
  apply createdReports_eq_zero
  intro report member _ _ cause
  rw [(forwardedReports_sub wellFormed single dirList pairDirList member).1] at cause
  exact absurd (cause file) Bool.false_ne_true

/-- An event that no object the subscription is attached to takes for its directory. -/
theorem createdReports_forwarded_zero {state : Backend} (wellFormed : WellFormed state)
    (distinct : Distinct state) {event : IkEvent} (single : event.pair = none) {target : IhSub}
    (listed : target ∈ state.subList) (directory : DirectorySub target)
    (other : ihMaskToEventType event.mask ≠ .created ∨
      ∀ dir ∈ dirsOf state (state.wdDirHash event.wd), target.dirname ≠ eventPath dir event.toIkReport)
    (pairDirList : List Pointer) :
    createdReports (forwardedReports state (state.wdDirHash event.wd) pairDirList event) target = 0 := by
  rw [forwardedReports_single single]
  apply createdReports_eq_zero
  intro report member user path cause created
  simp only [List.mem_flatMap] at member
  obtain ⟨dir, dirMember, sub, subMember, member⟩ := member
  obtain ⟨address, _, found⟩ := mem_dirsOf.mp dirMember
  have subListed := (wellFormed.attached_not_missing found subMember).2
  have zero : createdReports ((dispatchToSub dir event.toIkReport sub).map
      (Report.mk (.forwarded dir.path event.name))) target = 0 :=
    createdReports_dispatch_zero directory (distinct sub subListed target listed)
      (other.imp id fun elsewhere => .inr (elsewhere dir dirMember))
  rw [createdReports, List.countP_eq_zero] at zero
  exact zero report member (decide_eq_true ⟨user, path, created, cause⟩)

theorem dirsOf_nodup {state : Backend} (linked : Linked state.toWatchTables) {addresses : List Pointer}
    (once : addresses.Nodup) : (dirsOf state addresses).Nodup := by
  refine (dirsOf_disjoint linked once).imp_of_mem ?_
  intro first second inFirst _ disjoint same
  obtain ⟨address, _, found⟩ := mem_dirsOf.mp inFirst
  obtain ⟨sub, member⟩ := List.exists_mem_of_ne_nil _ (linked.subscribed found)
  exact disjoint member (same ▸ member)

/-- The event that the subscribed directory was created. -/
theorem createdReports_forwarded_one {state : Backend} (wellFormed : WellFormed state)
    (distinct : Distinct state) {event : IkEvent} (single : event.pair = none)
    (created : ihMaskToEventType event.mask = .created) {target : IhSub}
    (listed : target ∈ state.subList) (directory : DirectorySub target) {address : Pointer}
    {dir : IpWatchedDir} (attached : state.subDirHash target = some address)
    (found : state.dirs address = some dir) (wd : dir.wd = event.wd)
    (here : target.dirname = eventPath dir event.toIkReport)
    (path : dir.path ++ slash :: event.name = target.dirname) (pairDirList : List Pointer) :
    createdReports (forwardedReports state (state.wdDirHash event.wd) pairDirList event) target = 1 := by
  -- it is in one object only, once, and nobody else's reports count for it
  have elsewhere : ∀ otherDir ∈ dirsOf state (state.wdDirHash event.wd), otherDir ≠ dir →
      target ∉ otherDir.subs := by
    intro otherDir dirMember different inside
    obtain ⟨otherAddress, _, foundOther⟩ := mem_dirsOf.mp dirMember
    have attachedOther := wellFormed.attached.mpr ⟨otherDir, foundOther, inside⟩
    rw [attached] at attachedOther
    cases attachedOther
    rw [found] at foundOther
    exact different (Option.some.inj foundOther).symm
  have zero : ∀ otherDir ∈ dirsOf state (state.wdDirHash event.wd), ∀ sub ∈ otherDir.subs,
      sub ≠ target → createdReports ((dispatchToSub otherDir event.toIkReport sub).map
        (Report.mk (.forwarded otherDir.path event.name))) target = 0 := by
    intro otherDir dirMember sub subMember different
    obtain ⟨otherAddress, _, foundOther⟩ := mem_dirsOf.mp dirMember
    have subListed := (wellFormed.attached_not_missing foundOther subMember).2
    exact createdReports_dispatch_zero directory (distinct sub subListed target listed)
      (.inr (.inl different.symm))
  obtain ⟨sameDir, foundSame, member⟩ := wellFormed.attached.mp attached
  rw [found] at foundSame
  cases foundSame
  have dirMember : dir ∈ dirsOf state (state.wdDirHash event.wd) :=
    mem_dirsOf.mpr ⟨address, wellFormed.byWd.mpr ⟨dir, found, wd⟩, found⟩
  rw [forwardedReports_single single, createdReports,
    countP_flatMap_single (dirsOf_nodup wellFormed.toLinked (wellFormed.listedOnce event.wd))
      dirMember,
    countP_flatMap_single (wellFormed.distinct found) member]
  · exact createdReports_dispatch_one directory created here path
  · intro sub subMember different
    exact zero dir dirMember sub subMember different
  · intro otherDir otherMember different
    rw [List.countP_eq_zero]
    intro report inside
    obtain ⟨sub, subMember, inside⟩ := List.mem_flatMap.mp inside
    have none := zero otherDir otherMember sub subMember
      (ne_of_mem_of_not_mem subMember (elsewhere otherDir otherMember different))
    rw [createdReports, List.countP_eq_zero] at none
    exact none report inside

/-! ## Subscriptions -/

/-- What a file subscription of this system looks like. -/
structure FileSub (sub : IhSub) : Prop where
  names : ∃ path name, Named sub path ∧ sub.filename = some name ∧
    sub.pathname = joined path ++ slash :: name
  user : sub.usersubdata.path = sub.pathname
  isFile : sub.usersubdata.isDir = false
  wanted : gamSubscriptionWantsEvent sub.usersubdata sub.pathname false .created true = true

/-- What holds of the tree and of the subscriptions, whatever the backend does. -/
structure Settled (world : World) : Prop where
  tree : world.tree.WellFormed
  lost : ∀ gone ∈ world.lost, gone ≠ []
  once : world.backend.subList.Nodup
  named : ∀ sub ∈ world.backend.subList, ∃ path, Named sub path
  directory : ∀ sub ∈ world.backend.subList, sub.isDir = true → DirectorySub sub
  file : ∀ sub ∈ world.backend.subList, sub.isDir = false → FileSub sub
  used : ∀ sub ∈ world.backend.subList, sub.usersubdata.address < world.nextAddress
  distinct : Distinct world.backend

theorem Settled.of_subList {world after : World} (settled : Settled world) (tree : after.tree.WellFormed)
    (lost : ∀ gone ∈ after.lost, gone ≠ []) (subList : after.backend.subList = world.backend.subList)
    (nextAddress : after.nextAddress = world.nextAddress) : Settled after where
  tree := tree
  lost := lost
  once := subList ▸ settled.once
  named := subList ▸ settled.named
  directory := subList ▸ settled.directory
  file := subList ▸ settled.file
  used := by
    rw [subList, nextAddress]
    exact settled.used
  distinct := by
    rw [Distinct, subList]
    exact settled.distinct

/-- The subscription is attached to an object for a directory on the way to its own; to one
for the root only if that is its own. -/
def OnTheWay (state : Backend) (sub : IhSub) (path : Path) : Prop :=
  ∃ address dir place, state.subDirHash sub = some address ∧ state.dirs address = some dir ∧
    dir.path = render place ∧ place <+: path ∧ (place = [] → path = [])

theorem Placed.onTheWay {tree : DirTree} {state : Backend} {sub : IhSub} {path : Path}
    (placed : Placed tree state sub path) (top : tree.Has (path.take 1)) : OnTheWay state sub path := by
  obtain ⟨place, nearest, address, dir, _, attached, found, dirPath, _⟩ := placed
  refine ⟨address, dir, place, attached, found, dirPath, nearest.isAncestor, ?_⟩
  rintro rfl
  have short := List.prefix_nil.mp (nearest.longest _ (List.take_prefix 1 path) top)
  exact (List.take_eq_nil_iff.mp short).resolve_left Nat.one_ne_zero

/-- The path that the dispatch loop makes of an event about a name in a directory. -/
theorem eventPath_name {dir : IpWatchedDir} {place : Path} (path : dir.path = render place)
    (valid : ValidPath place) {event : IkReport} (nonempty : event.name ≠ []) :
    eventPath dir event = render (place ++ [event.name]) := by
  rw [eventPath, path, gBuildFilename_render valid nonempty]

theorem eventPath_self {dir : IpWatchedDir} {place : Path} (path : dir.path = render place)
    {event : IkReport} (empty : event.name = []) : eventPath dir event = render place := by
  rw [eventPath, gBuildFilename, if_pos empty, path]

theorem DirectorySub.resubscribes_iff {sub : IhSub} (directory : DirectorySub sub) (dir : IpWatchedDir)
    (event : IkReport) : resubscribes dir event sub = true ↔ eventPath dir event <+: sub.dirname := by
  simp [resubscribes, nameMatches, directory.filename]

/-! ## The queue -/

def KernelNotice.Creates (notice : KernelNotice) (path : Path) : Prop :=
  notice.event.mask = (inCreate ||| inIsdir) ∧ notice.place ++ [notice.event.name] = path

/-- What is known of an event that is to be dispatched: only objects for the directory that it
was queued for can be on its watch descriptor. -/
structure Known (world : World) (notice : KernelNotice) : Prop where
  valid : ValidPath notice.place
  single : notice.event.pair = none
  below : notice.event.wd < world.backend.kernel.nextWd
  watched : ∀ {inode other}, (inode, notice.event.wd) ∈ world.backend.kernel.watches →
    world.tree.inodeOf other = some inode → other = notice.place
  objects : ∀ {address dir}, world.backend.dirs address = some dir → dir.wd = notice.event.wd →
    dir.path = render notice.place
  kind : (notice.event.mask = inDeleteSelf ∧ notice.event.name = [] ∧ notice.place ∈ world.lost ∧
      notice.event.wd ∈ world.backend.kernel.deleteSelfQueued) ∨
    ValidPath (notice.place ++ [notice.event.name]) ∧ (notice.event.mask = (inCreate ||| inIsdir) ∨
      notice.event.mask = (inDelete ||| inIsdir))

/-- The creation of the directory is in the queue, and no event before it moves the
subscription from the object. -/
inductive Owed (dir : IpWatchedDir) (sub : IhSub) (path : Path) : List KernelNotice → Prop where
  | now {notice : KernelNotice} {queue : List KernelNotice} (creates : notice.Creates path)
    (here : notice.event.wd = dir.wd) (once : ∀ later ∈ queue, ¬ later.Creates path) :
    Owed dir sub path (notice :: queue)
  | later {notice : KernelNotice} {queue : List KernelNotice} (silent : ¬ notice.Creates path)
    (stays : notice.event.wd = dir.wd → resubscribes dir notice.event.toIkReport sub = false)
    (owed : Owed dir sub path queue) : Owed dir sub path (notice :: queue)

theorem Owed.creates {dir : IpWatchedDir} {sub : IhSub} {path : Path} {queue : List KernelNotice}
    (owed : Owed dir sub path queue) : ∃ notice ∈ queue, notice.Creates path := by
  induction owed with
  | now creates => exact ⟨_, List.mem_cons_self, creates⟩
  | later _ _ _ inductionHypothesis =>
    obtain ⟨notice, member, creates⟩ := inductionHypothesis
    exact ⟨notice, List.mem_cons_of_mem _ member, creates⟩

theorem Owed.append {dir : IpWatchedDir} {sub : IhSub} {path : Path} {queue more : List KernelNotice}
    (owed : Owed dir sub path queue) (silent : ∀ notice ∈ more, ¬ notice.Creates path) :
    Owed dir sub path (queue ++ more) := by
  induction owed with
  | now creates here once =>
    refine .now creates here fun later member => ?_
    exact (List.mem_append.mp member).elim (once later) (silent later)
  | later quiet stays _ inductionHypothesis => exact .later quiet stays inductionHypothesis

theorem Owed.last {dir : IpWatchedDir} {sub : IhSub} {path : Path} {queue : List KernelNotice} {notice : KernelNotice}
    (silent : ∀ earlier ∈ queue, ¬ earlier.Creates path) (stays : ¬ Moves dir sub queue)
    (creates : notice.Creates path) (here : notice.event.wd = dir.wd) :
    Owed dir sub path (queue ++ [notice]) := by
  induction queue with
  | nil => exact .now creates here (by simp)
  | cons first queue inductionHypothesis =>
    refine .later (silent first List.mem_cons_self) (fun wd => ?_) (inductionHypothesis
      (fun earlier member => silent earlier (List.mem_cons_of_mem _ member)) fun moves => stays ?_)
    · exact eq_false_of_ne_true fun passes => stays ⟨first, List.mem_cons_self, wd, passes⟩
    · obtain ⟨mover, member, passes⟩ := moves
      exact ⟨mover, List.mem_cons_of_mem _ member, passes⟩

/-- The subscriber has been told of every creation but perhaps the one that is in the queue. -/
inductive Told (world : World) (queue : List KernelNotice) (sub : IhSub) (path : Path) : Prop where
  | all (reported : createdReports world.backend.sent sub = world.due sub)
    (silent : ∀ notice ∈ queue, ¬ notice.Creates path)
  | butOne {address : Pointer} {dir : IpWatchedDir}
    (reported : createdReports world.backend.sent sub + 1 = world.due sub)
    (attached : world.backend.subDirHash sub = some address)
    (found : world.backend.dirs address = some dir) (owed : Owed dir sub path queue)

/-- What holds while changes are made and while events are dispatched. -/
structure Tracked (world : World) (queue : List KernelNotice) : Prop where
  settled : Settled world
  wellFormed : WellFormed world.backend
  sited : Sited world.tree world.backend
  inodes : ∀ {inode wd}, (inode, wd) ∈ world.backend.kernel.watches → inode < world.tree.nextInode
  known : ∀ notice ∈ queue, Known world notice
  ended : ∀ wd ∈ world.backend.kernel.deleteSelfQueued,
    ∃ notice ∈ queue, notice.event.mask = inDeleteSelf ∧ notice.event.wd = wd
  endsOnce : queue.Pairwise fun earlier later => earlier.event.mask = inDeleteSelf →
    later.event.mask = inDeleteSelf → later.event.wd ≠ earlier.event.wd
  site : ∀ sub ∈ world.backend.subList, ∀ path, Named sub path → OnTheWay world.backend sub path ∨
    sub.isDir = false ∧ sub ∈ world.backend.missingSubList ∧ ∃ gone ∈ world.lost, gone <+: path
  told : ∀ sub ∈ world.backend.subList, sub.isDir = true → ∀ path, Named sub path →
    Told world queue sub path
  found : ∀ sub ∈ world.backend.subList, sub.isDir = false →
    createdReports world.backend.sent sub = world.due sub
  sentUsed : ∀ report ∈ world.backend.sent, report.emission.sub.address < world.nextAddress

/-- An event of the queue moves the subscription, or puts it on the missing list. -/
def Moving (state : Backend) (queue : List KernelNotice) (sub : IhSub) : Prop :=
  ∃ address dir, state.subDirHash sub = some address ∧ state.dirs address = some dir ∧
    (Moves dir sub queue ∨ Ends dir queue)

/-- No event of the queue moves the subscription, and one puts it on the missing list. -/
def Leaving (state : Backend) (queue : List KernelNotice) (sub : IhSub) : Prop :=
  ∃ address dir, state.subDirHash sub = some address ∧ state.dirs address = some dir ∧
    ¬ Moves dir sub queue ∧ Ends dir queue

/-- The events of a batch are being dispatched. -/
structure Underway (world : World) (queue : List KernelNotice) : Prop extends Tracked world queue where
  place : ∀ sub ∈ world.backend.subList, ∀ path, Named sub path →
    (sub.isDir = true ∨ world.tree.Has path) →
    Placed world.tree world.backend sub path ∨ Moving world.backend queue sub ∨
      sub.isDir = false ∧ sub ∈ world.backend.missingSubList
  top : ∀ sub ∈ world.backend.subList, ∀ path, Named sub path → world.tree.Has (path.take 1) ∨
    sub.isDir = false ∧ (sub ∈ world.backend.missingSubList ∨ Leaving world.backend queue sub)

/-- Nothing is queued. -/
abbrev WorldOk (world : World) : Prop := Underway world []

theorem not_moving_nil {state : Backend} {sub : IhSub} : ¬ Moving state [] sub := by
  rintro ⟨_, _, _, _, ⟨_, member, _⟩ | ⟨_, member, _⟩⟩ <;> contradiction

theorem not_leaving_nil {state : Backend} {sub : IhSub} : ¬ Leaving state [] sub := by
  rintro ⟨_, _, _, _, _, _, member, _⟩
  contradiction

theorem WorldOk.quiet {world : World} (ok : WorldOk world) :
    world.backend.kernel.deleteSelfQueued = [] := by
  rw [List.eq_nil_iff_forall_not_mem]
  intro wd queued
  obtain ⟨_, member, _⟩ := ok.ended wd queued
  contradiction

theorem worldOk_new : WorldOk .new where
  settled := by
    refine ⟨DirTree.root_wellFormed, ?_, List.nodup_nil, ?_, ?_, ?_, ?_, ?_⟩ <;>
      simp [World.new, Backend.new, Distinct]
  wellFormed := wellFormed_new
  sited := ⟨wellFormed_new.toLinked, Kernel.consistent_new, by simp [World.new, Backend.new]⟩
  inodes := by simp [World.new, Backend.new, Kernel.new]
  known := by simp
  ended := by simp [World.new, Backend.new, Kernel.new]
  endsOnce := .nil
  site := by simp [World.new, Backend.new]
  told := by simp [World.new, Backend.new]
  found := by simp [World.new, Backend.new]
  sentUsed := by simp [World.new, Backend.new]
  place := by simp [World.new, Backend.new]
  top := by simp [World.new, Backend.new]

/-- A subscription that is not on the missing list is in place, if it is that of a directory or
its directory exists. -/
theorem WorldOk.placed {world : World} (ok : WorldOk world) {sub : IhSub}
    (member : sub ∈ world.backend.subList) {path : Path} (named : Named sub path)
    (concerned : sub.isDir = true ∨ world.tree.Has path) :
    Placed world.tree world.backend sub path ∨
      sub.isDir = false ∧ sub ∈ world.backend.missingSubList := by
  rcases ok.place sub member path named concerned with placed | moving | missing
  · exact .inl placed
  · exact absurd moving not_moving_nil
  · exact .inr missing

theorem WorldOk.reported {world : World} (ok : WorldOk world) {sub : IhSub}
    (member : sub ∈ world.backend.subList) :
    createdReports world.backend.sent sub = world.due sub := by
  cases kind : sub.isDir with
  | false => exact ok.found sub member kind
  | true =>
    obtain ⟨path, named⟩ := ok.settled.named sub member
    cases ok.told sub member kind path named with
    | all reported => exact reported
    | butOne _ _ _ owed => cases owed

theorem WorldOk.complete {world : World} (ok : WorldOk world) : Complete world := by
  refine ⟨?_, fun sub member => ok.reported member⟩
  intro sub member spared has
  obtain ⟨path, named⟩ := ok.settled.named sub member
  have names : components sub.dirname = path := by
    rw [named.dirname, components_render named.valid]
  rw [names] at spared has
  have placed : Placed world.tree world.backend sub path := by
    refine (ok.placed member named (.inr has)).resolve_right fun ⟨file, missing⟩ => ?_
    -- something on the way to it has been removed
    rcases ok.site sub member path named with ⟨_, _, _, attached, _⟩ | ⟨_, _, gone, lost, isPrefix⟩
    · rw [ok.wellFormed.missingDetached sub missing] at attached
      contradiction
    · rcases spared with directory | spared
      · exact Bool.false_ne_true (file.symm.trans directory)
      · exact spared gone lost isPrefix
  obtain ⟨place, nearest, address, dir, inode, attached, found, dirPath, _, watched⟩ := placed
  rw [nearest.unique (DirTree.nearest_self has)] at dirPath
  exact ⟨address, dir, attached, found, by rw [dirPath, named.dirname],
    .inl (List.mem_map_of_mem watched)⟩

end Gamin.Inotify
