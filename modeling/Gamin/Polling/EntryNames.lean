import Gamin.Polling.Entries

/-! # The names that events carry

The first scan of a directory tells its client the bare names that `g_dir_read_name` gives.  Later events
come with the path of a node, from which `gam_server_emit_one_event` takes off as many bytes as the path of
the subscription has, and one separator.  `g_build_filename` puts a separator between the two only if the
directory does not end in one.
-/

namespace Gamin.Polling

open Gamin Gamin.Server Gamin.Inotify Gamin.Library

/-! ## Names -/

/-- What `readdir` gives: a name is not empty and has no separator. -/
def EntryName (name : Bytes) : Prop := name ≠ [] ∧ slash ∉ name

def EndsInSlash (path : Bytes) : Prop := path.getLast? = some slash

section

variable {sub : GamSubscription}

/-- A path that is no longer is carried as it is. -/
theorem relativePath_short {path : Bytes} (short : path.length ≤ sub.path.length + 1) :
    relativePath sub path = path :=
  if_neg fun below => by omega

/-- So is one with something else where the separator should be. -/
theorem relativePath_other {path : Bytes} (other : path[sub.path.length]? ≠ some slash) :
    relativePath sub path = path :=
  if_neg fun below => other below.2.2

theorem relativePath_below (isDir : sub.isDir = true) {rest : Bytes} (nonempty : rest ≠ []) :
    relativePath sub (sub.path ++ slash :: rest) = rest := by
  have longer := List.length_pos_of_ne_nil nonempty
  have separated : (sub.path ++ slash :: rest)[sub.path.length]? = some slash := by simp
  unfold relativePath
  rw [if_pos ⟨isDir, by simp only [List.length_append, List.length_cons]; omega, separated⟩,
    ← List.drop_drop, List.drop_left, List.drop_one, List.tail_cons]

theorem relativePath_entry {name : Bytes} (entry : EntryName name) : relativePath sub name = name :=
  relativePath_other fun separated => entry.2 (List.mem_of_getElem? separated)

end

theorem rdropWhile_slash {dir : Bytes} (plain : ¬ EndsInSlash dir) : dir.rdropWhile (· = slash) = dir := by
  apply List.rdropWhile_eq_self_iff.mpr
  intro nonempty isSlash
  exact plain (by rw [EndsInSlash, List.getLast?_eq_some_getLast nonempty, of_decide_eq_true isSlash])

theorem gBuildFilename_plain {dir name : Bytes} (nonempty : dir ≠ []) (plain : ¬ EndsInSlash dir)
    (entry : EntryName name) : gBuildFilename dir name = dir ++ slash :: name := by
  unfold gBuildFilename
  rw [if_neg entry.1]
  simp only [rdropWhile_slash plain, if_neg nonempty]

/-- Where the directory has ended in a separator already, none stands behind as many bytes. -/
theorem gBuildFilename_endsInSlash {dir name : Bytes} (ends : EndsInSlash dir) (entry : EntryName name) :
    (gBuildFilename dir name)[dir.length]? ≠ some slash ∧ slash ∈ gBuildFilename dir name := by
  have here : slash ∈ dir := List.mem_of_getLast? ends
  unfold gBuildFilename
  rw [if_neg entry.1]
  dsimp only
  split
  case isTrue =>
    refine ⟨fun separated => ?_, List.mem_append_left _ here⟩
    rw [List.getElem?_append_right le_rfl] at separated
    exact entry.2 (List.mem_of_getElem? separated)
  case isFalse =>
    refine ⟨fun separated => ?_, List.mem_append_right _ List.mem_cons_self⟩
    -- at least one separator has been taken off the directory
    have shorter : (dir.rdropWhile (· = slash)).length < dir.length := by
      obtain ⟨rest, whole⟩ : ∃ rest, dir = rest ++ [slash] := List.getLast?_eq_some_iff.mp ends
      have dropped : dir.rdropWhile (· = slash) = rest.rdropWhile (· = slash) := by
        rw [whole]
        exact List.rdropWhile_concat_pos _ _ _ (decide_eq_true rfl)
      have prefixes := (List.rdropWhile_prefix (· = slash) rest).length_le
      rw [dropped, whole, List.length_append, List.length_singleton]
      omega
    rw [List.getElem?_append_right (by omega)] at separated
    obtain ⟨behind, position⟩ : ∃ behind, dir.length - (dir.rdropWhile (· = slash)).length = behind + 1 :=
      ⟨_, (Nat.succ_pred_eq_of_pos (by omega)).symm⟩
    rw [position, List.getElem?_cons_succ] at separated
    exact entry.2 (List.mem_of_getElem? separated)

/-- The name of an entry comes back from the path of its node exactly if the directory was subscribed to
without a separator at its end. -/
theorem relativePath_built_iff {sub : GamSubscription} (isDir : sub.isDir = true) (nonempty : sub.path ≠ [])
    {name : Bytes} (entry : EntryName name) :
    relativePath sub (gBuildFilename sub.path name) = name ↔ ¬ EndsInSlash sub.path := by
  constructor
  · intro same ends
    obtain ⟨other, separated⟩ := gBuildFilename_endsInSlash ends entry
    rw [relativePath_other other] at same
    exact entry.2 (same ▸ separated)
  · intro plain
    rw [gBuildFilename_plain nonempty plain entry, relativePath_below isDir entry.1]

/-! ## What is told -/

/-- A path below a directory: as `g_build_filename` gives it, or with what is left of a longer path behind
the directory. -/
def Below (dir path : Bytes) : Prop :=
  ∃ name, slash ∉ name ∧ (path = dir ++ slash :: name ∨ name ≠ [] ∧ path = gBuildFilename dir name)

/-- What is sent to a subscription: it is about its path, about a path below it, or about an entry when the
subscription is made. -/
structure Told (emission : Emission) : Prop where
  subpath : emission.subpath = relativePath emission.sub emission.path
  about : emission.path = emission.sub.path ∨ Below emission.sub.path emission.path ∨
    emission.event = .exists ∧ EntryName emission.path

/-- A directory has entries with proper names. -/
def ProperListings (view : FsView) : Prop :=
  ∀ dir names, view.listing dir = some names → ∀ name ∈ names, EntryName name

/-- Nodes are below their parents and have the subscriptions to their paths, and so whoever is told
something is told about what it has subscribed to. -/
structure Spelled (poll : Poll) : Prop where
  listings : ∀ call, ProperListings (poll.views call)
  own : ∀ node ∈ poll.nodes, ∀ sub ∈ node.subs, sub.path = node.path
  placed : ∀ node ∈ poll.nodes, ∀ parent, node.parent = some parent → Below parent node.path
  sent : ∀ emission ∈ poll.sent, Told emission

theorem spelled_new {views : Nat → FsView} (proper : ∀ call, ProperListings (views call)) :
    Spelled (.new views) where
  listings := proper
  own _ member := absurd member List.not_mem_nil
  placed _ member := absurd member List.not_mem_nil
  sent _ member := absurd member List.not_mem_nil

section

variable {poll after : Poll}

/-- Neither the clock nor the lists matter. -/
theorem Spelled.elsewhere (spelled : Spelled poll) (advanced : Advanced poll after) (nodes : after.nodes = poll.nodes)
    (sent : after.sent = poll.sent) : Spelled after where
  listings call := by
    obtain ⟨calls, views⟩ := advanced
    rw [views]
    exact spelled.listings _
  own := nodes ▸ spelled.own
  placed := nodes ▸ spelled.placed
  sent := sent ▸ spelled.sent

/-- The subscriptions of a node are to its path. -/
theorem Spelled.subsAt (spelled : Spelled poll) {path : Bytes} {sub : GamSubscription}
    (subscribed : sub ∈ subsAt poll path) : sub.path = path := by
  unfold Polling.subsAt at subscribed
  cases found : gamTreeGetAtPath poll path with
  | none => simp [found] at subscribed
  | some node =>
    simp only [found, Option.map_some, Option.getD_some] at subscribed
    rw [spelled.own node (gamTreeGetAtPath_mem found) sub subscribed, gamTreeGetAtPath_path found]

theorem Spelled.told (spelled : Spelled poll) {emissions : List Emission}
    (told : ∀ emission ∈ emissions, Told emission) : Spelled { poll with sent := poll.sent ++ emissions } :=
  { spelled with
    sent := fun emission member => (List.mem_append.mp member).elim (spelled.sent emission) (told emission) }

/-- What is sent about a node goes to those who have subscribed to it or to its parent. -/
theorem Spelled.gamNodeEmitEvent (spelled : Spelled poll) (path : Bytes) (event : Option GaminEventType) :
    Spelled (gamNodeEmitEvent poll path event) := by
  unfold Polling.gamNodeEmitEvent
  split
  case h_1 event node found =>
    refine spelled.told fun emission member => ?_
    obtain ⟨sub, receives, isSent⟩ := List.mem_flatMap.mp member
    obtain ⟨_, rfl⟩ := mem_gamServerEmitOneEvent.mp isSent
    refine ⟨rfl, ?_⟩
    have inTree := gamTreeGetAtPath_mem found
    cases mem_emitReceivers_iff.mp receives with
    | inl listed => exact .inl (spelled.own node inTree sub listed).symm
    | inr above =>
      unfold parentSubs at above
      cases isParent : node.parent with
      | none => simp [isParent] at above
      | some parent =>
        rw [isParent, Option.map_some, Option.getD_some] at above
        refine .inr (.inl ?_)
        rw [spelled.subsAt above]
        exact spelled.placed node inTree parent isParent
  case h_2 => exact spelled

theorem Spelled.gamTreeAdd (spelled : Spelled poll) {child : GamNode} (bare : child.subs = [])
    (below : ∀ parent, child.parent = some parent → Below parent child.path) : Spelled (gamTreeAdd poll child) := by
  unfold Polling.gamTreeAdd
  split
  · exact spelled
  · refine { spelled with own := fun node member sub listed => ?_, placed := fun node member => ?_ }
    · cases List.mem_append.mp member with
      | inl old => exact spelled.own node old sub listed
      | inr new =>
        rw [List.mem_singleton.mp new, bare] at listed
        exact absurd listed List.not_mem_nil
    · cases List.mem_append.mp member with
      | inl old => exact spelled.placed node old
      | inr new => exact List.mem_singleton.mp new ▸ below

/-- A node is written back to its place. -/
theorem Spelled.setNode (spelled : Spelled poll) {node : GamNode}
    (own : ∀ sub ∈ node.subs, sub.path = node.path) (place : parentAt poll node.path = some node.parent) :
    Spelled (poll.setNode node) := by
  obtain ⟨old, found, sameParent⟩ := Option.map_eq_some_iff.mp place
  have below := spelled.placed old (gamTreeGetAtPath_mem found)
  rw [sameParent, gamTreeGetAtPath_path found] at below
  refine { spelled with own := fun other member => ?_, placed := fun other member => ?_ }
  · obtain ⟨earlier, memberEarlier, rfl⟩ := List.mem_map.mp member
    split
    · exact own
    · exact spelled.own earlier memberEarlier
  · obtain ⟨earlier, memberEarlier, rfl⟩ := List.mem_map.mp member
    split
    · exact below
    · exact spelled.placed earlier memberEarlier

end

theorem pollKept_spelled : PollKept Spelled where
  write write spelled := spelled.elsewhere write.advanced write.nodes write.sent
  setNode place subs spelled :=
    spelled.setNode (fun _ listed => spelled.subsAt (subs ▸ listed)) place

/-! ## Both backends -/

theorem Spelled.gamPollGenericAdd {poll : Poll} (spelled : Spelled poll) (path : Bytes) :
    Spelled (gamPollGenericAdd poll path) := by
  unfold Polling.gamPollGenericAdd
  split
  · exact spelled
  · exact spelled.elsewhere (.refl poll) rfl rfl

theorem Spelled.removed {poll : Poll} (spelled : Spelled poll) (path : Bytes) :
    Spelled (gamTreeRemove (gamPollGenericUnregisterNode poll path) path) where
  listings := spelled.listings
  own node member := spelled.own node (List.mem_of_mem_filter member)
  placed node member := spelled.placed node (List.mem_of_mem_filter member)
  sent := spelled.sent

theorem firstRule_spelled {pollFile : PollFile} (hook : WritingHook pollFile) :
    FirstRule pollFile .free Spelled where
  hook := hook.keeps
  called := pollKept_spelled.called
  emitted path event spelled := spelled.gamNodeEmitEvent path event
  polled found _ spelled := pollKept_spelled.polled hook found spelled
  entered {poll child dir name} _ bare isChild path read _ _ spelled := by
    refine spelled.gamTreeAdd bare fun parent isParent => ?_
    rw [isChild] at isParent
    -- the name is one that a view has shown
    obtain ⟨reader, names, before, listing, member⟩ := read
    have entry := before.listings 0 dir names listing name member
    exact ⟨name, entry.2, .inr ⟨entry.1, by rw [path, Option.some.inj isParent]⟩⟩
  cleared found spelled := pollKept_spelled.setFound found ⟨rfl, rfl, rfl⟩ spelled
  clock {poll} _ spelled := spelled.elsewhere (.refl poll) rfl rfl
  told {poll sub path event} isDirNode force tells spelled := by
    refine spelled.told fun emission member => ?_
    obtain ⟨_, rfl⟩ := mem_gamServerEmitOneEvent.mp member
    refine ⟨rfl, ?_⟩
    rcases tells with own | ⟨exists_, reader, names, before, listing, named⟩
    · exact .inl own
    · exact .inr (.inr ⟨exists_, before.listings 0 sub.path names listing path named⟩)
  grown _ bare part _ _ spelled := spelled.gamTreeAdd bare fun parent isParent => by
    obtain ⟨rest, separate, whole⟩ := part parent isParent
    exact ⟨rest, separate, .inl whole⟩
  missed {poll sub} _ spelled := by
    apply pollKept_spelled.firstScanMissing
    rw [gamServerEmitEvent_one]
    refine spelled.told fun emission member => ?_
    obtain ⟨_, rfl⟩ := mem_gamServerEmitOneEvent.mp member
    exact ⟨rfl, .inl rfl⟩

theorem subsRule_spelled : SubsRule Spelled where
  subscribed {poll node sub} found own _ spelled := by
    have place := parentAt_found found
    refine spelled.setNode (fun other listed => ?_) place
    cases List.mem_cons.mp listed with
    | inl new => rw [new, own]
    | inr old => exact spelled.own node (gamTreeGetAtPath_mem found) other old
  cancelled {poll node sub} found spelled := by
    have place := parentAt_found found
    refine spelled.setNode (fun other listed => ?_) place
    exact spelled.own node (gamTreeGetAtPath_mem found) other (List.mem_of_mem_filter listed)

theorem basicRule_spelled : BasicRule .free Spelled where
  toFirstRule := firstRule_spelled gamPollBasicPollFile_writing
  missing there spelled := pollKept_spelled.addMissing there spelled
  listed _ spelled := spelled.gamPollGenericAdd _
  found spelled := pollKept_spelled.write (.found _) spelled
  unregistered {poll _} _ spelled := spelled.elsewhere (.refl poll) rfl rfl
  removed _ _ spelled := spelled.removed _

theorem dnotifyRule_spelled (handler : Bool) : DnotifyRule handler .free Spelled where
  toFirstRule := firstRule_spelled (gamPollDnotifyPollFile_writing handler)
  unregistered {poll _} _ spelled := spelled.elsewhere (.refl poll) rfl rfl
  removed _ _ spelled := spelled.removed _
  listed spelled := spelled.gamPollGenericAdd _
  unbusied spelled := pollKept_spelled.write (.settled _) spelled
  relisted _ _ spelled := pollKept_spelled.relisted handler _ spelled
  settled _ _ _ spelled :=
    pollKept_spelled.flowControl handler _ false (pollKept_spelled.write (.settled _) spelled)

/-! ## What a client can match -/

/-- The event is about an entry of the directory that the subscription is to. -/
def AboutEntry (emission : Emission) (name : Bytes) : Prop :=
  emission.path = gBuildFilename emission.sub.path name ∨ emission.path = emission.sub.path ++ slash :: name ∨
    emission.event = .exists ∧ emission.path = name

/-- The event is about the directory itself, perhaps under a name with one more separator. -/
def AboutDirectory (emission : Emission) : Prop :=
  emission.path = emission.sub.path ∨ emission.path = emission.sub.path ++ [slash]

/-- An event about an entry carries its name, as the first one did, and an event about the directory carries
the path that was subscribed to. -/
structure Recognised (emission : Emission) : Prop where
  entries : ∀ name, EntryName name → AboutEntry emission name → emission.subpath = name
  directory : AboutDirectory emission → emission.subpath = emission.sub.path

/-- The event is not about the path of an entry of a directory whose path ends in a separator, nor about the
directory with one separator more. -/
structure PlainlySpelled (emission : Emission) : Prop where
  entries : ∀ name, EntryName name → emission.path = gBuildFilename emission.sub.path name →
    ¬ EndsInSlash emission.sub.path
  directory : emission.path ≠ emission.sub.path ++ [slash]

section

variable {emission : Emission}

theorem Told.aboutDirectory_or (told : Told emission) :
    AboutDirectory emission ∨ ∃ name, EntryName name ∧ AboutEntry emission name := by
  rcases told.about with own | ⟨name, separate, below⟩ | entry
  · exact .inl (.inl own)
  · by_cases empty : name = []
    · rcases below with longer | built
      · exact .inl (.inr (empty ▸ longer))
      · exact absurd empty built.1
    · exact .inr ⟨name, ⟨empty, separate⟩, below.symm.imp And.right .inl⟩
  · exact .inr ⟨emission.path, entry.2, .inr (.inr ⟨entry.1, rfl⟩)⟩

theorem Told.recognised_iff (told : Told emission) (isDir : emission.sub.isDir = true)
    (absolute : emission.sub.path.head? = some slash) : Recognised emission ↔ PlainlySpelled emission := by
  have nonempty : emission.sub.path ≠ [] := fun empty => by simp [empty] at absolute
  constructor
  · intro recognised
    refine ⟨fun name entry built => ?_, fun longer => ?_⟩
    · rw [← relativePath_built_iff isDir nonempty entry, ← built, ← told.subpath]
      exact recognised.entries name entry (.inl built)
    · -- the path is carried as it is, and it is longer
      have carried := told.subpath.symm.trans (recognised.directory (.inr longer))
      rw [relativePath_short (by rw [longer, List.length_append]; rfl), longer] at carried
      simpa using congrArg List.length carried
  · intro plain
    refine ⟨fun name entry about => ?_, fun about => ?_⟩
    · rw [told.subpath]
      rcases about with built | below | ⟨_, bare⟩
      · rw [built]
        exact (relativePath_built_iff isDir nonempty entry).mpr (plain.entries name entry built)
      · rw [below, relativePath_below isDir entry.1]
      · rw [bare, relativePath_entry entry]
    · have own := about.resolve_right plain.directory
      rw [told.subpath, own, relativePath_short (Nat.le_succ _)]

end

/-- Whatever is sent to those who have subscribed to a directory by an absolute path. -/
def ToDirectories (property : Emission → Prop) (poll : Poll) : Prop :=
  ∀ emission ∈ poll.sent, emission.sub.isDir = true → emission.sub.path.head? = some slash → property emission

/-- Every event to a directory subscription is about the directory or an entry; and it carries what the
client knows it by, exactly if it is plainly spelled. -/
def NamesMatch : Poll → Prop :=
  ToDirectories fun emission =>
    (AboutDirectory emission ∨ ∃ name, EntryName name ∧ AboutEntry emission name) ∧
      (Recognised emission ↔ PlainlySpelled emission)

theorem Spelled.namesMatch {poll : Poll} (spelled : Spelled poll) : NamesMatch poll := by
  intro emission member isDir absolute
  have told := spelled.sent emission member
  exact ⟨told.aboutDirectory_or, told.recognised_iff isDir absolute⟩

/-- In every run of both backends. -/
theorem namesMatch_throughout {views : Nat → FsView} (proper : ∀ call, ProperListings (views call)) :
    (∀ inputs, Throughout (partialStep BasicState.step) (IfAny fun state => NamesMatch state.poll)
      (some (.new views)) inputs) ∧
    ∀ handler inputs, Throughout (partialStep (DnotifyState.step handler))
      (IfAny fun state => NamesMatch state.poll) (some (.new views)) inputs := by
  have spelled := spelled_new proper
  constructor
  · intro inputs
    have throughout : Throughout (partialStep BasicState.step) (IfAny fun state => Spelled state.poll)
        (some (.new views)) inputs :=
      .of_partial_kept (fun _ _ _ spelled stepped => basicRule_spelled.step subsRule_spelled stepped spelled)
        (show Spelled (BasicState.new views).poll from spelled) inputs
    exact throughout.imp (IfAny.imp fun _ => Spelled.namesMatch)
  · intro handler inputs
    have throughout : Throughout (partialStep (DnotifyState.step handler)) (IfAny fun state => Spelled state.poll)
        (some (.new views)) inputs :=
      .of_partial_kept (fun _ _ _ spelled stepped =>
          (dnotifyRule_spelled handler).step pollKept_spelled subsRule_spelled stepped spelled)
        (show Spelled (DnotifyState.new views).poll from spelled) inputs
    exact throughout.imp (IfAny.imp fun _ => Spelled.namesMatch)

/-! ## The root -/

/-- `/` has one file, `x`, which was last written at the given time. -/
def rootDirectory (written : Nat) : FsView where
  stat path :=
    if path = [47] then .found { StatBuf.zero with isDir := true }
    else if path = [47, 120] then .found { StatBuf.zero with mtim := (written, 0) }
    else .noent
  listing path := if path = [47] then some [[120]] else none
  excluded _ := false
  monType _ := .poll
  pollTimeout _ := 1

theorem rootDirectory_proper (written : Nat) : ProperListings (rootDirectory written) := by
  intro dir names listing name member
  simp only [rootDirectory] at listing
  split at listing
  case isTrue =>
    cases listing
    rw [List.mem_singleton.mp member]
    exact ⟨by decide, by decide⟩
  case isFalse => contradiction

/-- The file is written after the subscription has been made. -/
def rootWritten (call : Nat) : FsView := rootDirectory (if call < 9 then 0 else 1)

theorem rootWritten_namesMatch :
    (∀ inputs, Throughout (partialStep BasicState.step) (IfAny fun state => NamesMatch state.poll)
      (some (.new rootWritten)) inputs) ∧
    ∀ handler inputs, Throughout (partialStep (DnotifyState.step handler))
      (IfAny fun state => NamesMatch state.poll) (some (.new rootWritten)) inputs :=
  namesMatch_throughout fun _ => rootDirectory_proper _

def rootSubscription : GamSubscription := gamSubscriptionNew 1 [47] requestedEvents 1 true 0

/-- The client is told that `x` exists, and then that `/x` has changed. -/
theorem root_entry_unrecognised :
    ¬ Throughout (partialStep BasicState.step) (IfAny fun state => ToDirectories Recognised state.poll)
      (some (.new rootWritten)) [.subscribe 1000 rootSubscription, .tick 1002 10] := by
  intro throughout
  have final : (run (partialStep BasicState.step) (some (.new rootWritten))
      [.subscribe 1000 rootSubscription, .tick 1002 10]).map (fun state => state.poll.sent) =
        some [⟨rootSubscription, [47], [47], .exists⟩, ⟨rootSubscription, [120], [120], .exists⟩,
          ⟨rootSubscription, [47], [47], .endexists⟩, ⟨rootSubscription, [47, 120], [47, 120], .changed⟩] := by
    decide +kernel
  obtain ⟨state, reached, sent⟩ := Option.map_eq_some_iff.mp final
  have last := throughout.last
  rw [reached] at last
  have recognised := last ⟨rootSubscription, [47, 120], [47, 120], .changed⟩ (by rw [sent]; decide) rfl rfl
  have carried := recognised.entries [120] ⟨by decide, by decide⟩ (.inl rfl)
  exact absurd carried (by decide)

end Gamin.Polling
